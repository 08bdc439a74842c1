import Mathlib.Data.List.Basic
import Mathlib.Data.List.Range

/-!
# Slices of a memory

A memory is a function from addresses to values. `slice m a b` lists its values from `a` up
to, not including, `b`; `patch m a xs` is the memory after the values `xs` have been copied to
`a` and the addresses that follow.
-/

namespace Memory

variable {β : Type*}

/-- The values at the addresses from `a` up to `b`. -/
def slice (m : ℕ → β) (a b : ℕ) : List β := (List.range' a (b - a)).map m

/-- The memory after copying `xs` to address `a`. -/
def patch (m : ℕ → β) (a : ℕ) (xs : List β) (i : ℕ) : β :=
  if a ≤ i then (xs[i - a]?).getD (m i) else m i

variable {m m' : ℕ → β} {a b c i : ℕ} {xs : List β}

@[simp]
theorem slice_length : (slice m a b).length = b - a := by
  simp [slice]

theorem slice_of_le (h : b ≤ a) : slice m a b = [] := by
  simp [slice, Nat.sub_eq_zero_of_le h]

@[simp]
theorem slice_self : slice m a a = [] := slice_of_le le_rfl

/-- Adjacent slices make up one slice. -/
theorem slice_append (hab : a ≤ b) (hbc : b ≤ c) : slice m a b ++ slice m b c = slice m a c := by
  obtain ⟨n, rfl⟩ := Nat.exists_eq_add_of_le hab
  obtain ⟨k, rfl⟩ := Nat.exists_eq_add_of_le hbc
  have hlen : a + n + k - a = n + k := by omega
  unfold slice
  rw [Nat.add_sub_cancel_left, Nat.add_sub_cancel_left, hlen, ← List.map_append,
    List.range'_append_1]

theorem slice_cons (h : a < b) : slice m a b = m a :: slice m (a + 1) b := by
  have hone : slice m a (a + 1) = [m a] := by simp [slice]
  rw [← slice_append (Nat.le_succ a) h, hone]
  rfl

/-- A slice depends on the addresses inside it only. -/
theorem slice_congr (h : ∀ i, a ≤ i → i < b → m i = m' i) : slice m a b = slice m' a b := by
  apply List.map_congr_left
  intro i hi
  obtain ⟨h₁, h₂⟩ := List.mem_range'_1.mp hi
  exact h i h₁ (by omega)

theorem patch_of_lt (h : i < a) : patch m a xs i = m i := if_neg (by omega)

theorem patch_of_le (h : a + xs.length ≤ i) : patch m a xs i = m i := by
  rw [patch]
  rw [List.getElem?_eq_none (by omega)]
  split <;> rfl

/-- Copying nothing changes nothing. -/
@[simp]
theorem patch_nil : patch m a [] = m := by
  funext i
  by_cases h : i < a
  · exact patch_of_lt h
  · exact patch_of_le (by simpa using h)

/-- Two copies, one behind the other. -/
theorem patch_append {ys : List β} :
    patch (patch m a xs) (a + xs.length) ys = patch m a (xs ++ ys) := by
  funext i
  unfold patch
  by_cases ha : a ≤ i
  · rw [if_pos ha, if_pos ha]
    by_cases hi : a + xs.length ≤ i
    · have hsub : i - a - xs.length = i - (a + xs.length) := by omega
      have hxs : xs[i - a]? = none := List.getElem?_eq_none (by omega)
      rw [if_pos hi, List.getElem?_append_right (by omega), hxs, hsub]
      rfl
    · rw [if_neg hi, List.getElem?_append_left (by omega)]
  · rw [if_neg (by omega), if_neg ha, if_neg ha]

/-- The slice just copied. -/
theorem slice_patch_self : slice (patch m a xs) a (a + xs.length) = xs := by
  refine List.ext_getElem? fun i => ?_
  rw [slice]
  rw [List.getElem?_map, Nat.add_sub_cancel_left]
  by_cases hi : i < xs.length
  · rw [List.getElem?_range' hi, Option.map_some, patch, if_pos (by omega),
      List.getElem?_eq_getElem (by omega), Option.getD_some, List.getElem?_eq_getElem hi]
    congr 2
    omega
  · rw [List.getElem?_eq_none (by simpa using hi), List.getElem?_eq_none (by omega)]
    rfl

/-- A slice is the beginning of every longer one. -/
theorem slice_eq_take (hab : a ≤ b) (hbc : b ≤ c) :
    slice m a b = (slice m a c).take (b - a) := by
  rw [← slice_append hab hbc]
  exact (List.take_left' slice_length).symm

/-- A slice is the end of every longer one. -/
theorem slice_eq_drop (hab : a ≤ b) (hbc : b ≤ c) :
    slice m b c = (slice m a c).drop (b - a) := by
  rw [← slice_append hab hbc]
  exact (List.drop_left' slice_length).symm

/-- Copying leaves a slice alone that lies before or behind. -/
theorem slice_patch_disjoint (h : b ≤ c ∨ c + xs.length ≤ a) :
    slice (patch m c xs) a b = slice m a b := by
  apply slice_congr
  intro i h₁ h₂
  rcases h with h | h
  · exact patch_of_lt (by omega)
  · exact patch_of_le (by omega)

/-- What is copied behind a slice extends it. -/
theorem slice_patch_append (h : a ≤ b) :
    slice (patch m b xs) a (b + xs.length) = slice m a b ++ xs := by
  rw [← slice_append h (Nat.le_add_right b xs.length), slice_patch_self,
    slice_patch_disjoint (.inl le_rfl)]

end Memory
