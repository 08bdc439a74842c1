import Mathlib.Data.List.Basic
import Mathlib.Data.Nat.ModEq
import Mathlib.Logic.Function.Basic

/-!
# Two sections filled in turn

A stream is stored in a section of `n` cells until it is full, then in the other one, and so on.
The section that is being filled holds the end of the stream since the last full section.

## Main results

- `Holds.put` — what the section holds, one element later
- `Holds.tail` — the last elements of the stream, as long as they fit
-/

/-- Two sections of `n` cells. `room` counts the free cells of the section on `side`. -/
structure Sections (α : Type*) (n : ℕ) where
  side : Bool
  room : ℕ
  cells : Bool → Fin n → α

namespace Sections

variable {α : Type*} {n : ℕ}

/-- The next element goes into the first free cell, and a full section is left for the other. -/
def put (x : Sections α n) (a : α) : Sections α n where
  side := if x.room = 1 then !x.side else x.side
  room := if x.room = 1 then n else x.room - 1
  cells := Function.update x.cells x.side fun i =>
    if i.val + x.room = n then a else x.cells x.side i

/-- The section that is being filled holds what came after the last full one. -/
structure Holds (x : Sections α n) (l : List α) : Prop where
  room : x.room + l.length % n = n
  cell : ∀ i : Fin n, i.val < l.length % n →
    l[l.length / n * n + i.val]? = some (x.cells x.side i)

variable {x : Sections α n} {l : List α}

theorem Holds.fresh (h : x.room = n) : x.Holds [] :=
  ⟨by simp [h], fun i hi => by simp at hi⟩

/-- One element later, in the same section or at the start of the other one. -/
theorem Holds.put (hx : x.Holds l) (hn : 0 < n) (a : α) : (x.put a).Holds (l ++ [a]) := by
  have hlt : l.length % n < n := Nat.mod_lt _ hn
  have hlen : (l ++ [a]).length = l.length + 1 := by simp
  by_cases hfull : x.room = 1
  · -- the last free cell
    have hmod : (l.length + 1) % n = 0 := by
      have hroom := hx.room
      rw [Nat.add_mod, show l.length % n = n - 1 by omega]
      rcases Nat.lt_or_ge 1 n with h1 | h1
      · rw [Nat.mod_eq_of_lt h1, Nat.sub_add_cancel hn, Nat.mod_self]
      · rw [show n = 1 by omega]
    refine ⟨?_, fun i hi => ?_⟩
    · rw [hlen, hmod, Nat.add_zero]
      exact if_pos hfull
    · rw [hlen, hmod] at hi
      exact absurd hi (Nat.not_lt_zero _)
  · have hroom := hx.room
    have hnext : l.length % n + 1 < n := by omega
    have hmod : (l.length + 1) % n = l.length % n + 1 := by
      rw [Nat.add_mod, Nat.mod_eq_of_lt (show 1 < n by omega), Nat.mod_eq_of_lt hnext]
    have hdiv : (l.length + 1) / n = l.length / n := by
      apply Nat.div_eq_of_lt_le
      · have := Nat.div_add_mod' l.length n
        omega
      · have := Nat.div_add_mod' l.length n
        rw [Nat.succ_mul]
        omega
    have hside : (x.put a).side = x.side := if_neg hfull
    refine ⟨?_, fun i hi => ?_⟩
    · rw [hlen, hmod]
      change (if x.room = 1 then n else x.room - 1) + _ = n
      rw [if_neg hfull]
      omega
    · rw [hlen, hmod] at hi
      rw [hlen, hdiv, hside]
      simp only [Sections.put, Function.update_self]
      have hsum := Nat.div_add_mod' l.length n
      split
      · next hlast =>
        -- the cell just written
        rw [List.getElem?_append_right (by omega), show l.length / n * n + i.val - l.length = 0 by
          omega]
        rfl
      · next hlast =>
        rw [List.getElem?_append_left (by omega)]
        exact hx.cell i (by omega)

/-- The elements since the last full section, counted from the end of the stream. -/
theorem Holds.tail (hx : x.Holds l) {i : Fin n} (hi : i.val < l.length % n) :
    l[l.length - l.length % n + i.val]? = some (x.cells x.side i) := by
  have hsum := Nat.div_add_mod' l.length n
  rw [← hx.cell i hi, show l.length - l.length % n = l.length / n * n by omega]

end Sections
