import Mathlib.Data.List.Basic

/-!
# Byte memory

A memory is a function from addresses to bytes. Words are stored in four bytes, the lowest
first, so a store reaches four addresses and every other byte is framed. `AgreeOff R m m'`
says that two memories differ at most in the region `R`.
-/

namespace Memory

abbrev Mem := ℕ → UInt8

/-- The word in the four bytes from `a` on. -/
def load32 (m : Mem) (a : ℕ) : ℕ :=
  (m a).toNat + (m (a + 1)).toNat * 256 + (m (a + 2)).toNat * 65536 +
    (m (a + 3)).toNat * 16777216

/-- One byte stored at `a`. -/
def store8 (m : Mem) (a : ℕ) (v : UInt8) : Mem := fun x => if x = a then v else m x

/-- The low 32 bits of `v` stored in the four bytes from `a` on. -/
def store32 (m : Mem) (a v : ℕ) : Mem := fun x =>
  if x = a then UInt8.ofNat v
  else if x = a + 1 then UInt8.ofNat (v / 256)
  else if x = a + 2 then UInt8.ofNat (v / 65536)
  else if x = a + 3 then UInt8.ofNat (v / 16777216)
  else m x

variable {m m' : Mem} {a b v x : ℕ}

section Bytes

theorem store8_self (m : Mem) (a : ℕ) (v : UInt8) : store8 m a v a = v := if_pos rfl

theorem store8_of_ne {v : UInt8} (h : x ≠ a) : store8 m a v x = m x := if_neg h

theorem store32_of_outside (h : x < a ∨ a + 4 ≤ x) : store32 m a v x = m x := by
  rw [store32]
  rw [if_neg (by omega), if_neg (by omega), if_neg (by omega), if_neg (by omega)]

end Bytes

section Words

theorem load32_lt (m : Mem) (a : ℕ) : load32 m a < 4294967296 := by
  have h0 := (m a).toNat_lt
  have h1 := (m (a + 1)).toNat_lt
  have h2 := (m (a + 2)).toNat_lt
  have h3 := (m (a + 3)).toNat_lt
  rw [load32]
  omega

/-- A load reads four bytes only. -/
theorem load32_congr (h : ∀ x, a ≤ x → x < a + 4 → m x = m' x) :
    load32 m a = load32 m' a := by
  unfold load32
  rw [h a (by omega) (by omega), h (a + 1) (by omega) (by omega),
    h (a + 2) (by omega) (by omega), h (a + 3) (by omega) (by omega)]

theorem load32_store32_self (h : v < 4294967296) : load32 (store32 m a v) a = v := by
  have h0 : store32 m a v a = UInt8.ofNat v := if_pos rfl
  have h1 : store32 m a v (a + 1) = UInt8.ofNat (v / 256) := by
    rw [store32]
    rw [if_neg (by omega), if_pos rfl]
  have h2 : store32 m a v (a + 2) = UInt8.ofNat (v / 65536) := by
    rw [store32]
    rw [if_neg (by omega), if_neg (by omega), if_pos rfl]
  have h3 : store32 m a v (a + 3) = UInt8.ofNat (v / 16777216) := by
    rw [store32]
    rw [if_neg (by omega), if_neg (by omega), if_neg (by omega), if_pos rfl]
  rw [load32]
  rw [h0, h1, h2, h3]
  simp only [UInt8.toNat_ofNat']
  omega

theorem load32_store32_of_disjoint (h : b + 4 ≤ a ∨ a + 4 ≤ b) :
    load32 (store32 m a v) b = load32 m b :=
  load32_congr fun _ _ _ => store32_of_outside (by omega)

end Words

/-- The memories agree outside the region `R`. -/
def AgreeOff (R : ℕ → Prop) (m m' : Mem) : Prop := ∀ x, ¬R x → m x = m' x

namespace AgreeOff

variable {R : ℕ → Prop} {m'' : Mem}

theorem refl (R : ℕ → Prop) (m : Mem) : AgreeOff R m m := fun _ _ => rfl

theorem trans (h : AgreeOff R m m') (h' : AgreeOff R m' m'') : AgreeOff R m m'' :=
  fun x hx => (h x hx).trans (h' x hx)

theorem mono {R' : ℕ → Prop} (hR : ∀ x, R x → R' x) (h : AgreeOff R m m') :
    AgreeOff R' m m' := fun x hx => h x fun hRx => hx (hR x hRx)

/-- The same word stored in both memories keeps the agreement. -/
theorem store32 (h : AgreeOff R m m') (a v : ℕ) :
    AgreeOff R (store32 m a v) (Memory.store32 m' a v) := by
  intro x hx
  unfold Memory.store32
  rw [h x hx]

/-- A word outside the region reads the same in both memories. -/
theorem load32 (h : AgreeOff R m m') (ha : ∀ x, a ≤ x → x < a + 4 → ¬R x) :
    Memory.load32 m a = Memory.load32 m' a :=
  load32_congr fun x hx hx' => h x (ha x hx hx')

/-- A store inside the region is not seen outside it. -/
theorem store8_left {v : UInt8} (h : AgreeOff R m m') (ha : R a) :
    AgreeOff R (store8 m a v) m' := by
  intro x hx
  have hxa : x ≠ a := by
    rintro rfl
    exact hx ha
  exact (store8_of_ne hxa).trans (h x hx)

end AgreeOff

/-- The bytes of the `len` addresses from `a` on. -/
def Within (a len x : ℕ) : Prop := a ≤ x ∧ x < a + len

namespace Within

variable {a len b len' x : ℕ}

theorem mono (hlo : b ≤ a) (hhi : a + len ≤ b + len') (hx : Within a len x) : Within b len' x :=
  ⟨Nat.le_trans hlo hx.1, Nat.lt_of_lt_of_le hx.2 hhi⟩

theorem apart (h : a + len ≤ b ∨ b + len' ≤ a) (hx : Within a len x) : ¬Within b len' x := by
  rintro ⟨hlo, hhi⟩
  obtain ⟨hlo', hhi'⟩ := hx
  omega

/-- An area apart from two others. -/
theorem apart_or {c len'' : ℕ} (hx : Within a len x) (h : a + len ≤ b ∨ b + len' ≤ a)
    (h' : a + len ≤ c ∨ c + len'' ≤ a) : ¬(Within b len' x ∨ Within c len'' x) :=
  not_or.mpr ⟨hx.apart h, hx.apart h'⟩

end Within

end Memory
