import Mathlib.Data.Rat.Floor
import Mathlib.Algebra.Order.Floor.Ring
import Mathlib.Tactic.Linarith

/-!
# Truncation toward zero and saturation

Converting a real number to an integer type drops the fractional part. `truncate` is that
conversion on an ordered field with a floor, before any question of width; `saturate` clamps
an integer to an interval.
-/

namespace Truncation

variable {K : Type*} [Field K] [LinearOrder K] [IsStrictOrderedRing K] [FloorRing K]

/-- Drop the fractional part. -/
def truncate (x : K) : ℤ := if 0 ≤ x then ⌊x⌋ else ⌈x⌉

/-- Clamp an integer to `[lo, hi]`. -/
def saturate (lo hi z : ℤ) : ℤ := max lo (min z hi)

@[simp]
theorem truncate_intCast (z : ℤ) : truncate (z : K) = z := by
  rw [truncate]
  split <;> simp

@[simp]
theorem truncate_zero : truncate (0 : K) = 0 := by simpa using truncate_intCast (K := K) 0

/-- Truncation stays at or above a nonpositive bound exactly when the number is less than one
    below it. -/
theorem le_truncate_iff {lo : ℤ} (hlo : lo ≤ 0) (x : K) :
    lo ≤ truncate x ↔ (lo : K) - 1 < x := by
  rw [truncate]
  split
  · next hx =>
    have hcast : (lo : K) ≤ 0 := by exact_mod_cast hlo
    constructor
    · intro _; linarith
    · intro _; exact le_trans hlo (Int.floor_nonneg.mpr hx)
  · next hx =>
    have h : lo ≤ ⌈x⌉ ↔ lo - 1 < ⌈x⌉ := by omega
    rw [h, Int.lt_ceil]
    push_cast
    rfl

/-- Truncation stays at or below a nonnegative bound exactly when the number is less than one
    above it. -/
theorem truncate_le_iff {hi : ℤ} (hhi : 0 ≤ hi) (x : K) :
    truncate x ≤ hi ↔ x < (hi : K) + 1 := by
  rw [truncate]
  split
  · next hx =>
    have h : ⌊x⌋ ≤ hi ↔ ⌊x⌋ < hi + 1 := by omega
    rw [h, Int.floor_lt]
    push_cast
    rfl
  · next hx =>
    have hcast : (0 : K) ≤ hi := by exact_mod_cast hhi
    constructor
    · intro _; linarith
    · intro _
      have hle : ⌈x⌉ ≤ 0 := Int.ceil_le.mpr (by push_cast; linarith)
      omega

theorem saturate_eq_self {lo hi z : ℤ} (hlo : lo ≤ z) (hhi : z ≤ hi) :
    saturate lo hi z = z := by
  rw [saturate]
  omega

theorem le_saturate {lo hi z : ℤ} : lo ≤ saturate lo hi z := by
  rw [saturate]
  omega

theorem saturate_le {lo hi z : ℤ} (h : lo ≤ hi) : saturate lo hi z ≤ hi := by
  rw [saturate]
  omega

end Truncation
