import Mathlib.Data.List.Basic
import Mathlib.Tactic.Ring

/-!
# Digits from the top of a register

A register of `n + 1` digits to the base `b` is read out by taking its highest digit and shifting
the rest up, as often as digits are wanted.

## Main results

- `ofDigits_topDigits` — the digits read are those of the number without its lower digits
- `topDigits_eq_iff` — and they tell two numbers apart up to these
-/

namespace TopDigits

variable {b n k v w : ℕ}

/-- The first digits of a register of `n + 1` digits. -/
def topDigits (b n : ℕ) : ℕ → ℕ → List ℕ
  | 0, _ => []
  | k + 1, v => v / b ^ n :: topDigits b n k (v * b % b ^ (n + 1))

/-- The number that digits make up, the highest first. -/
def ofDigits (b : ℕ) (ds : List ℕ) : ℕ := ds.foldl (fun v d => v * b + d) 0

@[simp]
theorem topDigits_length (b n k v : ℕ) : (topDigits b n k v).length = k := by
  induction k generalizing v with
  | zero => rfl
  | succ k ih => rw [topDigits, List.length_cons, ih]

/-- Digits of a register that has not overflown. -/
theorem topDigits_lt (hb : 0 < b) (hv : v < b ^ (n + 1)) : ∀ d ∈ topDigits b n k v, d < b := by
  induction k generalizing v with
  | zero => exact fun d hd => absurd hd List.not_mem_nil
  | succ k ih =>
    intro d hd
    rcases List.mem_cons.mp hd with rfl | hd
    · apply Nat.div_lt_of_lt_mul
      rwa [← Nat.pow_succ]
    · exact ih (Nat.mod_lt _ (Nat.pow_pos hb)) d hd

/-- Shifting moves the lower digits up. -/
theorem div_shift (hb : 0 < b) (hk : k ≤ n) :
    v / b ^ n * b ^ k + v * b % b ^ (n + 1) / b ^ (n + 1 - k) = v / b ^ (n - k) := by
  have hmod : v * b % b ^ (n + 1) = v % b ^ n * b := by
    rw [Nat.pow_succ, Nat.mul_mod_mul_right]
  have hpow : b ^ (n + 1 - k) = b ^ (n - k) * b := by
    rw [Nat.succ_sub hk, Nat.pow_succ]
  have hsplit : b ^ n = b ^ (n - k) * b ^ k := by
    rw [← Nat.pow_add, Nat.sub_add_cancel hk]
  calc v / b ^ n * b ^ k + v * b % b ^ (n + 1) / b ^ (n + 1 - k)
      = v / b ^ n * b ^ k + v % b ^ n / b ^ (n - k) := by
        rw [hmod, hpow, Nat.mul_div_mul_right _ _ hb]
    _ = (b ^ (n - k) * (v / b ^ n * b ^ k) + v % b ^ n) / b ^ (n - k) :=
        (Nat.mul_add_div (Nat.pow_pos hb) _ _).symm
    _ = (b ^ n * (v / b ^ n) + v % b ^ n) / b ^ (n - k) := by
        rw [hsplit]
        congr 2
        ring
    _ = v / b ^ (n - k) := by rw [Nat.div_add_mod]

theorem foldl_topDigits (hb : 0 < b) (hk : k ≤ n + 1) (hv : v < b ^ (n + 1)) (acc : ℕ) :
    (topDigits b n k v).foldl (fun v d => v * b + d) acc =
      acc * b ^ k + v / b ^ (n + 1 - k) := by
  induction k generalizing v acc with
  | zero =>
    rw [topDigits, List.foldl_nil, Nat.pow_zero, Nat.mul_one, Nat.sub_zero,
      Nat.div_eq_of_lt hv, Nat.add_zero]
  | succ k ih =>
    have hshift := @div_shift b n k v hb (by omega)
    rw [topDigits, List.foldl_cons, ih (by omega) (Nat.mod_lt _ (Nat.pow_pos hb)),
      Nat.succ_sub_succ, ← hshift, Nat.pow_succ]
    ring

/-- The digits read are those of the number without its lower digits. -/
theorem ofDigits_topDigits (hb : 0 < b) (hk : k ≤ n + 1) (hv : v < b ^ (n + 1)) :
    ofDigits b (topDigits b n k v) = v / b ^ (n + 1 - k) := by
  rw [ofDigits, foldl_topDigits hb hk hv, Nat.zero_mul, Nat.zero_add]

/-- Numbers with the same first digits are the same up to their lower digits. -/
theorem topDigits_eq_iff (hb : 0 < b) (hk : k ≤ n + 1) (hv : v < b ^ (n + 1))
    (hw : w < b ^ (n + 1)) :
    topDigits b n k v = topDigits b n k w ↔ v / b ^ (n + 1 - k) = w / b ^ (n + 1 - k) := by
  constructor
  · intro h
    rw [← ofDigits_topDigits hb hk hv, h, ofDigits_topDigits hb hk hw]
  · intro h
    induction k generalizing v w with
    | zero => rfl
    | succ k ih =>
      rw [Nat.succ_sub_succ] at h
      have hkn : k ≤ n := Nat.le_of_succ_le_succ hk
      have hpow : b ^ (n + 1) = b ^ (n + 1 - k) * b ^ k := by
        rw [← Nat.pow_add, Nat.sub_add_cancel (by omega)]
      have hbound : ∀ x, x * b % b ^ (n + 1) / b ^ (n + 1 - k) < b ^ k := by
        intro x
        apply Nat.div_lt_of_lt_mul
        rw [← hpow]
        exact Nat.mod_lt _ (Nat.pow_pos hb)
      have hdigit : ∀ x, x / b ^ (n - k) / b ^ k = x / b ^ n := by
        intro x
        rw [Nat.div_div_eq_div_mul, ← Nat.pow_add, Nat.sub_add_cancel hkn]
      have hrest : ∀ x, x / b ^ (n - k) % b ^ k = x * b % b ^ (n + 1) / b ^ (n + 1 - k) := by
        intro x
        rw [← div_shift hb hkn, Nat.add_comm, Nat.add_mul_mod_self_right,
          Nat.mod_eq_of_lt (hbound x)]
      have hlower : ∀ x, x * b % b ^ (n + 1) < b ^ (n + 1) :=
        fun x => Nat.mod_lt _ (Nat.pow_pos hb)
      rw [topDigits, topDigits, ← hdigit v, ← hdigit w, h,
        ih (by omega) (hlower v) (hlower w) (by rw [← hrest v, ← hrest w, h])]

end TopDigits
