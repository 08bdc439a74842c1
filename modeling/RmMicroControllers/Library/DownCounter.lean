import Mathlib.Algebra.Order.Ring.Int
import Mathlib.Data.List.Basic

/-!
# A counter that counts down and reloads

The counter shows `period - 1` again after 0. Two samples less than a period apart tell how many
steps lie between them: a sample at or below the one before means no reload, any other exactly
one.

## Main definitions

- `after` — what the counter shows some steps later
- `samples` — what it shows at the end of each of a list of gaps
-/

namespace DownCounter

/-- What a counter that shows `v` shows `t` steps later. -/
def after (period v t : ℕ) : ℕ := (((v : ℤ) - t) % period).toNat

/-- What it shows at the end of each gap. -/
def samples (period v : ℕ) : List ℕ → List ℕ
  | [] => []
  | gap :: gaps => after period v gap :: samples period (after period v gap) gaps

section Lemmas

variable {period v t : ℕ}

theorem after_lt (hv : v < period) (t : ℕ) : after period v t < period := by
  have hpos : (0 : ℤ) < period := by omega
  have hlt := Int.emod_lt_of_pos ((v : ℤ) - t) hpos
  have hnonneg := Int.emod_nonneg ((v : ℤ) - t) (ne_of_gt hpos)
  rw [after]
  omega

/-- Before the reload. -/
theorem after_of_le (hv : v < period) (ht : t ≤ v) : after period v t = v - t := by
  have hmod : ((v : ℤ) - t) % period = v - t := Int.emod_eq_of_lt (by omega) (by omega)
  rw [after]
  omega

/-- Between the reload and the next one. -/
theorem after_of_lt (hv : v < t) (ht : t ≤ v + period) : after period v t = v + period - t := by
  have hmod : ((v : ℤ) - t + period) % period = v - t + period :=
    Int.emod_eq_of_lt (by omega) (by omega)
  rw [Int.add_emod_right] at hmod
  rw [after]
  omega

end Lemmas

end DownCounter
