import Mathlib.Algebra.BigOperators.Group.List.Basic
import Mathlib.Algebra.Order.Group.MinMax
import Mathlib.Data.List.Induction

/-!
# Sums that are limited at every step

An accumulator is brought back into an interval after every addition. Whatever is added, the
whole run amounts to one plain sum and one clamp: the interval of that clamp depends on what was
added, and not on where the accumulator started.

## Main results

- `limitedSum_eq_clamp` — the run as one clamp
- `abs_limitedSum_sub_le` — accumulators that differ come no further apart
-/

namespace LimitedSum

section Clamp

variable {K : Type*} [LinearOrder K]

/-- `x` brought into the interval from `lo` to `hi`. -/
def clamp (lo hi x : K) : K := max lo (min hi x)

variable {l r lo hi : K}

theorem clamp_mono (lo hi : K) : Monotone (clamp lo hi) := by
  intro x y h
  apply max_le_max_left
  exact min_le_min_left hi h

theorem le_clamp (lo hi x : K) : lo ≤ clamp lo hi x := le_max_left _ _

theorem clamp_le (h : lo ≤ hi) (x : K) : clamp lo hi x ≤ hi := max_le h (min_le_left _ _)

/-- The wider of two clamps can be left out. -/
theorem clamp_nested (hl : l ≤ lo) (hr : hi ≤ r) (x : K) :
    clamp lo hi (clamp l r x) = clamp lo hi x := by
  have hbelow : min hi l ≤ lo := (min_le_right hi l).trans hl
  rw [clamp, clamp, clamp, min_max_distrib_left, ← min_assoc, min_eq_left hr, ← max_assoc,
    max_eq_left hbelow]

/-- Two clamps are one. -/
theorem clamp_clamp (hlr : l ≤ r) (x : K) :
    clamp l r (clamp lo hi x) = clamp (clamp l r lo) (clamp l r hi) x := by
  have hmono := clamp_mono l r
  calc clamp l r (clamp lo hi x)
      = clamp (clamp l r lo) (clamp l r hi) (clamp l r x) := by
        change clamp l r (max lo (min hi x)) = _
        rw [hmono.map_max, hmono.map_min]
        rfl
    _ = clamp (clamp l r lo) (clamp l r hi) x :=
        clamp_nested (le_clamp l r lo) (clamp_le hlr hi) x

variable [Add K]

/-- What an accumulator that starts at `x` holds after some additions. -/
def limitedSum (l r x : K) (ds : List K) : K := ds.foldl (fun x d => clamp l r (x + d)) x

theorem limitedSum_append (x : K) (ds : List K) (d : K) :
    limitedSum l r x (ds ++ [d]) = clamp l r (limitedSum l r x ds + d) := by
  rw [limitedSum, List.foldl_append]
  rfl

end Clamp

section Group

variable {K : Type*} [AddCommGroup K] [LinearOrder K] [IsOrderedAddMonoid K] {l r lo hi : K}

theorem clamp_add (lo hi x d : K) : clamp lo hi x + d = clamp (lo + d) (hi + d) (x + d) := by
  rw [clamp, clamp, min_add_add_right, max_add_add_right]

theorem abs_clamp_sub_le (lo hi x y : K) : |clamp lo hi x - clamp lo hi y| ≤ |x - y| := by
  apply (abs_max_sub_max_le_max lo (min hi x) lo (min hi y)).trans
  rw [sub_self, abs_zero, max_eq_right (abs_nonneg _)]
  apply (abs_min_sub_min_le_max hi x hi y).trans
  rw [sub_self, abs_zero, max_eq_right (abs_nonneg _)]

/-- A run is one clamp of the plain sum. -/
theorem limitedSum_eq_clamp (hlr : l ≤ r) {ds : List K} (hds : ds ≠ []) :
    ∃ lo hi, l ≤ lo ∧ lo ≤ hi ∧ hi ≤ r ∧
      ∀ x, limitedSum l r x ds = clamp lo hi (x + ds.sum) := by
  induction ds using List.reverseRecOn with
  | nil => exact absurd rfl hds
  | append_singleton ds d ih =>
    by_cases hne : ds = []
    · subst hne
      refine ⟨l, r, le_rfl, hlr, le_rfl, fun x => ?_⟩
      rw [limitedSum_append, List.nil_append, List.sum_singleton]
      rfl
    · obtain ⟨lo, hi, -, hlohi, -, heq⟩ := ih hne
      refine ⟨clamp l r (lo + d), clamp l r (hi + d), le_clamp _ _ _, ?_, clamp_le hlr _,
        fun x => ?_⟩
      · apply clamp_mono
        exact add_le_add_left hlohi d
      · rw [limitedSum_append, heq, clamp_add, clamp_clamp hlr, List.sum_append,
          List.sum_singleton, add_assoc]

/-- Accumulators that differ come no further apart. -/
theorem abs_limitedSum_sub_le (l r x y : K) (ds : List K) :
    |limitedSum l r x ds - limitedSum l r y ds| ≤ |x - y| := by
  induction ds using List.reverseRecOn with
  | nil => exact le_rfl
  | append_singleton ds d ih =>
    rw [limitedSum_append, limitedSum_append]
    apply (abs_clamp_sub_le _ _ _ _).trans
    rw [add_sub_add_right_eq_sub]
    exact ih

end Group

end LimitedSum
