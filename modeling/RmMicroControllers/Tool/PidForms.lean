import RmMicroControllers.Library.VelocityForm
import RmMicroControllers.Tool.Pid

/-!
# The two forms of the controller over a run of calls

`pid_speed` adds to its own output and `pid_angle` computes it afresh. From a cleared `PidInfo`,
without limits and as long as no angle difference is brought back by a turn, successive calls
return the same values: the positional form over all the errors so far. `PidControl` reaches the
positional form through an overload that never shifts the errors, so its derivative part is that
of the error alone.

## Main results

- `Pid.speedCalls_out` — every result of `pid_speed` is the positional form
- `PidControl.feedback_derivative_iff` — when a result of `feedback` is that form
-/

namespace RmMicroControllers

open MathTool VelocityForm

/-- The `get` and `set` arguments of one call. -/
structure PidCall where
  get : ℚ
  set : ℚ
  deriving DecidableEq

/-- The error of one call. -/
def PidCall.error (c : PidCall) : ℚ := c.set - c.get

namespace Pid

/-- The errors of successive calls, with none before the first. -/
def errorsOf (calls : List PidCall) : ErrorTrace ℚ := ⟨0, calls.map PidCall.error⟩

/-- Successive calls of `pid_speed` on one `PidInfo` that starts at zero. -/
def speedCalls (coeff : PidCoeff) (calls : List PidCall) : PidInfo :=
  calls.foldl (fun pid c => pidSpeed pid coeff c.get c.set) {}

/-- Successive calls of `pid_angle`. -/
def angleCalls (coeff : PidCoeff) (angleLimit : ℚ) (calls : List PidCall) : PidInfo :=
  calls.foldl (fun pid c => pidAngle pid coeff c.get c.set angleLimit) {}

theorem errorsOf_append (calls : List PidCall) (call : PidCall) :
    errorsOf (calls ++ [call]) = (errorsOf calls).push call.error := by
  simp [errorsOf, ErrorTrace.push]

theorem speedCalls_append (coeff : PidCoeff) (calls : List PidCall) (call : PidCall) :
    speedCalls coeff (calls ++ [call]) =
      pidSpeed (speedCalls coeff calls) coeff call.get call.set := by
  simp [speedCalls]

theorem angleCalls_append (coeff : PidCoeff) (angleLimit : ℚ) (calls : List PidCall)
    (call : PidCall) :
    angleCalls coeff angleLimit (calls ++ [call]) =
      pidAngle (angleCalls coeff angleLimit calls) coeff call.get call.set angleLimit := by
  simp [angleCalls]

/-- What `pid_speed` keeps of the errors so far: its output and the last two of them. -/
structure KeepsVelocity (coeff : PidCoeff) (t : ErrorTrace ℚ) (pid : PidInfo) : Prop where
  out_eq : pid.out = positionalPid coeff.kp (coeff.ki * ·) coeff.kd t
  last_eq : pid.error 0 = t.last
  previous_eq : pid.error 1 = t.previous

/-- What `pid_angle` keeps of them: the integral and the last error. -/
structure KeepsIntegral (coeff : PidCoeff) (t : ErrorTrace ℚ) (pid : PidInfo) : Prop where
  iOut_eq : pid.iOut = (t.errors.map (coeff.ki * ·)).sum
  last_eq : pid.error 0 = t.last

section Unlimited

variable {coeff : PidCoeff} (hi : coeff.kiLimit = 0) (hk : coeff.kLimit = 0)

include hi

include hk in
theorem KeepsVelocity.pidSpeed {t : ErrorTrace ℚ} {pid : PidInfo}
    (h : KeepsVelocity coeff t pid) (call : PidCall) :
    KeepsVelocity coeff (t.push call.error) (pidSpeed pid coeff call.get call.set) := by
  refine ⟨?_, by simp [PidCall.error], by simp [h.last_eq]⟩
  rw [pidSpeed_out hk, hi, constrainAbsNoZero_zero, positionalPid_push, ← h.out_eq, ← h.last_eq,
    ← h.previous_eq]
  rfl

include hk in
theorem keepsVelocity_speedCalls (calls : List PidCall) :
    KeepsVelocity coeff (errorsOf calls) (speedCalls coeff calls) := by
  induction calls using List.reverseRecOn with
  | nil =>
    refine ⟨?_, rfl, rfl⟩
    simp [speedCalls, errorsOf, positionalPid, positional, ErrorTrace.last, ErrorTrace.previous]
  | append_singleton calls call ih =>
    rw [speedCalls_append, errorsOf_append]
    exact ih.pidSpeed hi hk call

theorem KeepsIntegral.pidAngle {t : ErrorTrace ℚ} {pid : PidInfo}
    (h : KeepsIntegral coeff t pid) {call : PidCall} {angleLimit : ℚ}
    (hwrap : formatAngleDelta call.error angleLimit = call.error) :
    KeepsIntegral coeff (t.push call.error)
      (pidAngle pid coeff call.get call.set angleLimit) := by
  constructor
  · rw [pidAngle_iOut hi, h.iOut_eq]
    change _ + coeff.ki * formatAngleDelta call.error angleLimit = _
    rw [hwrap]
    simp [ErrorTrace.push]
  · rw [ErrorTrace.last_push]
    exact hwrap

theorem keepsIntegral_angleCalls {angleLimit : ℚ} {calls : List PidCall}
    (hwrap : ∀ c ∈ calls, formatAngleDelta c.error angleLimit = c.error) :
    KeepsIntegral coeff (errorsOf calls) (angleCalls coeff angleLimit calls) := by
  induction calls using List.reverseRecOn with
  | nil => exact ⟨rfl, rfl⟩
  | append_singleton calls call ih =>
    have hcall := hwrap call (by simp)
    have hcalls := fun c hc => hwrap c (List.mem_append_left _ hc)
    rw [angleCalls_append, errorsOf_append]
    exact (ih hcalls).pidAngle hi hcall

include hk in
/-- The two forms agree as long as no difference is brought back by a turn. -/
theorem angleCalls_out_eq {angleLimit : ℚ} {calls : List PidCall}
    (hwrap : ∀ c ∈ calls, formatAngleDelta c.error angleLimit = c.error) :
    (angleCalls coeff angleLimit calls).out = (speedCalls coeff calls).out := by
  rw [(keepsVelocity_speedCalls hi hk calls).out_eq]
  cases calls using List.reverseRecOn with
  | nil => simp [angleCalls, errorsOf, positionalPid, positional, ErrorTrace.last,
      ErrorTrace.previous]
  | append_singleton calls call =>
    have hcall := hwrap call (by simp)
    have h := keepsIntegral_angleCalls hi (fun c hc => hwrap c (List.mem_append_left _ hc))
    rw [angleCalls_append, pidAngle_out hi hk, errorsOf_append, h.iOut_eq, h.last_eq]
    change coeff.kp * formatAngleDelta call.error angleLimit +
      (_ + coeff.ki * formatAngleDelta call.error angleLimit) +
      coeff.kd * (formatAngleDelta call.error angleLimit - _) = _
    rw [hcall, positionalPid, positional, ErrorTrace.last_push, ErrorTrace.previous_push,
      ErrorTrace.base_push]
    simp [ErrorTrace.push, errorsOf]

end Unlimited

/-- A difference of at most half a turn is left alone. -/
theorem formatAngleDelta_eq_self {delta limit : ℚ} (h : |delta| ≤ limit / 2) :
    formatAngleDelta delta limit = delta := if_neg (not_lt.mpr h)

/-- Every result of `pid_speed` from a cleared `PidInfo` is the positional form over the errors
    so far, which is what `pid_angle` returns on the same calls when no difference exceeds half
    a turn. -/
theorem speedCalls_out (kp ki kd : ℚ) (calls : List PidCall) (call : PidCall) :
    (speedCalls { kp := kp, ki := ki, kd := kd } (calls ++ [call])).out =
        kp * call.error + ki * ((calls ++ [call]).map PidCall.error).sum +
          kd * (call.error - (calls.map PidCall.error).getLastD 0) ∧
      ∀ angleLimit : ℚ, (∀ c ∈ calls ++ [call], |c.error| ≤ angleLimit / 2) →
        (angleCalls { kp := kp, ki := ki, kd := kd } angleLimit (calls ++ [call])).out =
          (speedCalls { kp := kp, ki := ki, kd := kd } (calls ++ [call])).out := by
  constructor
  · have h := (@keepsVelocity_speedCalls { kp := kp, ki := ki, kd := kd }
      rfl rfl (calls ++ [call])).out_eq
    rw [h, errorsOf_append, positionalPid, positional_mul_left, ErrorTrace.last_push,
      ErrorTrace.previous_push, ErrorTrace.base_push]
    simp [ErrorTrace.push, ErrorTrace.last, errorsOf]
  · intro angleLimit hlimit
    exact angleCalls_out_eq rfl rfl (fun c hc => formatAngleDelta_eq_self (hlimit c hc))

/-- Two calls of each form, well inside half a turn. -/
theorem speedCalls_out_two :
    (angleCalls { kp := 1, ki := 1, kd := 1 } 8 [⟨0, 1⟩, ⟨0, 2⟩]).out =
      (speedCalls { kp := 1, ki := 1, kd := 1 } [⟨0, 1⟩, ⟨0, 2⟩]).out :=
  (speedCalls_out 1 1 1 [⟨0, 1⟩] ⟨0, 2⟩).2 8 (by decide +kernel)

/-- `pid_target` with a measurement and a command: the new error replaces the last one. -/
def pidTargetCmd (pid : PidInfo) (coeff : PidCoeff) (get set : ℚ) : PidInfo :=
  -- unlike in `pid_speed` and `pid_angle`, no error moves to `error[1]`
  pidTarget
    { pid with feed := get, cmd := set, error := ![set - get, pid.error 1, pid.error 2] } coeff

end Pid

/-- `PidControl`: a controller with its own `PidInfo`. -/
structure PidControl where
  pid : PidInfo := {}
  coeff : PidCoeff := {}
  deriving DecidableEq

namespace PidControl

/-- The constructor with a command. -/
def ofCmd (kp ki kd cmd : ℚ) : PidControl where
  pid := { feed := 0, cmd := cmd }
  coeff := { kp := kp, ki := ki, kd := kd }

/-- `feedback`: the value it returns is the `out` of the result. -/
def feedback (c : PidControl) (value : ℚ) : PidControl :=
  { c with pid := Pid.pidTargetCmd c.pid c.coeff value c.pid.cmd }

/-- Successive measurements fed to a new controller. -/
def feedbacks (kp ki kd cmd : ℚ) (values : List ℚ) : PidControl :=
  values.foldl feedback (ofCmd kp ki kd cmd)

variable {kp ki kd cmd : ℚ}

theorem feedbacks_append (values : List ℚ) (value : ℚ) :
    feedbacks kp ki kd cmd (values ++ [value]) =
      (feedbacks kp ki kd cmd values).feedback value := by
  simp [feedbacks]

/-- What `feedback` keeps: the coefficients, the command, the integral, and an `error[1]` of
    zero. -/
structure Keeps (kp ki kd cmd : ℚ) (values : List ℚ) (c : PidControl) : Prop where
  coeff_eq : c.coeff = { kp := kp, ki := ki, kd := kd }
  cmd_eq : c.pid.cmd = cmd
  iOut_eq : c.pid.iOut = ki * (values.map (cmd - ·)).sum
  error_eq : c.pid.error 1 = 0

theorem Keeps.feedback {values : List ℚ} {c : PidControl} (h : Keeps kp ki kd cmd values c)
    (value : ℚ) : Keeps kp ki kd cmd (values ++ [value]) (c.feedback value) := by
  obtain ⟨hcoeff, hcmd, hi, herr⟩ := h
  refine ⟨hcoeff, hcmd, ?_, herr⟩
  simp [PidControl.feedback, Pid.pidTargetCmd, Pid.pidTarget, hcoeff, hcmd, hi]
  ring

theorem keeps_feedbacks (values : List ℚ) :
    Keeps kp ki kd cmd values (feedbacks kp ki kd cmd values) := by
  induction values using List.reverseRecOn with
  | nil => exact ⟨rfl, rfl, by simp [feedbacks, ofCmd], rfl⟩
  | append_singleton values value ih =>
    rw [feedbacks_append]
    exact ih.feedback value

/-- Every result of `feedback`: its derivative part is that of the error alone. -/
theorem feedbacks_out (values : List ℚ) (value : ℚ) :
    (feedbacks kp ki kd cmd (values ++ [value])).pid.out =
      kp * (cmd - value) + ki * ((values ++ [value]).map (cmd - ·)).sum +
        kd * (cmd - value) := by
  obtain ⟨hcoeff, hcmd, hi, herr⟩ := @keeps_feedbacks kp ki kd cmd values
  rw [feedbacks_append]
  simp [feedback, Pid.pidTargetCmd, Pid.pidTarget, hcoeff, hcmd, hi, herr]
  ring

/-- A result is the positional form exactly when there is no derivative part, or the measurement
    before the last one was at the command, as it counts for the first. -/
theorem feedback_derivative_iff (kp ki kd cmd : ℚ) (values : List ℚ) (value : ℚ) :
    (feedbacks kp ki kd cmd (values ++ [value])).pid.out =
        kp * (cmd - value) + ki * ((values ++ [value]).map (cmd - ·)).sum +
          kd * ((cmd - value) - (values.map (cmd - ·)).getLastD 0) ↔
      kd = 0 ∨ values.getLastD cmd = cmd := by
  have hlast : (values.map (cmd - ·)).getLastD 0 = cmd - values.getLastD cmd := by
    cases values using List.reverseRecOn with
    | nil => simp
    | append_singleton values v => simp
  rw [feedbacks_out, hlast, add_right_inj, ← sub_eq_zero]
  have hdiff : kd * (cmd - value) - kd * (cmd - value - (cmd - values.getLastD cmd)) =
      kd * (cmd - values.getLastD cmd) := by ring
  rw [hdiff, mul_eq_zero, sub_eq_zero, eq_comm (a := cmd)]

/-- Two equal measurements away from the command leave a derivative part. -/
theorem not_feedback_derivative :
    ¬ ∀ (kp ki kd cmd : ℚ) (values : List ℚ) (value : ℚ),
      (feedbacks kp ki kd cmd (values ++ [value])).pid.out =
        kp * (cmd - value) + ki * ((values ++ [value]).map (cmd - ·)).sum +
          kd * ((cmd - value) - (values.map (cmd - ·)).getLastD 0) := by
  intro h
  have hrun : (feedbacks 0 0 1 0 [1, 1]).pid.out = -1 := by decide +kernel
  have hclaim := h 0 0 1 0 [1] 1
  norm_num [hrun] at hclaim

end PidControl

end RmMicroControllers
