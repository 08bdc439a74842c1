import RmMicroControllers.Tool.JointStruct

/-!
# PID controllers

`MathTool` and `Pid` of `pid.hpp`: the velocity form `pidDelta` integrates its own output,
the positional form `pidTarget` keeps a sum of errors. The `tick` argument that every one of
them ignores is left out.
-/

namespace RmMicroControllers

namespace MathTool

/-- `constrain_abs_no_zero`: clamp to `[-limit, limit]`, where a limit of 0 means none. -/
def constrainAbsNoZero (value limit : ℚ) : ℚ :=
  if limit ≠ 0 then
    if value < limit then if value < -limit then -limit else value else limit
  else value

/-- `format_angle_delta`. -/
def formatAngleDelta (delta limit : ℚ) : ℚ :=
  if |delta| > limit / 2 then
    if delta > 0 then delta - limit else delta + limit
  else delta

@[simp]
theorem constrainAbsNoZero_zero (value : ℚ) : constrainAbsNoZero value 0 = value := by
  simp [constrainAbsNoZero]

/-- Clamping to an interval around zero gives zero for zero only. -/
theorem constrainAbsNoZero_eq_zero {value limit : ℚ} (h : 0 ≤ limit) :
    constrainAbsNoZero value limit = 0 ↔ value = 0 := by
  rw [constrainAbsNoZero]
  split
  · next hne =>
    have hpos : 0 < limit := lt_of_le_of_ne h (Ne.symm hne)
    split
    · split
      · next hlow =>
        constructor
        · intro hz; linarith
        · intro hz; linarith
      · rfl
    · next hhigh =>
      constructor
      · intro hz; exact absurd hz hne
      · intro hz; exact absurd (hz ▸ hpos) hhigh
  · rfl

end MathTool

namespace Pid

open MathTool

/-- `pid_delta` on errors already stored: the output moves by the three increments. -/
def pidDelta (pid : PidInfo) (coeff : PidCoeff) : PidInfo :=
  let pOut := coeff.kp * (pid.error 0 - pid.error 1)
  let iOut := constrainAbsNoZero (coeff.ki * pid.error 0) coeff.kiLimit
  let dOut := coeff.kd * (pid.error 0 - 2 * pid.error 1 + pid.error 2)
  { pid with
    pOut := pOut
    iOut := iOut
    dOut := dOut
    out := constrainAbsNoZero (pid.out + pOut + iOut + dOut) coeff.kLimit }

/-- `pid_target` on errors already stored. -/
def pidTarget (pid : PidInfo) (coeff : PidCoeff) : PidInfo :=
  let pOut := coeff.kp * pid.error 0
  let iOut := constrainAbsNoZero (pid.iOut + coeff.ki * pid.error 0) coeff.kiLimit
  let dOut := coeff.kd * (pid.error 0 - pid.error 1)
  { pid with
    pOut := pOut
    iOut := iOut
    dOut := dOut
    out := constrainAbsNoZero (pOut + iOut + dOut) coeff.kLimit }

/-- `pid_speed`: shift the errors, store the new one and take a velocity step. The value it
    returns is the `out` of the result. -/
def pidSpeed (pid : PidInfo) (coeff : PidCoeff) (get set : ℚ) : PidInfo :=
  pidDelta
    { pid with feed := get, cmd := set, error := ![set - get, pid.error 0, pid.error 1] } coeff

/-- `pid_angle`: the error is the angle difference brought back by one turn. -/
def pidAngle (pid : PidInfo) (coeff : PidCoeff) (get set angleLimit : ℚ) : PidInfo :=
  pidTarget
    { pid with
      feed := get
      cmd := set
      error := ![formatAngleDelta (set - get) angleLimit, pid.error 0, pid.error 2] } coeff

@[simp]
theorem pidSpeed_cmd (pid : PidInfo) (coeff : PidCoeff) (get set : ℚ) :
    (pidSpeed pid coeff get set).cmd = set := rfl

@[simp]
theorem pidSpeed_error (pid : PidInfo) (coeff : PidCoeff) (get set : ℚ) :
    (pidSpeed pid coeff get set).error = ![set - get, pid.error 0, pid.error 1] := rfl

@[simp]
theorem pidSpeed_iOut (pid : PidInfo) (coeff : PidCoeff) (get set : ℚ) :
    (pidSpeed pid coeff get set).iOut =
      constrainAbsNoZero (coeff.ki * (set - get)) coeff.kiLimit := rfl

/-- Without an output limit the velocity form adds exactly its three increments. -/
theorem pidSpeed_out {coeff : PidCoeff} (h : coeff.kLimit = 0) (pid : PidInfo) (get set : ℚ) :
    (pidSpeed pid coeff get set).out =
      pid.out + coeff.kp * ((set - get) - pid.error 0) +
        constrainAbsNoZero (coeff.ki * (set - get)) coeff.kiLimit +
        coeff.kd * ((set - get) - 2 * pid.error 0 + pid.error 1) := by
  simp [pidSpeed, pidDelta, h]

/-- Without a limit the positional form integrates every error. -/
theorem pidAngle_iOut {coeff : PidCoeff} (h : coeff.kiLimit = 0) (pid : PidInfo)
    (get set angleLimit : ℚ) :
    (pidAngle pid coeff get set angleLimit).iOut =
      pid.iOut + coeff.ki * formatAngleDelta (set - get) angleLimit := by
  simp [pidAngle, pidTarget, h]

/-- Without limits the positional form is the sum of its three parts. -/
theorem pidAngle_out {coeff : PidCoeff} (hi : coeff.kiLimit = 0) (h : coeff.kLimit = 0)
    (pid : PidInfo) (get set angleLimit : ℚ) :
    (pidAngle pid coeff get set angleLimit).out =
      coeff.kp * formatAngleDelta (set - get) angleLimit +
        (pid.iOut + coeff.ki * formatAngleDelta (set - get) angleLimit) +
        coeff.kd * (formatAngleDelta (set - get) angleLimit - pid.error 0) := by
  simp [pidAngle, pidTarget, hi, h]

end Pid

namespace JointData

/-- `PartControl::pid_speed`: the speed loop of a joint, with `pid_calc[0]`. -/
def pidSpeed (j : JointData) (get set : ℚ) : JointData :=
  { j with
    pidCalc := Function.update j.pidCalc 0 (Pid.pidSpeed (j.pidCalc 0) (j.coeff.pid 0) get set) }

/-- `PartControl::pid_angle`: the angle loop of a joint, with `pid_calc[1]` and
    `angle_limit[1]` as the full turn. -/
def pidAngle (j : JointData) (get set : ℚ) : JointData :=
  { j with
    pidCalc := Function.update j.pidCalc 1
      (Pid.pidAngle (j.pidCalc 1) (j.coeff.pid 1) get set (j.coeff.angleLimit 1).toInt) }

/-- `pid_calc[0].i_out = pid_calc[0].out = 0`, and the same for `pid_calc[1]`. -/
def resetPid (j : JointData) : JointData :=
  { j with pidCalc := fun k => { j.pidCalc k with iOut := 0, out := 0 } }

/-- `target.current = pid_speed(0, joint, get, set)`: the output is narrowed to an `int16_t`. -/
def commandCurrent (conv : Conversion) (j : JointData) (get set : ℚ) : JointData :=
  let j := j.pidSpeed get set
  j.setTargetCurrent (conv.toInt16 (j.pidCalc 0).out)

/-- `target.speed = pid_angle(0, joint, get, set)`, narrowed in the same way. -/
def commandSpeed (conv : Conversion) (j : JointData) (get set : ℚ) : JointData :=
  let j := j.pidAngle get set
  j.setTargetSpeed (conv.toInt16 (j.pidCalc 1).out)

section Lemmas

variable (conv : Conversion) (j : JointData) (get set : ℚ) (x : Int16)

@[simp] theorem setTargetAngle_pidCalc : (j.setTargetAngle x).pidCalc = j.pidCalc := rfl
@[simp] theorem setTargetAngle_coeff : (j.setTargetAngle x).coeff = j.coeff := rfl
@[simp] theorem setTargetAngle_feedback : (j.setTargetAngle x).feedback = j.feedback := rfl
@[simp] theorem setTargetAngle_angle : (j.setTargetAngle x).target.angle = x := rfl
@[simp] theorem setTargetSpeed_pidCalc : (j.setTargetSpeed x).pidCalc = j.pidCalc := rfl
@[simp] theorem setTargetSpeed_coeff : (j.setTargetSpeed x).coeff = j.coeff := rfl
@[simp] theorem setTargetSpeed_feedback : (j.setTargetSpeed x).feedback = j.feedback := rfl
@[simp] theorem setTargetSpeed_speed : (j.setTargetSpeed x).target.speed = x := rfl
@[simp] theorem setTargetCurrent_pidCalc : (j.setTargetCurrent x).pidCalc = j.pidCalc := rfl
@[simp] theorem setTargetCurrent_coeff : (j.setTargetCurrent x).coeff = j.coeff := rfl
@[simp] theorem setTargetCurrent_current : (j.setTargetCurrent x).target.current = x := rfl
@[simp] theorem setTargetCurrent_speed :
    (j.setTargetCurrent x).target.speed = j.target.speed := rfl
@[simp] theorem setTargetCurrent_angle :
    (j.setTargetCurrent x).target.angle = j.target.angle := rfl

@[simp] theorem resetPid_coeff : j.resetPid.coeff = j.coeff := rfl
@[simp] theorem resetPid_feedback : j.resetPid.feedback = j.feedback := rfl
@[simp] theorem resetPid_target : j.resetPid.target = j.target := rfl
@[simp] theorem resetPid_error (k : Fin 2) :
    (j.resetPid.pidCalc k).error = (j.pidCalc k).error := rfl
@[simp] theorem resetPid_out (k : Fin 2) : (j.resetPid.pidCalc k).out = 0 := rfl
@[simp] theorem resetPid_iOut (k : Fin 2) : (j.resetPid.pidCalc k).iOut = 0 := rfl
@[simp] theorem getMeanSpeed_resetPid : j.resetPid.getMeanSpeed = j.getMeanSpeed := rfl

@[simp] theorem commandCurrent_coeff : (j.commandCurrent conv get set).coeff = j.coeff := rfl
@[simp] theorem commandCurrent_feedback :
    (j.commandCurrent conv get set).feedback = j.feedback := rfl

@[simp]
theorem commandCurrent_pidCalc_zero :
    (j.commandCurrent conv get set).pidCalc 0 =
      Pid.pidSpeed (j.pidCalc 0) (j.coeff.pid 0) get set := by
  simp [commandCurrent, pidSpeed]

@[simp]
theorem commandCurrent_pidCalc_one :
    (j.commandCurrent conv get set).pidCalc 1 = j.pidCalc 1 := by
  simp [commandCurrent, pidSpeed]

@[simp]
theorem commandCurrent_current :
    (j.commandCurrent conv get set).target.current =
      conv.toInt16 (Pid.pidSpeed (j.pidCalc 0) (j.coeff.pid 0) get set).out := by
  simp [commandCurrent, pidSpeed]

@[simp] theorem commandCurrent_speed :
    (j.commandCurrent conv get set).target.speed = j.target.speed := rfl
@[simp] theorem commandCurrent_angle :
    (j.commandCurrent conv get set).target.angle = j.target.angle := rfl

@[simp] theorem commandSpeed_feedback :
    (j.commandSpeed conv get set).feedback = j.feedback := rfl
@[simp] theorem commandSpeed_coeff : (j.commandSpeed conv get set).coeff = j.coeff := rfl
@[simp] theorem commandSpeed_angle :
    (j.commandSpeed conv get set).target.angle = j.target.angle := rfl
@[simp] theorem getMeanSpeed_commandSpeed :
    (j.commandSpeed conv get set).getMeanSpeed = j.getMeanSpeed := rfl

@[simp]
theorem commandSpeed_pidCalc_zero :
    (j.commandSpeed conv get set).pidCalc 0 = j.pidCalc 0 := by
  simp [commandSpeed, pidAngle]

@[simp]
theorem commandSpeed_pidCalc_one :
    (j.commandSpeed conv get set).pidCalc 1 =
      Pid.pidAngle (j.pidCalc 1) (j.coeff.pid 1) get set (j.coeff.angleLimit 1).toInt := by
  simp [commandSpeed, pidAngle]

@[simp]
theorem commandSpeed_speed :
    (j.commandSpeed conv get set).target.speed =
      conv.toInt16
        (Pid.pidAngle (j.pidCalc 1) (j.coeff.pid 1) get set (j.coeff.angleLimit 1).toInt).out := by
  simp [commandSpeed, pidAngle]

end Lemmas

end JointData

end RmMicroControllers
