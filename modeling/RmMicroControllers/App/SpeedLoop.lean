import RmMicroControllers.App.MotorControl
import RmMicroControllers.Library.VelocityForm

/-!
# The speed loops of the robot

Every joint has a speed loop in velocity form. `speedSetPoint` is its set-point in a cycle, and
`speedLoop_law` what the cycle does to it, for all controllers alike. A history of the errors
runs beside the robot, so that the accumulator of every loop is known from what was measured
and commanded.

## Main results

- `speedLoop_law` — one cycle of the loop of one joint
- `accumulates_of_run` — the accumulators against the history
-/

namespace RmMicroControllers

open Transition DeviceMonitor PartControl VelocityForm

namespace Robot

/-- Whether a cycle of a controller clears the loops of its joints first. -/
def resets (r : Robot) : Controller → Bool
  | .chassis => false
  | .gimbal => r.gimbal.modeChanged r.storage
  | .bullet => r.bullet.modeChanged r.storage

/-- A joint when its loops start in a cycle. -/
def cleared (r : Robot) (q : JointPtr Controller) : JointData :=
  if r.resets q.1 then (r.storage.joint q).resetPid else r.storage.joint q

/-- Whether a cycle runs the loops of a joint: the gimbal leaves out those off-line. -/
def runsLoop (r : Robot) (q : JointPtr Controller) : Bool :=
  match q.1 with
  | .gimbal => isOnline r.storage q
  | _ => true

/-- The angle loop of a joint of the gimbal in a cycle. -/
def angleLoop (conv : Conversion) (r : Robot) (q : JointPtr Controller) : PidInfo :=
  GimbalControl.angleLoop ((r.cleared q).setTargetAngle (r.gimbal.targetAngle conv r.storage q.2))

/-- The set-point of the speed loop of a joint in a cycle. -/
def speedSetPoint (conv : Conversion) (r : Robot) (q : JointPtr Controller) : ℚ :=
  match q.1 with
  | .chassis => (getCommandDefault conv r.storage 4 2700 0 0).toInt
  | .gimbal => (conv.toInt16 (angleLoop conv r q).out).toInt
  | .bullet => ExtraControl.commandedSpeed (ExtraControl.commandedMode r.storage) q.2

/-- The speed loop of a joint in a cycle. -/
def speedLoop (conv : Conversion) (r : Robot) (q : JointPtr Controller) : PidInfo :=
  let j := r.cleared q
  Pid.pidSpeed (j.pidCalc 0) (j.coeff.pid 0) j.getMeanSpeed (speedSetPoint conv r q)

/-- What a cycle stores as the current, given the output of the speed loop. -/
def storedCurrent (conv : Conversion) (r : Robot) (q : JointPtr Controller) (out : ℚ) : Int16 :=
  match q.1 with
  | .gimbal => constrainArr (conv.toInt16 out) (r.storage.joint q).coeff.currentLimit
  | _ => conv.toInt16 out

theorem cleared_coeff (r : Robot) (q : JointPtr Controller) :
    (r.cleared q).coeff = (r.storage.joint q).coeff := by
  rw [cleared]
  split <;> rfl

theorem cleared_feedback (r : Robot) (q : JointPtr Controller) :
    (r.cleared q).feedback = (r.storage.joint q).feedback := by
  rw [cleared]
  split <;> rfl

theorem cleared_getMeanSpeed (r : Robot) (q : JointPtr Controller) :
    (r.cleared q).getMeanSpeed = (r.storage.joint q).getMeanSpeed := by
  rw [cleared]
  split <;> rfl

theorem cleared_error (r : Robot) (q : JointPtr Controller) (k : Fin 2) :
    ((r.cleared q).pidCalc k).error = ((r.storage.joint q).pidCalc k).error := by
  rw [cleared]
  split <;> rfl

/-- The speed loop with the coefficients of the motor. -/
theorem speedLoop_eq {r : Robot} (hr : Ready r) (conv : Conversion) {q : JointPtr Controller}
    (hq : q ∈ motors) :
    speedLoop conv r q = Pid.pidSpeed ((r.cleared q).pidCalc 0) ((motorCoeff q).pid 0)
      (r.storage.joint q).getMeanSpeed (speedSetPoint conv r q) := by
  rw [← hr.installed.coeff q hq, ← r.cleared_coeff, ← r.cleared_getMeanSpeed]
  rfl

/-- The angle loop with the coefficients of the motor. -/
theorem angleLoop_eq {r : Robot} (hr : Ready r) (conv : Conversion) {q : JointPtr Controller}
    (hq : q ∈ motors) :
    angleLoop conv r q = Pid.pidAngle ((r.cleared q).pidCalc 1) ((motorCoeff q).pid 1)
      ((r.storage.joint q).feedback 0).angle.toInt
      (r.gimbal.targetAngle conv r.storage q.2).toInt ((motorCoeff q).angleLimit 1).toInt := by
  rw [← hr.installed.coeff q hq, ← r.cleared_coeff, ← r.cleared_feedback]
  rfl

section Law

variable {r t : Robot} {conv : Conversion}

/-- A joint of the gimbal after a cycle that finds it on-line. -/
theorem jointLaw_gimbal {i : Fin 6} (hon : isOnline r.storage (.gimbal, i) = true) :
    r.jointLaw conv .gimbal i (r.storage.joint (.gimbal, i)) =
      GimbalControl.holdAngle conv ((r.cleared (.gimbal, i)).setTargetAngle
        (r.gimbal.targetAngle conv r.storage i)) := by
  apply (if_pos hon).trans
  rw [cleared, resets]
  cases r.gimbal.modeChanged r.storage <;> rfl

/-- A joint of the bullet controller after a cycle. -/
theorem jointLaw_bullet (i : Fin 6) :
    r.jointLaw conv .bullet i (r.storage.joint (.bullet, i)) =
      (r.cleared (.bullet, i)).commandCurrent conv (r.cleared (.bullet, i)).getMeanSpeed
        (speedSetPoint conv r (.bullet, i)) := by
  rw [jointLaw, ExtraControl.jointLaw, cleared, resets]
  cases r.bullet.modeChanged r.storage <;> rfl

/-- The joint of the chassis after a cycle. -/
theorem jointLaw_chassis (i : Fin 6) :
    r.jointLaw conv .chassis i (r.storage.joint (.chassis, i)) =
      ((r.cleared (.chassis, i)).setTargetSpeed
        (getCommandDefault conv r.storage 4 2700 0 0)).commandCurrent conv
        (r.cleared (.chassis, i)).getMeanSpeed (speedSetPoint conv r (.chassis, i)) := rfl

theorem joint_update (hr : Ready r) {q : JointPtr Controller} (hq : q ∈ motors)
    (hstep : r.update conv q.1 = .ok t) :
    t.storage.joint q = r.jointLaw conv q.1 q.2 (r.storage.joint q) :=
  (update_eq_ok hr hstep).2.joint_self hq

/-- The speed loop and the current of one joint after a cycle that runs its loops. -/
theorem speedLoop_law (hr : Ready r) {q : JointPtr Controller} (hq : q ∈ motors)
    (hstep : r.update conv q.1 = .ok t) (hruns : r.runsLoop q = true) :
    (t.storage.joint q).pidCalc 0 = speedLoop conv r q ∧
      (t.storage.joint q).target.current = r.storedCurrent conv q (speedLoop conv r q).out := by
  rw [joint_update hr hq hstep]
  obtain ⟨p, i⟩ := q
  cases p with
  | chassis =>
    rw [jointLaw_chassis, JointData.commandCurrent_pidCalc_zero, JointData.commandCurrent_current]
    exact ⟨rfl, rfl⟩
  | gimbal =>
    rw [jointLaw_gimbal hruns, GimbalControl.holdAngle_pidCalc_zero,
      GimbalControl.holdAngle_current, JointData.setTargetAngle_coeff, r.cleared_coeff]
    exact ⟨rfl, rfl⟩
  | bullet =>
    rw [jointLaw_bullet, JointData.commandCurrent_pidCalc_zero, JointData.commandCurrent_current]
    exact ⟨rfl, rfl⟩

/-- A cycle that leaves out a joint clears its loops and its current. -/
theorem speedLoop_away (hr : Ready r) {q : JointPtr Controller} (hq : q ∈ motors)
    (hstep : r.update conv q.1 = .ok t) (hruns : r.runsLoop q = false) :
    t.storage.joint q = ((r.storage.joint q).setTargetAngle
      (r.gimbal.targetAngle conv r.storage q.2)).resetPid.setTargetCurrent 0 := by
  rw [joint_update hr hq hstep]
  obtain ⟨p, i⟩ := q
  cases p with
  | chassis => cases hruns
  | gimbal => exact if_neg (Bool.not_eq_true _ ▸ hruns)
  | bullet => cases hruns

/-- The angle loop of a joint of the gimbal after a cycle that finds it on-line. -/
theorem angleLoop_law (hr : Ready r) {i : Fin 6} (hq : (Controller.gimbal, i) ∈ motors)
    (hstep : r.update conv .gimbal = .ok t) (hruns : r.runsLoop (.gimbal, i) = true) :
    (t.storage.joint (.gimbal, i)).pidCalc 1 = angleLoop conv r (.gimbal, i) := by
  rw [joint_update hr hq hstep, jointLaw_gimbal hruns]
  exact GimbalControl.holdAngle_pidCalc_one _ _

/-- Without an angle loop a cycle leaves `pid_calc[1]` as it was cleared. -/
theorem pidCalc_one_law (hr : Ready r) {q : JointPtr Controller} (hq : q ∈ motors)
    (hstep : r.update conv q.1 = .ok t) (hp : q.1 ≠ .gimbal) :
    (t.storage.joint q).pidCalc 1 = (r.cleared q).pidCalc 1 := by
  rw [joint_update hr hq hstep]
  obtain ⟨p, i⟩ := q
  cases p with
  | chassis =>
    rw [jointLaw_chassis, JointData.commandCurrent_pidCalc_one]
    rfl
  | gimbal => exact absurd rfl hp
  | bullet => rw [jointLaw_bullet, JointData.commandCurrent_pidCalc_one]

end Law

/-! ### The history of the loops -/

/-- What the loops of one joint have been fed since they were last cleared: the errors of the
    speed loop, and those of the angle loop. -/
structure LoopTrace where
  speed : ErrorTrace ℚ := ⟨0, []⟩
  angle : List ℚ := []

/-- The error of the speed loop in a cycle. -/
def speedError (conv : Conversion) (r : Robot) (q : JointPtr Controller) : ℚ :=
  speedSetPoint conv r q - (r.storage.joint q).getMeanSpeed

/-- The error of the angle loop in a cycle. -/
def angleError (conv : Conversion) (r : Robot) (q : JointPtr Controller) : ℚ :=
  MathTool.formatAngleDelta ((r.gimbal.targetAngle conv r.storage q.2).toInt -
    ((r.storage.joint q).feedback 0).angle.toInt) ((motorCoeff q).angleLimit 1).toInt

/-- The trace after a cycle. -/
def cycleTrace (conv : Conversion) (r : Robot) (q : JointPtr Controller) (g : LoopTrace) :
    LoopTrace :=
  let g := if r.resets q.1 || !r.runsLoop q then ⟨g.speed.restart, []⟩ else g
  if r.runsLoop q then ⟨g.speed.push (speedError conv r q), g.angle ++ [angleError conv r q]⟩
  else g

/-- The traces of all joints. -/
abbrev LoopHistory := JointPtr Controller → LoopTrace

/-- What a call does to the traces. -/
def record (conv : Conversion) (r : Robot) (g : LoopHistory) (e : RobotEvent) (_ : Robot) :
    LoopHistory :=
  match e with
  | .update p => fun q => if q.1 = p then cycleTrace conv r q (g q) else g q
  | _ => g

/-- The runs of the robot with their histories. -/
abbrev TracedRuns (conv : Conversion) (es : List RobotEvent) (x : Robot × LoopHistory) : Prop :=
  Run (Ghost (record conv) (ofExcept (step conv))) (started, fun _ => {}) es x

/-- Every run has a history. -/
theorem exists_traced {conv : Conversion} {es : List RobotEvent} {r : Robot}
    (h : Runs conv es r) : ∃ g, TracedRuns conv es (r, g) :=
  h.exists_ghost (record conv) _

theorem runs_of_traced {conv : Conversion} {es : List RobotEvent} {r : Robot} {g : LoopHistory}
    (h : TracedRuns conv es (r, g)) : Runs conv es r := by
  have hrun := h.forget_ghost
  dsimp only at hrun
  exact hrun

/-- What an error adds to the integral of the speed loop. -/
def integral (q : JointPtr Controller) (e : ℚ) : ℚ :=
  MathTool.constrainAbsNoZero (((motorCoeff q).pid 0).ki * e) ((motorCoeff q).pid 0).kiLimit

/-- The output of the speed loop, from what it has been fed. -/
def speedOutput (q : JointPtr Controller) (g : LoopTrace) : ℚ :=
  positional ((motorCoeff q).pid 0).kp (integral q) g.speed

/-- The output of the angle loop, from what it has been fed. -/
def angleOutput (q : JointPtr Controller) (g : LoopTrace) : ℚ :=
  ((motorCoeff q).pid 1).kp * g.angle.getLastD 0 +
    (g.angle.map (((motorCoeff q).pid 1).ki * ·)).sum

/-- The loops of a joint against its trace. -/
structure Traced (j : JointData) (q : JointPtr Controller) (g : LoopTrace) : Prop where
  speed : Accumulates ((motorCoeff q).pid 0).kp (integral q) g.speed (j.pidCalc 0).out
    ((j.pidCalc 0).error 0)
  angle : q.1 = .gimbal →
    (j.pidCalc 1).iOut = (g.angle.map (((motorCoeff q).pid 1).ki * ·)).sum

theorem Traced.reset {j : JointData} {q : JointPtr Controller} {g : LoopTrace}
    (h : Traced j q g) : Traced j.resetPid q ⟨g.speed.restart, []⟩ :=
  ⟨h.speed.restart, fun _ => rfl⟩

/-- The traces before a cycle runs the loops. -/
theorem Traced.cleared {r : Robot} {q : JointPtr Controller} {g : LoopTrace}
    (h : Traced (r.storage.joint q) q g) :
    Traced (r.cleared q) q (if r.resets q.1 then ⟨g.speed.restart, []⟩ else g) := by
  rw [Robot.cleared]
  split
  · exact h.reset
  · exact h

/-- The angle loops have no derivative part and no limits. -/
theorem motorCoeff_angle : ∀ q ∈ motors, q.1 = .gimbal → ((motorCoeff q).pid 1).kd = 0 ∧
    ((motorCoeff q).pid 1).kLimit = 0 ∧ ((motorCoeff q).pid 1).kiLimit = 0 := by
  decide +kernel

section Step

variable {r t : Robot} {conv : Conversion} {q : JointPtr Controller} {g : LoopTrace}

/-- One cycle of the loops of one joint. -/
theorem traced_cycle (hr : Ready r) (hq : q ∈ motors) (hstep : r.update conv q.1 = .ok t)
    (h : Traced (r.storage.joint q) q g) :
    Traced (t.storage.joint q) q (cycleTrace conv r q g) := by
  cases hruns : r.runsLoop q with
  | false =>
    -- the loops do not run: both integrals start anew
    have htrace : cycleTrace conv r q g = ⟨g.speed.restart, []⟩ := by
      simp [cycleTrace, hruns]
    rw [htrace, speedLoop_away hr hq hstep hruns]
    exact ⟨h.speed.restart, fun _ => rfl⟩
  | true =>
    -- one more error on each loop, after a reset if there was one
    obtain ⟨-, hkd, hk, -⟩ := motorCoeff_speed q hq
    have hclear := h.cleared
    have hloop := (speedLoop_law hr hq hstep hruns).1
    rw [speedLoop_eq hr conv hq] at hloop
    have htrace : cycleTrace conv r q g =
        ⟨(if r.resets q.1 then ⟨g.speed.restart, []⟩ else g : LoopTrace).speed.push
            (speedError conv r q),
          (if r.resets q.1 then ⟨g.speed.restart, []⟩ else g : LoopTrace).angle ++
            [angleError conv r q]⟩ := by
      simp [cycleTrace, hruns]
    rw [htrace]
    constructor
    · have hout := Pid.pidSpeed_out hk ((r.cleared q).pidCalc 0)
        (r.storage.joint q).getMeanSpeed (speedSetPoint conv r q)
      rw [hloop, hout, hkd, zero_mul, add_zero]
      exact hclear.speed.push _
    · intro hp
      obtain ⟨-, -, hlim⟩ := motorCoeff_angle q hq hp
      obtain ⟨p, i⟩ := q
      obtain rfl : p = .gimbal := hp
      rw [angleLoop_law hr hq hstep hruns, angleLoop_eq hr conv hq, Pid.pidAngle_iOut hlim,
        hclear.angle rfl, List.map_append, List.sum_append]
      simp [angleError]

/-- The history after a call that is not the `update` of the joint's controller. -/
theorem traced_other {e : RobotEvent} (hr : Ready r) (hstep : r.step conv e = .ok t)
    (he : e ≠ .update q.1) (h : Traced (r.storage.joint q) q g) :
    Traced (t.storage.joint q) q g := by
  rcases step_eq_ok hstep with ⟨p, rfl, hupd⟩ | ⟨e', he', hs, -⟩
  · have hp : q.1 ≠ p := fun hp => he (by rw [hp])
    rw [(update_eq_ok hr hupd).2.joint_other fun hself => hp hself.1]
    exact h
  · obtain ⟨f, hf⟩ := (storageEvent_frame he' hs).joint q
    rw [hf]
    exact ⟨h.speed, h.angle⟩

/-- One call against the history of all joints. -/
theorem traced_step {g : LoopHistory} {e : RobotEvent} (hr : Ready r)
    (hstep : r.step conv e = .ok t) (h : ∀ q ∈ motors, Traced (r.storage.joint q) q (g q)) :
    ∀ q ∈ motors, Traced (t.storage.joint q) q (record conv r g e t q) := by
  intro q hq
  by_cases he : e = .update q.1
  · subst he
    have hrecord : record conv r g (.update q.1) t q = cycleTrace conv r q (g q) := if_pos rfl
    rw [hrecord]
    exact traced_cycle hr hq hstep (h q hq)
  · have hrecord : record conv r g e t q = g q := by
      unfold record
      split
      · next p => exact if_neg fun hp => he (by rw [hp])
      · rfl
    rw [hrecord]
    exact traced_other hr hstep he (h q hq)

end Step

/-- Before the first cycle the history is empty. -/
theorem traced_started (q : JointPtr Controller) : Traced (started.storage.joint q) q {} := by
  have hfresh := (fresh_started q).1
  constructor
  · rw [hfresh 0]
    exact .initial rfl (by simp) (by simp)
  · intro _
    rw [hfresh 1]
    simp

/-- In every run the accumulators are those of the history. -/
theorem traced_of_run {conv : Conversion} {es : List RobotEvent} {x : Robot × LoopHistory}
    (h : TracedRuns conv es x) :
    Ready x.1 ∧ ∀ q ∈ motors, Traced (x.1.storage.joint q) q (x.2 q) := by
  refine h.invariant
    (I := fun x => Ready x.1 ∧ ∀ q ∈ motors, Traced (x.1.storage.joint q) q (x.2 q)) ?_ ?_
  · rintro x e y ⟨hr, htraced⟩ ⟨hstep, hg⟩
    exact ⟨ready_step hr hstep, hg ▸ traced_step hr hstep htraced⟩
  · dsimp only
    exact ⟨ready_started, fun q _ => traced_started q⟩

section Output

variable {r t : Robot} {conv : Conversion} {es : List RobotEvent} {g : LoopHistory}
  {q : JointPtr Controller}

/-- The output of a speed loop after a cycle, from what it has been fed. -/
theorem speedOutput_eq (h : TracedRuns conv es (r, g)) (hq : q ∈ motors)
    (hstep : r.update conv q.1 = .ok t) :
    ((t.storage.joint q).pidCalc 0).out = speedOutput q (cycleTrace conv r q (g q)) := by
  obtain ⟨hr, htraced⟩ := traced_of_run h
  exact (traced_cycle hr hq hstep (htraced q hq)).speed.out_eq

/-- The output of an angle loop after a cycle that runs it, from what it has been fed. -/
theorem angleOutput_eq (h : TracedRuns conv es (r, g)) {i : Fin 6}
    (hq : (Controller.gimbal, i) ∈ motors) (hstep : r.update conv .gimbal = .ok t)
    (hruns : r.runsLoop (.gimbal, i) = true) :
    ((t.storage.joint (.gimbal, i)).pidCalc 1).out =
      angleOutput (.gimbal, i) (cycleTrace conv r (.gimbal, i) (g (.gimbal, i))) := by
  obtain ⟨hr, htraced⟩ := traced_of_run h
  obtain ⟨hkd, hk, hlim⟩ := motorCoeff_angle _ hq rfl
  have hiOut := (traced_cycle hr hq hstep (htraced _ hq)).angle rfl
  have hlast : (cycleTrace conv r (.gimbal, i) (g (.gimbal, i))).angle.getLastD 0 =
      angleError conv r (.gimbal, i) := by
    simp [cycleTrace, hruns]
  rw [angleLoop_law hr hq hstep hruns, angleLoop_eq hr conv hq] at hiOut ⊢
  rw [Pid.pidAngle_iOut hlim] at hiOut
  rw [Pid.pidAngle_out hlim hk, hkd, zero_mul, add_zero, hiOut, angleOutput, hlast]
  rfl

end Output

end Robot

end RmMicroControllers
