import RmMicroControllers.App.SpeedLoop

/-!
# Losing the remote control, or a motor

When the remote control is off-line, a controller should fall back to its neutral set-point,
whatever the last frame was; while a motor is off-line, its current and its accumulators should
be zero. `GimbalControl` does both. `ExtraControl` reads the switch of the last frame, and it
and `ChassisControl` run their loops without asking for the motor.

## Main results

- `neutral_iff` — when all controllers are neutral without the remote control
- `parked_iff` — when a cycle leaves the motors that are away at rest
-/

namespace RmMicroControllers

open Transition DeviceMonitor PartControl

namespace Robot

/-! ### Without the remote control -/

/-- The next cycle of every controller uses its neutral set-point. -/
structure Neutral (conv : Conversion) (r : Robot) : Prop where
  chassis : ∀ t, r.update conv .chassis = .ok t →
    (t.storage.joint (.chassis, 0)).target.speed = 0
  gimbal : ∀ t, r.update conv .gimbal = .ok t →
    ∀ i : Fin 3, (Controller.gimbal, i.castLE (by decide)) ∈ motors →
      (t.storage.joint (.gimbal, i.castLE (by decide))).target.angle =
        r.gimbal.angleCalibration i GimbalControl.kOriginValue
  bullet : ∀ t, r.update conv .bullet = .ok t →
    t.bullet.mode = .off ∧
      ∀ i : Fin 6, (Controller.bullet, i) ∈ motors →
        ((t.storage.joint (.bullet, i)).pidCalc 0).cmd = 0

theorem neutral_chassis {r t : Robot} (hr : Ready r)
    (hoff : r.storage.deviceDbus.online = false) {conv : Conversion}
    (hstep : r.update conv .chassis = .ok t) :
    (t.storage.joint (.chassis, 0)).target.speed = 0 := by
  rw [joint_update hr (q := (.chassis, 0)) (by decide) hstep, jointLaw_chassis,
    JointData.commandCurrent_speed, JointData.setTargetSpeed_speed]
  exact getCommandDefault_offline hoff conv 4 2700 0 0

theorem neutral_gimbal {r t : Robot} (hr : Ready r)
    (hoff : r.storage.deviceDbus.online = false) {conv : Conversion}
    (hstep : r.update conv .gimbal = .ok t) {i : Fin 3}
    (hi : (Controller.gimbal, i.castLE (by decide)) ∈ motors) :
    (t.storage.joint (.gimbal, i.castLE (by decide))).target.angle =
      r.gimbal.angleCalibration i GimbalControl.kOriginValue := by
  have htarget : r.gimbal.targetAngle conv r.storage (i.castLE (by decide)) =
      r.gimbal.angleCalibration i GimbalControl.kOriginValue := by
    have haxis : ∀ (k : Fin 3) (channel : Fin 5),
        GimbalControl.axisAngle conv r.gimbal r.storage k channel =
          r.gimbal.angleCalibration k GimbalControl.kOriginValue := by
      intro k channel
      rw [GimbalControl.axisAngle, getCommandDefault_offline hoff, Int16.add_zero]
    rw [GimbalControl.targetAngle]
    rw [haxis, haxis]
    fin_cases i
    · rfl
    · rfl
    · exact absurd hi (by decide)
  rw [← htarget]
  cases hruns : r.runsLoop (.gimbal, i.castLE (by decide)) with
  | true =>
    rw [joint_update hr hi hstep, jointLaw_gimbal hruns]
    rfl
  | false =>
    rw [speedLoop_away hr hi hstep hruns]
    rfl

theorem bullet_cmd {r t : Robot} (hr : Ready r) {conv : Conversion}
    (hstep : r.update conv .bullet = .ok t) {i : Fin 6} (hi : (Controller.bullet, i) ∈ motors) :
    ((t.storage.joint (.bullet, i)).pidCalc 0).cmd =
      ExtraControl.commandedSpeed (ExtraControl.commandedMode r.storage) i := by
  rw [(speedLoop_law hr hi hstep rfl).1]
  rfl

/-- In every state of every run without the remote control, all controllers are neutral
    exactly when the right switch of the last frame reads 3, or 0. -/
theorem neutral_iff {conv : Conversion} {es : List RobotEvent} {r : Robot}
    (h : Runs conv es r) (hoff : r.storage.deviceDbus.online = false) :
    Neutral conv r ↔
      r.storage.deviceDbus.data.button 0 = 3 ∨ r.storage.deviceDbus.data.button 0 = 0 := by
  have hr := ready_of_run h
  have hmode : (r.storage.deviceDbus.data.button 0 = 3 ∨
      r.storage.deviceDbus.data.button 0 = 0) ↔ ExtraControl.commandedMode r.storage = .off := by
    rw [ExtraControl.commandedMode]
    split <;> simp_all
  rw [hmode]
  constructor
  · intro hneutral
    obtain ⟨u, hu, -⟩ := r.update_eq hr conv .bullet
    exact (hneutral.bullet _ hu).1
  · intro hmode
    refine ⟨fun t ht => neutral_chassis hr hoff ht, fun t ht i hi => neutral_gimbal hr hoff ht hi,
      fun t ht => ⟨?_, fun i hi => ?_⟩⟩
    · rw [(update_eq_ok hr ht).1]
      exact hmode
    · rw [bullet_cmd hr ht hi, hmode]
      rfl

/-- The remote control is received once and then lost. -/
def remoteLost : List RobotEvent :=
  [.dbusRx centredFrame, .updateToController] ++ List.replicate 31 .tick ++ [.updateToController]

theorem runs_remoteLost : ∃ r, Runs .lowBits remoteLost r ∧
    r.storage.deviceDbus.online = false ∧ r.storage.deviceDbus.data.button 0 = 1 := by
  obtain ⟨r, hrun, hend⟩ := Run.of_check (fun _ _ => True) (Robot.step .lowBits) started
    remoteLost (fun r => (r.storage.deviceDbus.online, r.storage.deviceDbus.data.button 0))
    (x := (false, 1)) (by decide +kernel)
  exact ⟨r, hrun.forget_guard, congrArg Prod.fst hend, congrArg Prod.snd hend⟩

/-- The bullet motors are still told to turn. -/
theorem remoteLost_not_neutral : ∃ r, Runs .lowBits remoteLost r ∧
    r.storage.deviceDbus.online = false ∧ ¬ Neutral .lowBits r := by
  obtain ⟨r, hrun, hoff, hbutton⟩ := runs_remoteLost
  refine ⟨r, hrun, hoff, fun h => ?_⟩
  obtain ⟨t, ht, -⟩ := r.update_eq (ready_of_run hrun) .lowBits .bullet
  have hcmd := (h.bullet _ ht).2 0 (by decide)
  have hmode : ExtraControl.commandedMode r.storage = .on := by
    rw [ExtraControl.commandedMode]
    rw [hbutton]
    decide
  rw [bullet_cmd (ready_of_run hrun) ht (by decide), hmode] at hcmd
  exact ExtraControl.commandedSpeed_on (by decide) hcmd

/-- The law of the neutral set-points at that run. -/
theorem remoteLost_neutral : ∃ r, Runs .lowBits remoteLost r ∧
    (Neutral .lowBits r ↔
      r.storage.deviceDbus.data.button 0 = 3 ∨ r.storage.deviceDbus.data.button 0 = 0) := by
  obtain ⟨r, hrun, hoff, -⟩ := runs_remoteLost
  exact ⟨r, hrun, neutral_iff hrun hoff⟩

/-! ### Without a motor -/

/-- After a cycle from `r` to `t` of controller `p`, every joint that is off-line has no current
    and no accumulator. -/
def Parked (r t : Robot) (p : Controller) : Prop :=
  ∀ i : Fin 6, (p, i) ∈ motors → getOnline r.storage (p, i) = .ok false →
    (t.storage.joint (p, i)).target.current = 0 ∧
      ∀ k, ((t.storage.joint (p, i)).pidCalc k).out = 0 ∧
        ((t.storage.joint (p, i)).pidCalc k).iOut = 0

/-- The speed loop of a joint has nothing to do: its set-point is the mean speed, and its
    accumulator is the proportional part of the previous error. -/
def AtRest (conv : Conversion) (r : Robot) (q : JointPtr Controller) : Prop :=
  speedSetPoint conv r q = (r.storage.joint q).getMeanSpeed ∧
    ((r.cleared q).pidCalc 0).out =
      ((motorCoeff q).pid 0).kp * ((r.storage.joint q).pidCalc 0).error 0

/-- A speed loop stays without output and without integral part exactly when it is at rest. -/
theorem speedLoop_eq_zero {r : Robot} (hr : Ready r) {conv : Conversion}
    {q : JointPtr Controller} (hq : q ∈ motors) :
    (speedLoop conv r q).out = 0 ∧ (speedLoop conv r q).iOut = 0 ↔ AtRest conv r q := by
  obtain ⟨hki, hkd, hk, hlim⟩ := motorCoeff_speed q hq
  rw [AtRest]
  rw [speedLoop_eq hr conv hq, Pid.pidSpeed_out hk, Pid.pidSpeed_iOut, r.cleared_error, hkd,
    MathTool.constrainAbsNoZero_eq_zero hlim]
  set e := speedSetPoint conv r q - (r.storage.joint q).getMeanSpeed with he
  constructor
  · rintro ⟨hout, hint⟩
    have hzero : e = 0 := (mul_eq_zero.mp hint).resolve_left hki
    rw [hint, (MathTool.constrainAbsNoZero_eq_zero hlim).mpr rfl, hzero] at hout
    exact ⟨by linarith, by linarith⟩
  · rintro ⟨hset, hout⟩
    have hzero : e = 0 := by rw [he, hset, sub_self]
    rw [hzero, mul_zero, (MathTool.constrainAbsNoZero_eq_zero hlim).mpr rfl]
    exact ⟨by linarith, rfl⟩

/-- The angle loops of the controllers that have none stay clear. -/
theorem pidCalc_one_of_run {conv : Conversion} {es : List RobotEvent} {r : Robot}
    (h : Runs conv es r) : ∀ q ∈ motors, q.1 ≠ .gimbal →
      ((r.storage.joint q).pidCalc 1).out = 0 ∧ ((r.storage.joint q).pidCalc 1).iOut = 0 := by
  have hinv : Ready r ∧ ∀ q ∈ motors, q.1 ≠ .gimbal →
      ((r.storage.joint q).pidCalc 1).out = 0 ∧ ((r.storage.joint q).pidCalc 1).iOut = 0 := by
    refine h.invariant (I := fun r => Ready r ∧ ∀ q ∈ motors, q.1 ≠ .gimbal →
      ((r.storage.joint q).pidCalc 1).out = 0 ∧ ((r.storage.joint q).pidCalc 1).iOut = 0) ?_ ?_
    · rintro s e t ⟨hs, hclear⟩ hstep
      refine ⟨ready_step hs hstep, fun q hq hp => ?_⟩
      rcases step_eq_ok hstep with ⟨p, rfl, hupd⟩ | ⟨e', he, hs', -⟩
      · by_cases hpq : q.1 = p
        · subst hpq
          rw [pidCalc_one_law hs hq hupd hp]
          rw [cleared]
          split
          · exact ⟨rfl, rfl⟩
          · exact hclear q hq hp
        · rw [(update_eq_ok hs hupd).2.joint_other fun hself => hpq hself.1]
          exact hclear q hq hp
      · obtain ⟨f, hf⟩ := (storageEvent_frame he hs').joint q
        rw [hf]
        exact hclear q hq hp
    · refine ⟨ready_started, fun q _ _ => ?_⟩
      rw [(fresh_started q).1 1]
      exact ⟨rfl, rfl⟩
  exact hinv.2

/-- In every cycle of every run, the motors that are away are parked exactly when the cycle is
    one of the gimbal, or the speed loops of those motors are at rest. -/
theorem parked_iff {conv : Conversion} {es : List RobotEvent} {r t : Robot} (h : Runs conv es r)
    {p : Controller} (hstep : r.update conv p = .ok t) :
    Parked r t p ↔ ∀ i : Fin 6, (p, i) ∈ motors → getOnline r.storage (p, i) = .ok false →
      p = .gimbal ∨ AtRest conv r (p, i) := by
  have hr := ready_of_run h
  apply forall₃_congr
  intro i hi hoff
  by_cases hp : p = .gimbal
  · subst hp
    have hruns : r.runsLoop (.gimbal, i) = false := by
      change isOnline r.storage (.gimbal, i) = false
      rw [isOnline, hoff]
      rfl
    -- the gimbal does not run the loops of a motor that is away
    rw [speedLoop_away hr hi hstep hruns]
    simp
  · have hruns : r.runsLoop (p, i) = true := by
      cases p with
      | gimbal => exact absurd rfl hp
      | chassis => rfl
      | bullet => rfl
    -- the other controllers do, and store the output as it is
    have hcur : ∀ out, r.storedCurrent conv (p, i) out = conv.toInt16 out := by
      intro out
      cases p with
      | gimbal => exact absurd rfl hp
      | chassis => rfl
      | bullet => rfl
    obtain ⟨hloop, hcurrent⟩ := speedLoop_law hr hi hstep hruns
    have hone : ((t.storage.joint (p, i)).pidCalc 1).out = 0 ∧
        ((t.storage.joint (p, i)).pidCalc 1).iOut = 0 := by
      have hnext : Runs conv (es ++ [.update p]) t := h.snoc hstep
      exact pidCalc_one_of_run hnext (p, i) hi hp
    rw [← speedLoop_eq_zero hr hi, hcurrent, hcur, Fin.forall_fin_two, hloop]
    constructor
    · rintro ⟨-, hzero, -⟩
      exact .inr hzero
    · rintro (hg | hzero)
      · exact absurd hg hp
      · exact ⟨by rw [hzero.1, conv.toInt16_zero], hzero, hone⟩

/-- The remote control starts the bullet motors, none of which has ever answered. -/
def neverAnswered : List RobotEvent := [.dbusRx centredFrame]

theorem runs_neverAnswered : ∃ r t, Runs .lowBits neverAnswered r ∧
    r.update .lowBits .bullet = .ok t ∧ isOnline r.storage (.bullet, 0) = false ∧
    (t.storage.joint (.bullet, 0)).target.current = Int16.ofInt (-7525) := by
  obtain ⟨r, hrun, hend⟩ := Run.of_check (fun _ _ => True) (Robot.step .lowBits) started
    neverAnswered (fun r => (isOnline r.storage (.bullet, 0),
      (r.update .lowBits .bullet).toOption.map fun t =>
        (t.storage.joint (.bullet, 0)).target.current))
    (x := (false, some (Int16.ofInt (-7525)))) (by decide +kernel)
  obtain ⟨hoff, hcurrent⟩ := Prod.mk.inj hend
  obtain ⟨t, ht, -⟩ := r.update_eq (ready_of_run hrun.forget_guard) .lowBits .bullet
  rw [ht] at hcurrent
  exact ⟨r, _, hrun.forget_guard, ht, hoff, Option.some.inj hcurrent⟩

/-- The first of them is sent a current. -/
theorem neverAnswered_not_parked : ∃ r t, Runs .lowBits neverAnswered r ∧
    r.update .lowBits .bullet = .ok t ∧ ¬ Parked r t .bullet := by
  obtain ⟨r, t, hrun, ht, hoff, hcurrent⟩ := runs_neverAnswered
  refine ⟨r, t, hrun, ht, fun h => ?_⟩
  have honline := (ready_of_run hrun).installed.getOnline (q := (.bullet, 0)) (by decide)
  rw [hoff] at honline
  have hzero := (h 0 (by decide) honline).1
  rw [hcurrent] at hzero
  exact absurd hzero (by decide)

/-- The law of the motors that are away at that run. -/
theorem neverAnswered_parked : ∃ r t, Runs .lowBits neverAnswered r ∧
    (Parked r t .bullet ↔ ∀ i : Fin 6, (Controller.bullet, i) ∈ motors →
      getOnline r.storage (.bullet, i) = .ok false →
      Controller.bullet = .gimbal ∨ AtRest .lowBits r (.bullet, i)) := by
  obtain ⟨r, t, hrun, ht, -⟩ := runs_neverAnswered
  exact ⟨r, t, hrun, parked_iff hrun ht⟩

end Robot

end RmMicroControllers
