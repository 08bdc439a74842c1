import RmMicroControllers.App.MotorControl

/-!
# The origins of the gimbal

In the OFF position of the left switch, every cycle should make the present angle of each axis
its origin. The registration numbers the axes 0 and 1, while the branch writes rows 1 and 2:
the pitch axis keeps the origin of `on_init`, and row 2 takes the feedback of a joint that was
never registered.

## Main results

- `pitchOrigin_of_run` — no call writes the origin of the pitch axis
- `originsTracked_iff` — when an OFF cycle leaves the right origins
-/

namespace RmMicroControllers

open Transition DeviceMonitor PartControl

namespace GimbalControl

/-- The calibration that an OFF cycle leaves. -/
theorem updateCalibration_origin {g : GimbalControl} {s : Storage Controller}
    (hoff : s.deviceDbus.data.button 1 = 1) (modeChanged : Bool) (i : Fin 3) :
    (g.updateCalibration s modeChanged).angleCalibration i kOriginValue =
      if i = 0 then g.angleCalibration 0 kOriginValue
      else measuredAngle s (i.castLE (by decide)) := by
  have hoff' : ∀ b : Bool, g.updateCalibration s b =
      (if b then g.calibrate s 2 else g).calibrate s 0 := fun b => if_pos hoff
  rw [hoff', calibrate_apply]
  by_cases hi : i = 0
  · subst hi
    cases modeChanged <;> simp [kOriginValue, calibrate_apply]
  · simp [hi, kOriginValue]

/-- Row 0 is written by nothing. -/
theorem updateCalibration_zero (g : GimbalControl) (s : Storage Controller)
    (modeChanged : Bool) (k : Fin 3) :
    (g.updateCalibration s modeChanged).angleCalibration 0 k = g.angleCalibration 0 k := by
  unfold updateCalibration
  cases modeChanged <;> dsimp only <;> split <;> simp [calibrate_apply]

end GimbalControl

open GimbalControl

namespace Robot

/-- No call writes the origin of the pitch axis. -/
theorem pitchOrigin_step {conv : Conversion} {r t : Robot} {e : RobotEvent} (hr : Ready r)
    (h : r.step conv e = .ok t) :
    t.gimbal.angleCalibration 0 kOriginValue = r.gimbal.angleCalibration 0 kOriginValue := by
  rcases step_eq_ok h with ⟨p, rfl, hupd⟩ | ⟨e', -, -, ht⟩
  · rw [(update_eq_ok hr hupd).1]
    cases p with
    | chassis => rfl
    | gimbal => exact updateCalibration_zero _ _ _ _
    | bullet => rfl
  · rw [ht]

theorem pitchOrigin_of_run {conv : Conversion} {es : List RobotEvent} {r : Robot}
    (h : Runs conv es r) : r.gimbal.angleCalibration 0 kOriginValue = 6000 := by
  have hinv : Ready r ∧ r.gimbal.angleCalibration 0 kOriginValue = 6000 := by
    refine h.invariant (I := fun r => Ready r ∧ r.gimbal.angleCalibration 0 kOriginValue = 6000)
      ?_ ⟨ready_started, by decide +kernel⟩
    rintro s e t ⟨hs, hpitch⟩ hstep
    exact ⟨ready_step hs hstep, (pitchOrigin_step hs hstep).trans hpitch⟩
  exact hinv.2

/-- The origins of the registered axes after a cycle from `r` to `t`: each is the angle
    measured in that cycle, and with both sticks centred the next target is that angle. -/
structure AxesTracked (conv : Conversion) (r t : Robot) : Prop where
  origin : ∀ i : Fin 3, (Controller.gimbal, i.castLE (by decide)) ∈ motors →
    t.gimbal.angleCalibration i kOriginValue = measuredAngle r.storage (i.castLE (by decide))
  centred : ∀ s : Storage Controller,
    s.deviceDbus.data.channel 2 = 0 → s.deviceDbus.data.channel 3 = 0 →
    ∀ i : Fin 6, (Controller.gimbal, i) ∈ motors →
      t.gimbal.targetAngle conv s i = measuredAngle r.storage i

/-- A cycle from `r` uses no value of a joint that is not registered: whatever such a joint
    holds, the calibration comes out the same. -/
def OnlyRegistered (conv : Conversion) (r : Robot) : Prop :=
  ∀ i : Fin 6, (Controller.gimbal, i) ∉ motors → ∀ (j : JointData) (t t' : Robot),
    r.update conv .gimbal = .ok t →
    { r with storage := r.storage.modifyJoint (.gimbal, i) fun _ => j }.update conv .gimbal =
      .ok t' →
    t'.gimbal.angleCalibration = t.gimbal.angleCalibration

/-- A centred stick adds nothing. -/
theorem getCommandDefault_centred (conv : Conversion) {s : Storage Controller} {channel : Fin 5}
    (h : s.deviceDbus.data.channel channel = 0) (coeff : ℚ) :
    getCommandDefault conv s channel coeff 0 0 = 0 := by
  have hzero : getCommandDbusChannel s channel coeff = 0 := by
    simp [getCommandDbusChannel, h]
  rw [getCommandDefault]
  rw [hzero, conv.toInt16_zero]
  simp

/-- The registered axes are tracked exactly when the pitch axis happens to stand at the origin
    of `on_init`. -/
theorem axesTracked_iff {conv : Conversion} {r t : Robot} (hr : Ready r)
    (hpitch : r.gimbal.angleCalibration 0 kOriginValue = 6000)
    (hoff : r.storage.deviceDbus.data.button 1 = 1) (hstep : r.update conv .gimbal = .ok t) :
    AxesTracked conv r t ↔ measuredAngle r.storage 0 = 6000 := by
  have hcal : ∀ i : Fin 3, t.gimbal.angleCalibration i kOriginValue =
      if i = 0 then 6000 else measuredAngle r.storage (i.castLE (by decide)) := by
    intro i
    rw [(update_eq_ok hr hstep).1]
    apply (updateCalibration_origin hoff _ i).trans
    rw [← hpitch]
    rfl
  constructor
  · intro h
    exact (h.origin 0 (by decide)).symm.trans (hcal 0)
  · intro h
    have horigin : ∀ i : Fin 3, t.gimbal.angleCalibration i kOriginValue =
        measuredAngle r.storage (i.castLE (by decide)) := by
      intro i
      rw [hcal]
      split
      · next hi => rw [hi]; exact h.symm
      · rfl
    -- with centred sticks each target is the origin of its axis
    refine ⟨fun i _ => horigin i, fun s hyaw hpitch i hi => ?_⟩
    have hlt : i.val < 2 := (mem_motors_iff (.gimbal, i)).mp hi
    unfold targetAngle axisAngle
    split
    · next hi =>
      rw [getCommandDefault_centred conv hpitch, horigin 0, hi, Int16.add_zero]
      rfl
    · next hi =>
      have hone : i = 1 := Fin.ext (by
        have : i.val ≠ 0 := fun h => hi (Fin.ext h)
        have : ((1 : Fin 6) : ℕ) = 1 := rfl
        omega)
      rw [getCommandDefault_centred conv hyaw, horigin 1, hone, Int16.add_zero]
      rfl

/-- The feedback of joint 2, which is not registered, always goes into row 2. -/
theorem not_onlyRegistered {conv : Conversion} {r : Robot} (hr : Ready r)
    (hoff : r.storage.deviceDbus.data.button 1 = 1) : ¬ OnlyRegistered conv r := by
  intro h
  -- the same robot after joint 2 has got a different angle
  let info : CtrlInfo := { angle := measuredAngle r.storage 2 + 1 }
  let j := (r.storage.joint (.gimbal, 2)).pushFeedback info
  let r' : Robot := { r with storage := r.storage.modifyJoint (.gimbal, 2) fun _ => j }
  have hconfig : r'.storage.config = r.storage.config := by
    have hcongr : r'.storage = r.storage.modifyJoint (.gimbal, 2) (·.pushFeedback info) :=
      Storage.modifyJoint_congr (f := fun _ => j) rfl
    rw [hcongr]
    exact r.storage.config_modifyJoint _ _ fun _ => rfl
  have hr' : Ready r' :=
    ⟨hr.installed.congr hconfig, hr.singleSub, hr.pitchSub, hr.yawSub⟩
  obtain ⟨t, ht, -⟩ := r.update_eq hr conv .gimbal
  obtain ⟨t', ht', -⟩ := r'.update_eq hr' conv .gimbal
  have hsame := h 2 (by decide) j _ _ ht ht'
  have hrow : ∀ x : Robot, x.storage.deviceDbus.data.button 1 = 1 →
      (x.withMembers .gimbal).gimbal.angleCalibration 2 kOriginValue =
        measuredAngle x.storage 2 := by
    intro x hx
    exact (updateCalibration_origin hx _ 2).trans (if_neg (by decide))
  have h₁ := hrow r hoff
  have h₂ := hrow r' hoff
  have hsame' : (r'.withMembers .gimbal).gimbal.angleCalibration =
      (r.withMembers .gimbal).gimbal.angleCalibration := hsame
  rw [← hsame', h₂] at h₁
  have hnew : measuredAngle r'.storage 2 = measuredAngle r.storage 2 + 1 := by
    rw [measuredAngle]
    rw [Storage.modifyJoint_self]
    rfl
  rw [hnew] at h₁
  simp at h₁

/-- In every OFF cycle of every run the registered axes are tracked exactly when the pitch axis
    stands at 6000, and a value of a joint that is not registered is used. -/
theorem originsTracked_iff {conv : Conversion} {es : List RobotEvent} {r t : Robot}
    (h : Runs conv es r) (hoff : r.storage.deviceDbus.data.button 1 = 1)
    (hstep : r.update conv .gimbal = .ok t) :
    (AxesTracked conv r t ↔ measuredAngle r.storage 0 = 6000) ∧ ¬ OnlyRegistered conv r :=
  ⟨axesTracked_iff (ready_of_run h) (pitchOrigin_of_run h) hoff hstep,
    not_onlyRegistered (ready_of_run h) hoff⟩

/-- The pitch motor reports the angle 5000 while the left switch is in the OFF position. -/
def pitchMoved : List RobotEvent :=
  [.canRx .hcan1 0x207 ![0x13, 0x88, 0, 0, 0, 0, 0, 0], .dbusRx centredFrame, .updateToController]

theorem runs_pitchMoved : ∃ r, Runs .lowBits pitchMoved r ∧
    r.storage.deviceDbus.data.button 1 = 1 ∧ measuredAngle r.storage 0 = 5000 := by
  obtain ⟨r, hrun, hend⟩ := Run.of_check (fun _ _ => True) (Robot.step .lowBits) started
    pitchMoved (fun r => (r.storage.deviceDbus.data.button 1, measuredAngle r.storage 0))
    (x := (1, 5000)) (by decide +kernel)
  exact ⟨r, hrun.forget_guard, congrArg Prod.fst hend, congrArg Prod.snd hend⟩

/-- The pitch axis stands at 5000 and its origin stays 6000. -/
theorem pitchMoved_not_tracked : ∃ r t, Runs .lowBits pitchMoved r ∧
    r.storage.deviceDbus.data.button 1 = 1 ∧ r.update .lowBits .gimbal = .ok t ∧
    t.gimbal.angleCalibration 0 kOriginValue = 6000 ∧ measuredAngle r.storage 0 = 5000 ∧
    ¬ AxesTracked .lowBits r t := by
  obtain ⟨r, hrun, hoff, hangle⟩ := runs_pitchMoved
  obtain ⟨t, ht, -⟩ := r.update_eq (ready_of_run hrun) .lowBits .gimbal
  have hpitch := pitchOrigin_step (e := .update .gimbal) (ready_of_run hrun) ht
  rw [pitchOrigin_of_run hrun] at hpitch
  refine ⟨r, _, hrun, hoff, ht, hpitch, hangle, fun h => ?_⟩
  have horigin := h.origin 0 (by decide)
  rw [hpitch] at horigin
  exact absurd (horigin.trans hangle) (by decide)

/-- The law of OFF cycles at that run. -/
theorem pitchMoved_off : ∃ r t, Runs .lowBits pitchMoved r ∧
    (AxesTracked .lowBits r t ↔ measuredAngle r.storage 0 = 6000) ∧
      ¬ OnlyRegistered .lowBits r := by
  obtain ⟨r, hrun, hoff, -⟩ := runs_pitchMoved
  obtain ⟨t, ht, -⟩ := r.update_eq (ready_of_run hrun) .lowBits .gimbal
  exact ⟨r, _, hrun, originsTracked_iff hrun hoff ht⟩

end Robot

end RmMicroControllers
