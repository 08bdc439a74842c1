import Mathlib.Tactic.FinCases
import RmMicroControllers.App.Controllers

/-!
# The gimbal controller

Two motors hold an angle around a calibrated origin. An angle loop gives the set-point of a
speed loop, whose output is narrowed and then clamped; a motor that is off-line, or a change
of mode, clears both loops.
-/

namespace RmMicroControllers

open DeviceMonitor PartControl

/-- `GimbalControl::ControllerMode`. -/
inductive GimbalControl.ControllerMode where
  | test
  | zeroSpeed
  deriving DecidableEq

/-- The members of `GimbalControl`, and the static of its `get_mode_change`. -/
structure GimbalControl where
  pitchSub : UInt8 := 0
  yawSub : UInt8 := 0
  angleCalibration : Fin 3 → Fin 3 → Int16 := fun _ _ => 0
  mode : GimbalControl.ControllerMode := .test
  lastMode : GimbalControl.ControllerMode := .test

/-- `CONSTRAIN_ARR`. -/
def constrainArr (val : Int16) (minmax : Fin 2 → Int16) : Int16 :=
  if val < minmax 1 then if val < minmax 0 then minmax 0 else val else minmax 1

namespace GimbalControl

/-- `angle_calibration_[i][k] = angle`. -/
def setCalibration (g : GimbalControl) (i k : Fin 3) (angle : Int16) : GimbalControl :=
  { g with
    angleCalibration := Function.update g.angleCalibration i
      (Function.update (g.angleCalibration i) k angle) }

/-- `kOriginValue`. -/
def kOriginValue : Fin 3 := 0

/-- `kOffsetMaxValue`. -/
def kOffsetMaxValue : Fin 3 := 1

/-- `on_init`. -/
def onInit (g : GimbalControl) (s : Storage Controller) :
    Except Fault (GimbalControl × Storage Controller) := do
  let s := s.setHcan .gimbal (gRosParam.hcan .gimbal)
  let pitch := gRosParam.pitchJoint
  let (pitchSub, s) ← jointAdd s .gimbal pitch.type pitch.id pitch.coeff
  let k ← index .angleCalibration 3 pitchSub.toNat
  let g := ({ g with pitchSub := pitchSub }.setCalibration k 0 6000).setCalibration k 1 1200
  let yaw := gRosParam.yawJoint
  let (yawSub, s) ← jointAdd s .gimbal yaw.type yaw.id yaw.coeff
  let k ← index .angleCalibration 3 yawSub.toNat
  let g := ({ g with yawSub := yawSub }.setCalibration k 0 4800).setCalibration k 1 1500
  return (g, s)

/-- The target angle of one axis: its origin and the offset of a stick. -/
def axisAngle (conv : Conversion) (g : GimbalControl) (s : Storage Controller) (k : Fin 3)
    (channel : Fin 5) : Int16 :=
  g.angleCalibration k kOriginValue +
    getCommandDefault conv s channel (g.angleCalibration k kOffsetMaxValue).toInt 0 0

/-- The assignment of `get_command` to one axis. -/
def aim (conv : Conversion) (g : GimbalControl) (s : Storage Controller) (sub : UInt8)
    (channel : Fin 5) : Except Fault (Storage Controller) := do
  let i ← index .joint 6 sub.toNat
  let k ← index .angleCalibration 3 sub.toNat
  return s.modifyJoint (.gimbal, i) (·.setTargetAngle (axisAngle conv g s k channel))

/-- The mode that the right switch selects: `kRightStill` is 0. -/
def commandedMode (s : Storage Controller) : ControllerMode :=
  if s.deviceDbus.data.button 0 = 0 then .test else .zeroSpeed

/-- `get_command`. The sticks are `kChannelLeftY` and `kChannelLeftX`. -/
def getCommand (conv : Conversion) (g : GimbalControl) (s : Storage Controller) :
    Except Fault (GimbalControl × Storage Controller) := do
  let g := { g with mode := commandedMode s }
  let s ← aim conv g s g.pitchSub 3
  let s ← aim conv g s g.yawSub 2
  return (g, s)

/-- The two loops of a joint that is on-line. -/
def holdAngle (conv : Conversion) (j : JointData) : JointData :=
  let j := j.commandSpeed conv (j.feedback 0).angle.toInt j.target.angle.toInt
  let j := j.commandCurrent conv j.getMeanSpeed j.target.speed.toInt
  j.setTargetCurrent (constrainArr j.target.current j.coeff.currentLimit)

/-- The angle loop of a joint, from its target angle. -/
def angleLoop (j : JointData) : PidInfo :=
  Pid.pidAngle (j.pidCalc 1) (j.coeff.pid 1) (j.feedback 0).angle.toInt j.target.angle.toInt
    (j.coeff.angleLimit 1).toInt

/-- The speed loop of a joint, from the output of its angle loop. -/
def speedLoop (conv : Conversion) (j : JointData) : PidInfo :=
  Pid.pidSpeed (j.pidCalc 0) (j.coeff.pid 0) j.getMeanSpeed
    (conv.toInt16 (angleLoop j).out).toInt

theorem holdAngle_pidCalc_zero (conv : Conversion) (j : JointData) :
    (holdAngle conv j).pidCalc 0 = speedLoop conv j := by
  simp [holdAngle, speedLoop, angleLoop]

theorem holdAngle_pidCalc_one (conv : Conversion) (j : JointData) :
    (holdAngle conv j).pidCalc 1 = angleLoop j := by
  simp [holdAngle, angleLoop]

theorem holdAngle_current (conv : Conversion) (j : JointData) :
    (holdAngle conv j).target.current =
      constrainArr (conv.toInt16 (speedLoop conv j).out) j.coeff.currentLimit := by
  simp [holdAngle, speedLoop, angleLoop]

/-- The body of the loop of `update`. -/
def updateJoint (conv : Conversion) (modeChanged : Bool) (s : Storage Controller) (i : ℕ) :
    Except Fault (Storage Controller) := do
  let i ← index .joint 6 i
  let online ← getOnline s (.gimbal, i)
  let s := if !online || modeChanged then s.modifyJoint (.gimbal, i) (·.resetPid) else s
  let online ← getOnline s (.gimbal, i)
  if online then
    return s.modifyJoint (.gimbal, i) (holdAngle conv)
  else
    return s.modifyJoint (.gimbal, i) (·.setTargetCurrent 0)

/-- The assignments of `update` to the calibration: row 1 and row 2 of one column take the
    angles of joints 1 and 2. -/
def calibrate (g : GimbalControl) (s : Storage Controller) (k : Fin 3) : GimbalControl :=
  (g.setCalibration 1 k ((s.joint (.gimbal, 1)).feedback 0).angle).setCalibration 2 k
    ((s.joint (.gimbal, 2)).feedback 0).angle

/-- The calibration of one cycle. `ControllerMode::zero_speed`, the second condition of the
    first branch, is a constant that is not zero. -/
def updateCalibration (g : GimbalControl) (s : Storage Controller) (modeChanged : Bool) :
    GimbalControl :=
  let g := if modeChanged then g.calibrate s 2 else g
  if s.deviceDbus.data.button 1 = 1 then g.calibrate s 0 else g

/-- `update`. -/
def update (conv : Conversion) (g : GimbalControl) (s : Storage Controller) :
    Except Fault (GimbalControl × Storage Controller) := do
  let (g, s) ← getCommand conv g s
  let (modeChanged, lastMode) := getModeChange g.lastMode g.mode
  let g := { g with lastMode := lastMode }
  let g := g.updateCalibration s modeChanged
  let s ← (List.range (s.part .gimbal).jointCnt.toNat).foldlM (updateJoint conv modeChanged) s
  let s ← updateTarget s .gimbal
  return (g, s)

/-! ### One cycle -/

/-- The measured angle of a joint of the gimbal. -/
def measuredAngle (s : Storage Controller) (i : Fin 6) : Int16 :=
  ((s.joint (.gimbal, i)).feedback 0).angle

theorem calibrate_apply (g : GimbalControl) (s : Storage Controller) (k i k' : Fin 3) :
    (g.calibrate s k).angleCalibration i k' =
      if i ≠ 0 ∧ k' = k then measuredAngle s (i.castLE (by decide)) else
        g.angleCalibration i k' := by
  unfold calibrate setCalibration
  by_cases hk : k' = k
  · subst hk
    fin_cases i <;> simp [measuredAngle]
  · fin_cases i <;> simp [hk]

/-- The members of the controller after the mode has been compared. -/
def withMode (g : GimbalControl) (s : Storage Controller) : GimbalControl :=
  { g with mode := commandedMode s, lastMode := commandedMode s }

/-- Whether a cycle sees a new mode. -/
def modeChanged (g : GimbalControl) (s : Storage Controller) : Bool :=
  decide (g.lastMode ≠ commandedMode s)

/-- The target angle of a joint: joint 0 is the pitch axis, joint 1 the yaw axis. -/
def targetAngle (conv : Conversion) (g : GimbalControl) (s : Storage Controller) (i : Fin 6) :
    Int16 :=
  if i = 0 then axisAngle conv g s 0 3 else axisAngle conv g s 1 2

/-- What the loop of `update` does to one joint. -/
def loopLaw (conv : Conversion) (modeChanged online : Bool) (j : JointData) : JointData :=
  if online then holdAngle conv (if modeChanged then j.resetPid else j)
  else j.resetPid.setTargetCurrent 0

/-- What a cycle does to one joint. -/
def jointLaw (conv : Conversion) (g : GimbalControl) (s : Storage Controller) (i : Fin 6)
    (j : JointData) : JointData :=
  loopLaw conv (g.modeChanged s) (isOnline s (.gimbal, i))
    (j.setTargetAngle (g.targetAngle conv s i))

theorem jointLaw_fixed (conv : Conversion) (g : GimbalControl) (s : Storage Controller)
    (i : Fin 6) (j : JointData) : (jointLaw conv g s i j).fixed = j.fixed := by
  rw [jointLaw, loopLaw, holdAngle]
  split
  · split <;> simp
  · simp

/-- `get_command`, once the two axes are registered as numbers 0 and 1. -/
theorem getCommand_eq (conv : Conversion) {g : GimbalControl} (hpitch : g.pitchSub = 0)
    (hyaw : g.yawSub = 1) (s : Storage Controller) :
    g.getCommand conv s = .ok ({ g with mode := commandedMode s },
      s.mapJoints .gimbal 2 fun i => (·.setTargetAngle (g.targetAngle conv s i))) := by
  have haim : ∀ (u : Storage Controller) (sub : UInt8) (k : Fin 3) (channel : Fin 5),
      sub.toNat = k → aim conv { g with mode := commandedMode s } u sub channel =
        .ok (u.modifyJoint (.gimbal, k.castLE (by decide))
          (·.setTargetAngle (axisAngle conv g u k channel))) := by
    intro u sub k channel hk
    rw [aim, index_eq_ok.mpr (show sub.toNat = (k.castLE (by decide) : Fin 6) from hk),
      index_eq_ok.mpr hk]
    rfl
  have hmap : s.mapJoints .gimbal 2 (fun i => (·.setTargetAngle (g.targetAngle conv s i))) =
      (s.modifyJoint (.gimbal, 0) (·.setTargetAngle (axisAngle conv g s 0 3))).modifyJoint
        (.gimbal, 1) (·.setTargetAngle (axisAngle conv g s 1 2)) := by
    have h := s.mapJoints_succ .gimbal 1 fun i => (·.setTargetAngle (g.targetAngle conv s i))
    have h₁ := s.mapJoints_one .gimbal fun i => (·.setTargetAngle (g.targetAngle conv s i))
    rw [show ((1 : Fin 6) : ℕ) = 1 from rfl, h₁] at h
    exact h.symm
  rw [hmap, getCommand]
  dsimp only
  rw [haim s g.pitchSub 0 3 (by rw [hpitch]; rfl), Fallible.ok_bind,
    haim _ g.yawSub 1 2 (by rw [hyaw]; rfl)]
  rfl

/-- One pass of the loop of `update`. -/
theorem updateJoint_eq {s : Storage Controller} (hs : Installed s) (conv : Conversion)
    (modeChanged : Bool) (f : PartControl → PartControl) {i : Fin 6}
    (hi : (Controller.gimbal, i) ∈ motors) :
    updateJoint conv modeChanged (s.modifyPart .gimbal f) i =
      .ok ((s.modifyPart .gimbal f).modifyJoint (.gimbal, i)
        (loopLaw conv modeChanged (isOnline s (.gimbal, i)))) := by
  have honline : getOnline (s.modifyPart .gimbal f) (.gimbal, i) = .ok (isOnline s (.gimbal, i)) :=
    hs.getOnline hi
  have hreset : getOnline ((s.modifyPart .gimbal f).modifyJoint (.gimbal, i) (·.resetPid))
      (.gimbal, i) = .ok (isOnline s (.gimbal, i)) := hs.getOnline hi
  rw [updateJoint, index_of_lt .joint i.isLt, Fallible.ok_bind, honline, Fallible.ok_bind]
  cases hon : isOnline s (.gimbal, i) with
  | true =>
    rw [hon] at honline hreset
    cases modeChanged with
    | true =>
      simp only [Bool.or_true, if_true, hreset, Fallible.ok_bind, Storage.modifyJoint_modifyJoint]
      rfl
    | false =>
      simp only [Bool.not_true, Bool.or_false, Bool.false_eq_true, if_false, honline,
        Fallible.ok_bind, if_true]
      rfl
  | false =>
    rw [hon] at hreset
    simp only [Bool.not_false, Bool.true_or, if_true, hreset, Fallible.ok_bind,
      Bool.false_eq_true, if_false, Storage.modifyJoint_modifyJoint]
    rfl

/-- The calibration of a cycle reads the feedback, which `get_command` leaves alone. -/
theorem updateCalibration_mapJoints (g : GimbalControl) (s : Storage Controller)
    {f : Fin 6 → JointData → JointData} (hf : ∀ i j, (f i j).feedback = j.feedback)
    (modeChanged : Bool) :
    g.updateCalibration (s.mapJoints .gimbal 2 f) modeChanged =
      g.updateCalibration s modeChanged := by
  have hfeedback : ∀ q, ((s.mapJoints .gimbal 2 f).joint q).feedback = (s.joint q).feedback := by
    intro q
    rw [Storage.mapJoints_joint]
    split
    · exact hf _ _
    · rfl
  have hcalibrate : ∀ (g : GimbalControl) (k : Fin 3),
      g.calibrate (s.mapJoints .gimbal 2 f) k = g.calibrate s k := by
    intro g k
    rw [calibrate, hfeedback, hfeedback]
    rfl
  rw [updateCalibration]
  simp only [hcalibrate]
  rfl

theorem updateCalibration_subs (g : GimbalControl) (s : Storage Controller) (modeChanged : Bool) :
    (g.updateCalibration s modeChanged).pitchSub = g.pitchSub ∧
      (g.updateCalibration s modeChanged).yawSub = g.yawSub := by
  unfold updateCalibration
  cases modeChanged <;> dsimp only <;> split <;> exact ⟨rfl, rfl⟩

/-- One cycle, once the two axes are registered as numbers 0 and 1. -/
theorem update_eq {s : Storage Controller} (hs : Installed s) {g : GimbalControl}
    (hpitch : g.pitchSub = 0) (hyaw : g.yawSub = 1) (conv : Conversion) :
    ∃ t, g.update conv s = .ok ((g.withMode s).updateCalibration s (g.modeChanged s), t) ∧
      Updated s .gimbal (jointLaw conv g s) t := by
  obtain ⟨t, ht, hupd⟩ := hs.updateTarget (jointLaw_fixed conv g s)
  refine ⟨t, ?_, hupd⟩
  let aimed := s.mapJoints .gimbal 2 fun i => (·.setTargetAngle (g.targetAngle conv s i))
  have hinst : Installed aimed :=
    hs.congr (s.config_mapJoints .gimbal 2 fun i j => j.setTargetAngle_fixed _)
  have hcnt : (aimed.part .gimbal).jointCnt.toNat = 2 := by
    rw [hinst.jointCnt]
    rfl
  have hloop : (List.range 2).foldlM (updateJoint conv (g.modeChanged s)) aimed =
      .ok (s.mapJoints .gimbal (jointCount .gimbal).toNat (jointLaw conv g s)) := by
    have h := foldlM_modifyJoint (s := aimed) (p := .gimbal) (n := 2)
      (f := fun i => loopLaw conv (g.modeChanged s) (isOnline aimed (.gimbal, i)))
      (by decide) fun f i hi =>
        updateJoint_eq hinst conv (g.modeChanged s) f ((mem_motors_iff (.gimbal, i)).mpr hi)
    rw [h, Storage.mapJoints_mapJoints]
    rfl
  rw [update, getCommand_eq conv hpitch hyaw, Fallible.ok_bind]
  simp only [getModeChange_fst, getModeChange_snd]
  change ((List.range (aimed.part .gimbal).jointCnt.toNat).foldlM _ aimed >>= fun s =>
    updateTarget s .gimbal >>= fun s => pure (_, s)) = _
  rw [hcnt]
  apply (congrArg (· >>= _) hloop).trans
  rw [Fallible.ok_bind, ht, Fallible.ok_bind, Fallible.pure_eq_ok,
    updateCalibration_mapJoints _ _ fun i j => j.setTargetAngle_feedback _]
  rfl

end GimbalControl

end RmMicroControllers
