import RmMicroControllers.App.Controllers

/-!
# The bullet controller

The bullet motor and the two friction wheels turn at fixed speeds while the right switch of
the remote control says so. Their currents are the outputs of the speed loops, narrowed and
stored as they are.
-/

namespace RmMicroControllers

open DeviceMonitor PartControl

/-- `ExtraControl::ControllerMode`. -/
inductive ExtraControl.ControllerMode where
  | on
  | off
  deriving DecidableEq

/-- The members of `ExtraControl`, and the static of its `get_mode_change`. -/
structure ExtraControl where
  mode : ExtraControl.ControllerMode := .on
  lastMode : ExtraControl.ControllerMode := .on

namespace ExtraControl

/-- `joint_[i].coeff.pid[0].kp = 3`. -/
def setKp (s : Storage Controller) (i : Fin 6) : Storage Controller :=
  s.modifyJoint (.bullet, i) fun j =>
    { j with coeff.pid := Function.update j.coeff.pid 0 { j.coeff.pid 0 with kp := 3 } }

/-- `on_init`. -/
def onInit (c : ExtraControl) (s : Storage Controller) :
    Except Fault (ExtraControl × Storage Controller) := do
  let s := s.setHcan .bullet (gRosParam.hcan .bullet)
  let (_, s) ← jointAdd s .bullet .kRM2006 2 (gJointDefault .kRM2006)
  let (_, s) ← jointAdd s .bullet .kRM3508 3 (gJointDefault .kRM3508)
  let (_, s) ← jointAdd s .bullet .kRM3508 4 (gJointDefault .kRM3508)
  return (c, setKp (setKp (setKp s 0) 2) 1)

/-- `temp`, the speeds of mode `on`. -/
def temp : Fin 4 → ℚ := ![-2500, -4000, 4000, 0]

/-- The set-point of joint `i`. -/
def setPoint (mode : ControllerMode) (i : ℕ) : Except Fault ℚ := do
  if mode = .on then
    let k ← index .temp 4 i
    return temp k
  else
    return 0

/-- The body of the loop of `update`. The answer of `get_online` is dropped. -/
def updateJoint (conv : Conversion) (mode : ControllerMode) (modeChanged : Bool)
    (s : Storage Controller) (i : ℕ) : Except Fault (Storage Controller) := do
  let k ← index .joint 6 i
  let _ ← getOnline s (.bullet, k)
  let s := if modeChanged then s.modifyJoint (.bullet, k) (·.resetPid) else s
  let set ← setPoint mode i
  return s.modifyJoint (.bullet, k) fun j => j.commandCurrent conv j.getMeanSpeed set

/-- The mode that the right switch selects. -/
def commandedMode (s : Storage Controller) : ControllerMode :=
  if s.deviceDbus.data.button 0 = 3 ∨ s.deviceDbus.data.button 0 = 0 then .off else .on

/-- `update`. -/
def update (conv : Conversion) (c : ExtraControl) (s : Storage Controller) :
    Except Fault (ExtraControl × Storage Controller) := do
  let c := { c with mode := commandedMode s }
  let (modeChanged, lastMode) := getModeChange c.lastMode c.mode
  let c := { c with lastMode := lastMode }
  let s ← (List.range (s.part .bullet).jointCnt.toNat).foldlM
    (updateJoint conv c.mode modeChanged) s
  let s ← updateTarget s .bullet
  return (c, s)

/-! ### One cycle -/

/-- The members of the controller after the mode has been compared. -/
def withMode (c : ExtraControl) (s : Storage Controller) : ExtraControl :=
  { c with mode := commandedMode s, lastMode := commandedMode s }

/-- Whether a cycle sees a new mode. -/
def modeChanged (c : ExtraControl) (s : Storage Controller) : Bool :=
  decide (c.lastMode ≠ commandedMode s)

/-- The set-point of a joint that `temp` covers. -/
def commandedSpeed (mode : ControllerMode) (i : Fin 6) : ℚ :=
  (setPoint mode i).toOption.getD 0

theorem setPoint_eq (mode : ControllerMode) {i : Fin 6} (hi : i.val < 4) :
    setPoint mode i = .ok (commandedSpeed mode i) := by
  rw [commandedSpeed, setPoint]
  split
  · rw [index_of_lt .temp hi]
    rfl
  · rfl

@[simp]
theorem commandedSpeed_off (i : Fin 6) : commandedSpeed .off i = 0 := rfl

/-- In mode `on` all three joints turn. -/
theorem commandedSpeed_on {i : Fin 6} (hi : (Controller.bullet, i) ∈ motors) :
    commandedSpeed .on i ≠ 0 := by
  revert i
  decide

/-- What a cycle does to one joint. -/
def jointLaw (conv : Conversion) (c : ExtraControl) (s : Storage Controller) (i : Fin 6)
    (j : JointData) : JointData :=
  (if c.modeChanged s then j.resetPid else j).commandCurrent conv j.getMeanSpeed
    (commandedSpeed (commandedMode s) i)

theorem jointLaw_fixed (conv : Conversion) (c : ExtraControl) (s : Storage Controller)
    (i : Fin 6) (j : JointData) : (jointLaw conv c s i j).fixed = j.fixed := by
  rw [jointLaw]
  split <;> simp

/-- One pass of the loop of `update`. -/
theorem updateJoint_eq {s : Storage Controller} (hs : Installed s) (conv : Conversion)
    (c : ExtraControl) (f : PartControl → PartControl) {i : Fin 6}
    (hi : (Controller.bullet, i) ∈ motors) :
    updateJoint conv (commandedMode s) (c.modeChanged s) (s.modifyPart .bullet f) i =
      .ok ((s.modifyPart .bullet f).modifyJoint (.bullet, i) (jointLaw conv c s i)) := by
  have hlt : i.val < 3 := (mem_motors_iff (.bullet, i)).mp hi
  have honline : getOnline (s.modifyPart .bullet f) (.bullet, i) = .ok (isOnline s (.bullet, i)) :=
    hs.getOnline hi
  rw [updateJoint, index_of_lt .joint i.isLt, Fallible.ok_bind, honline, Fallible.ok_bind,
    setPoint_eq _ (by omega)]
  unfold jointLaw
  cases c.modeChanged s with
  | true =>
    simp only [if_true, Fallible.ok_bind, Storage.modifyJoint_modifyJoint]
    rfl
  | false => rfl

/-- One cycle, once the three joints are registered. -/
theorem update_eq {s : Storage Controller} (hs : Installed s) (c : ExtraControl)
    (conv : Conversion) :
    ∃ t, c.update conv s = .ok (c.withMode s, t) ∧ Updated s .bullet (jointLaw conv c s) t := by
  obtain ⟨t, ht, hupd⟩ := hs.updateTarget (jointLaw_fixed conv c s)
  refine ⟨t, ?_, hupd⟩
  have hcnt : (s.part .bullet).jointCnt.toNat = 3 := by
    rw [hs.jointCnt]
    rfl
  have hloop : (List.range 3).foldlM (updateJoint conv (commandedMode s) (c.modeChanged s)) s =
      .ok (s.mapJoints .bullet (jointCount .bullet).toNat (jointLaw conv c s)) :=
    foldlM_modifyJoint (by decide) fun f i hi =>
      updateJoint_eq hs conv c f ((mem_motors_iff (.bullet, i)).mpr hi)
  rw [update]
  simp only [getModeChange_fst, getModeChange_snd, hcnt]
  apply (congrArg (· >>= _) hloop).trans
  rw [Fallible.ok_bind, ht]
  rfl

end ExtraControl

end RmMicroControllers
