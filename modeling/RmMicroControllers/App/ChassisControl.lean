import RmMicroControllers.App.Controllers

/-!
# The chassis controller

One motor follows the wheel channel of the remote control. Its current is the output of the
speed loop, narrowed and stored as it is.
-/

namespace RmMicroControllers

open DeviceMonitor PartControl

/-- `ChassisControl::ControllerMode`. -/
inductive ChassisControl.ControllerMode where
  | test
  deriving DecidableEq

/-- The members of `ChassisControl`, and the static of its `get_mode_change`. -/
structure ChassisControl where
  singleSub : UInt8 := 0
  mode : ChassisControl.ControllerMode := .test
  lastMode : ChassisControl.ControllerMode := .test

namespace ChassisControl

/-- `on_init`. -/
def onInit (c : ChassisControl) (s : Storage Controller) :
    Except Fault (ChassisControl × Storage Controller) := do
  let s := s.setHcan .chassis (gRosParam.hcan .chassis)
  let param := gRosParam.chassisJoint
  let (singleSub, s) ← jointAdd s .chassis param.type param.id param.coeff
  return ({ c with singleSub := singleSub }, s)

/-- `get_command`. -/
def getCommand (conv : Conversion) (c : ChassisControl) (s : Storage Controller) :
    Except Fault (Storage Controller) := do
  let i ← index .joint 6 c.singleSub.toNat
  return s.modifyJoint (.chassis, i) (·.setTargetSpeed (getCommandDefault conv s 4 2700 0 0))

/-- `update`. The mode is compared and the answer dropped. -/
def update (conv : Conversion) (c : ChassisControl) (s : Storage Controller) :
    Except Fault (ChassisControl × Storage Controller) := do
  let i ← index .joint 6 c.singleSub.toNat
  let s ← getCommand conv c s
  let (_, lastMode) := getModeChange c.lastMode c.mode
  let get := (s.joint (.chassis, 0)).getMeanSpeed
  let s := s.modifyJoint (.chassis, i) fun j => j.commandCurrent conv get j.target.speed.toInt
  let s ← updateTarget s .chassis
  return ({ c with lastMode := lastMode }, s)

/-- What a cycle does to the one joint. -/
def jointLaw (conv : Conversion) (s : Storage Controller) (j : JointData) : JointData :=
  let speed := getCommandDefault conv s 4 2700 0 0
  (j.setTargetSpeed speed).commandCurrent conv j.getMeanSpeed speed.toInt

theorem jointLaw_fixed (conv : Conversion) (s : Storage Controller) (j : JointData) :
    (jointLaw conv s j).fixed = j.fixed := by
  simp [jointLaw]

/-- One cycle, once the joint is registered as number 0. -/
theorem update_eq {s : Storage Controller} (hs : Installed s) {c : ChassisControl}
    (hsub : c.singleSub = 0) (conv : Conversion) :
    ∃ t, c.update conv s = .ok ({ c with lastMode := c.mode }, t) ∧
      Updated s .chassis (fun _ => jointLaw conv s) t := by
  obtain ⟨t, ht, hupd⟩ := hs.updateTarget (p := .chassis) (f := fun _ => jointLaw conv s)
    fun _ => jointLaw_fixed conv s
  refine ⟨t, ?_, hupd⟩
  have hidx : index .joint 6 c.singleSub.toNat = .ok 0 := by rw [hsub]; rfl
  have hcmd : c.getCommand conv s = .ok (s.modifyJoint (.chassis, 0)
      (·.setTargetSpeed (getCommandDefault conv s 4 2700 0 0))) := by
    rw [getCommand, hidx]
    rfl
  have hlaw : s.mapJoints .chassis (jointCount .chassis).toNat (fun _ => jointLaw conv s) =
      (s.modifyJoint (.chassis, 0)
        (·.setTargetSpeed (getCommandDefault conv s 4 2700 0 0))).modifyJoint
        (.chassis, 0) fun j => j.commandCurrent conv
          ((s.joint (.chassis, 0)).setTargetSpeed
            (getCommandDefault conv s 4 2700 0 0)).getMeanSpeed j.target.speed.toInt := by
    rw [Storage.modifyJoint_modifyJoint]
    refine (s.mapJoints_one _ _).trans (Storage.modifyJoint_congr ?_)
    rfl
  rw [hlaw] at ht
  rw [update]
  rw [hidx, Fallible.ok_bind, hcmd, Fallible.ok_bind]
  simp only [Storage.modifyJoint_self, getModeChange_snd]
  rw [ht]
  rfl

end ChassisControl

end RmMicroControllers
