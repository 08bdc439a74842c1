import RmMicroControllers.App.Storage
import RmMicroControllers.Library.Fallible

/-!
# The device monitor's registry

The members of `DeviceMonitor` that other objects call: the numbering of the CAN buses, the
registration of a joint, the time stamp of a received frame and the remote-control commands.
-/

namespace RmMicroControllers

variable {ι : Type}

namespace DeviceMonitor

/-- `can_cast_to_num`. -/
def canCastToNum : Can → UInt8
  | .hcan1 => 1
  | .hcan2 => 2
  | .other => 0

/-- `num_cast_to_can`. -/
def numCastToCan (num : UInt8) : Can :=
  if num = 1 then .hcan1 else if num = 2 then .hcan2 else .hcan1

/-- `update_single_isr`: stamp the device with the current tick. -/
def updateSingleIsr {π δ : Type} (now : UInt32) (device : DeviceStatus π δ)
    (error : DeviceErrorList) : DeviceStatus π δ :=
  { device with tick := now, error := error }

/-- `device_dict_.insert`, which keeps an existing entry of the key. -/
def dictInsert [DecidableEq ι] (dict : List (JointPtr ι × DevicePtr)) (key : JointPtr ι)
    (value : DevicePtr) : List (JointPtr ι × DevicePtr) :=
  if (dict.lookup key).isSome then dict else (key, value) :: dict

/-- `device_dict_add`. -/
def deviceDictAdd [DecidableEq ι] (s : Storage ι) (key : JointPtr ι) (value : DevicePtr) :
    Storage ι :=
  { s with deviceDict := dictInsert s.deviceDict key value }

/-- `device_dict_find`, and the dereference of what it finds. -/
def deviceDictFind [DecidableEq ι] (s : Storage ι) (key : JointPtr ι) :
    Except Fault (JointDevice ι) :=
  match s.deviceDict.lookup key with
  | none => .error .danglingStatus
  | some ptr =>
    let v := s.deviceJoint ptr.bus
    match if v.generation = ptr.generation then v.elems[ptr.pos]? else none with
    | none => .error .danglingStatus
    | some d => .ok d

/-- `get_online`. -/
def getOnline [DecidableEq ι] (s : Storage ι) (q : JointPtr ι) : Except Fault Bool := do
  let d ← deviceDictFind s q
  return d.online

/-- `head_feedback` and `head_target` looked up in the two tables. -/
def withHeads (head : Fin 17) (j : JointData) : JointData :=
  { j with headFeedback := gCanHeadFeedback head, headTarget := gCanHeadTarget head }

/-- Whether `register_and_init` finds the feedback id of `q` already taken on `bus`. -/
def feedbackTaken (s : Storage ι) (bus : Fin 2) (q : JointPtr ι) : Bool :=
  (s.deviceJoint bus).elems.any fun d =>
    (s.joint d.ptr).headFeedback == (s.joint q).headFeedback

/-- `register_and_init`. The dictionary gets the address one past the last element, which is
    where the `push_back` that follows puts the new one. -/
def registerAndInit [DecidableEq ι] (s : Storage ι) (hcan : Can) (q : JointPtr ι) :
    Except Fault (Storage ι) := do
  let canLocation := canCastToNum hcan
  let head ← index .canHead 17 (s.joint q).id.toNat
  let s := s.modifyJoint q (withHeads head)
  let bus ← index .deviceJoint 2 canLocation.toNat
  if feedbackTaken s bus q then
    .error .errorHandler
  else
    let v := s.deviceJoint bus
    let s := deviceDictAdd s q ⟨bus, v.generation, v.elems.length⟩
    return { s with
      deviceJoint := Function.update s.deviceJoint bus
        (v.pushBack { cmdErrorDuration := 10, ptr := q, data := {} }) }

section Inversion

variable [DecidableEq ι]

/-- The three things `register_and_init` does when it returns: it looks up the two ids,
    finds the feedback id free, and appends the device. -/
theorem registerAndInit_eq_ok {s t : Storage ι} {hcan : Can} {q : JointPtr ι}
    (h : registerAndInit s hcan q = .ok t) :
    ∃ (head : Fin 17) (bus : Fin 2),
      (s.joint q).id.toNat = head ∧ (canCastToNum hcan).toNat = bus ∧
      feedbackTaken (s.modifyJoint q (withHeads head)) bus q = false ∧
      t = { deviceDictAdd (s.modifyJoint q (withHeads head)) q
              ⟨bus, (s.deviceJoint bus).generation, (s.deviceJoint bus).elems.length⟩ with
            deviceJoint := Function.update s.deviceJoint bus
              ((s.deviceJoint bus).pushBack { cmdErrorDuration := 10, ptr := q, data := {} }) } := by
  obtain ⟨head, hhead, h⟩ := Fallible.bind_eq_ok.mp h
  obtain ⟨bus, hbus, h⟩ := Fallible.bind_eq_ok.mp h
  rw [index_eq_ok] at hhead hbus
  refine ⟨head, bus, hhead, hbus, ?_⟩
  split at h
  · cases h
  · next htaken =>
    rw [Fallible.pure_eq_ok] at h
    subst h
    exact ⟨by simpa using htaken, rfl⟩

end Inversion

/-- `RC_CHANNEL_VALUE_ERROR`. -/
def rcChannelValueError : ℤ := 660

/-- `get_command_dbus_channel`. -/
def getCommandDbusChannel (s : Storage ι) (channel : Fin 5) (channelCoeff : ℚ) : ℚ :=
  channelCoeff * (s.deviceDbus.data.channel channel).toInt / rcChannelValueError

/-- `get_command_default`. The mouse and serial coefficients are not read. -/
def getCommandDefault (conv : Conversion) (s : Storage ι) (channel : Fin 5) (channelCoeff : ℚ)
    (mouse serial : UInt8) : Int16 :=
  if mouse ≠ 0 then 0
  else if serial ≠ 0 then 0
  else if s.deviceDbus.online then conv.toInt16 (getCommandDbusChannel s channel channelCoeff)
  else 0

/-- Off-line, the stick contributes nothing. -/
theorem getCommandDefault_offline {s : Storage ι} (h : s.deviceDbus.online = false)
    (conv : Conversion) (channel : Fin 5) (coeff : ℚ) (mouse serial : UInt8) :
    getCommandDefault conv s channel coeff mouse serial = 0 := by
  simp [getCommandDefault, h]

end DeviceMonitor

end RmMicroControllers
