import RmMicroControllers.Tool.Pid

/-!
# The static storage of the firmware

Everything the CAN and remote-control path keeps between calls: the tick counter, the
`PartControl` objects with their joints, the device monitor's registry, the two arrays that
all `PartControl` objects share, and the frames handed to the CAN peripheral. `ι` names the
`PartControl` objects.

An array of the source is a function on `Fin n`, so an element outside it cannot be read or
written; `index` is the only way from a computed index to such a `Fin n`.

## Main definitions

- `Fault` — how a call can fail to return
- `DeviceStatus`, `DeviceVector` — the registry elements and the `std::vector` that holds them
- `PartControl`, `Storage`
-/

namespace RmMicroControllers

/-- The arrays of the source whose indices are computed. -/
inductive ArrayName where
  | deviceJoint
  | jointTarget
  | jointCmdGroupOnlineCnt
  | jointCmdGroupCnt
  | joint
  | jointIdPtr
  | canHead
  | angleCalibration
  | temp
  deriving DecidableEq

/-- How a call can fail to return: an access outside an array, a call of
    `freertosErrorHandler` (whose loop never ends), or a `DeviceStatus` pointer that no
    longer points into its vector. -/
inductive Fault where
  | outOfBounds (array : ArrayName) (i : ℕ)
  | errorHandler
  | danglingStatus
  deriving DecidableEq

/-- Use `i` as an index into an array of `n` elements. -/
def index (array : ArrayName) (n i : ℕ) : Except Fault (Fin n) :=
  if h : i < n then .ok ⟨i, h⟩ else .error (.outOfBounds array i)

theorem index_of_lt {n i : ℕ} (array : ArrayName) (h : i < n) :
    index array n i = .ok ⟨i, h⟩ := dif_pos h

theorem index_eq_ok {array : ArrayName} {n i : ℕ} {k : Fin n} :
    index array n i = .ok k ↔ i = k := by
  rw [index]
  split
  · next h => simp [Fin.ext_iff]
  · next h => simp only [reduceCtorEq, false_iff]; omega

/-- The `CAN_HandleTypeDef` a pointer designates: one of the two buses, or anything else. -/
inductive Can where
  | hcan1
  | hcan2
  | other
  deriving DecidableEq

/-- `DeviceErrorList`. -/
inductive DeviceErrorList where
  | kNormal
  | kOffline
  | kDataMismatch
  | kDataInterrupt
  deriving DecidableEq

/-- `DbusData`. -/
structure DbusData where
  channel : Fin 5 → Int16 := fun _ => 0
  button : Fin 2 → UInt8 := fun _ => 0
  mouseX : Int16 := 0
  mouseY : Int16 := 0
  mouseZ : Int16 := 0
  pressL : UInt8 := 0
  pressR : UInt8 := 0
  key : UInt16 := 0
  deriving DecidableEq

/-- `DeviceStatus`, with the member of each union that the device uses: `π` is what `ptr`
    holds and `δ` what `data` holds. `online_time` and `enable` are read by nothing. -/
structure DeviceStatus (π δ : Type) where
  cmdErrorDuration : UInt32 := 0
  ptr : π
  data : δ
  offlineTime : UInt32 := 0
  tick : UInt32 := 0
  online : Bool := false
  error : DeviceErrorList := .kNormal

/-- A `JointData *` into the `joint_` array of one `PartControl` object. -/
abbrev JointPtr (ι : Type) := ι × Fin 6

/-- The status of a motor on a CAN bus. -/
abbrev JointDevice (ι : Type) := DeviceStatus (JointPtr ι) CtrlInfo

/-- `std::vector<DeviceStatus>`: the address of an element is the generation of the storage
    together with its index, and a `push_back` beyond the capacity moves all elements to new
    storage. -/
structure DeviceVector (ι : Type) where
  elems : List (JointDevice ι) := []
  capacity : ℕ := 8
  generation : ℕ := 0

namespace DeviceVector

variable {ι : Type}

/-- `push_back`. -/
def pushBack (v : DeviceVector ι) (d : JointDevice ι) : DeviceVector ι :=
  if v.elems.length < v.capacity then { v with elems := v.elems ++ [d] }
  else
    { elems := v.elems ++ [d]
      capacity := 2 * v.capacity
      generation := v.generation + 1 }

@[simp]
theorem pushBack_elems (v : DeviceVector ι) (d : JointDevice ι) :
    (v.pushBack d).elems = v.elems ++ [d] := by
  rw [pushBack]
  split <;> rfl

end DeviceVector

/-- A `DeviceStatus *` into one of the vectors of `device_joint_`. -/
structure DevicePtr where
  bus : Fin 2
  generation : ℕ
  pos : ℕ
  deriving DecidableEq

/-- The members of a `PartControl` object. -/
structure PartControl where
  hcan : Can := .other
  jointCnt : UInt8 := 0
  jointCmdGroupCnt : Fin 4 → UInt8 := fun _ => 0
  joint : Fin 6 → JointData := fun _ => {}
  jointIdPtr : Fin 16 → Option (Fin 6) := fun _ => none

/-- A frame handed to `HAL_CAN_AddTxMessage`. -/
structure CanFrame where
  hcan : Can
  stdId : UInt32
  data : Fin 8 → UInt8
  deriving DecidableEq

/-- The static storage. `canTx` lists the frames handed to the CAN peripherals so far. -/
structure Storage (ι : Type) where
  tick : UInt32 := 0
  part : ι → PartControl
  deviceJoint : Fin 2 → DeviceVector ι := fun _ => {}
  deviceDbus : DeviceStatus Unit DbusData := { ptr := (), data := {} }
  deviceDict : List (JointPtr ι × DevicePtr) := []
  jointTarget : Fin 2 → Fin 16 → CtrlInfo := fun _ _ => {}
  jointCmdGroupOnlineCnt : Fin 2 → Fin 16 → UInt8 := fun _ _ => 0
  canTx : List CanFrame := []

/-- `gCanHeadTarget`. -/
def gCanHeadTarget : Fin 17 → UInt32 :=
  ![0, 0x200, 0x200, 0x200, 0x200, 0x1FF, 0x1FF, 0x1FF, 0x1FF, 0x2FF, 0x2FF, 0x2FF,
    0x000, 0x000, 0x000, 0x000, 0]

/-- `gCanHeadFeedback`. -/
def gCanHeadFeedback : Fin 17 → UInt32 :=
  ![0, 0x201, 0x202, 0x203, 0x204, 0x205, 0x206, 0x207, 0x208, 0x209, 0x20A, 0x20B,
    0x000, 0x000, 0x000, 0x000, 0]

namespace Storage

variable {ι : Type}

/-- Dereference a `JointData *`. -/
def joint (s : Storage ι) (q : JointPtr ι) : JointData := (s.part q.1).joint q.2

variable [DecidableEq ι]

/-- Change the members of one `PartControl` object. -/
def modifyPart (s : Storage ι) (p : ι) (f : PartControl → PartControl) : Storage ι :=
  { s with part := Function.update s.part p (f (s.part p)) }

/-- Write through a `JointData *`. -/
def modifyJoint (s : Storage ι) (q : JointPtr ι) (f : JointData → JointData) : Storage ι :=
  s.modifyPart q.1 fun pc => { pc with joint := Function.update pc.joint q.2 (f (pc.joint q.2)) }

omit [DecidableEq ι] in
/-- `joint_cmd_group_online_cnt_[bus][group] += change`. -/
def addOnlineCnt (s : Storage ι) (bus : Fin 2) (group : Fin 16) (change : UInt8) : Storage ι :=
  { s with
    jointCmdGroupOnlineCnt := Function.update s.jointCmdGroupOnlineCnt bus
      (Function.update (s.jointCmdGroupOnlineCnt bus) group
        (s.jointCmdGroupOnlineCnt bus group + change)) }

omit [DecidableEq ι] in
/-- `joint_target_[bus][id] = info`. -/
def setJointTarget (s : Storage ι) (bus : Fin 2) (id : Fin 16) (info : CtrlInfo) : Storage ι :=
  { s with
    jointTarget := Function.update s.jointTarget bus
      (Function.update (s.jointTarget bus) id info) }

omit [DecidableEq ι] in
/-- Replace the elements of the vector of one bus. -/
def setElems (s : Storage ι) (bus : Fin 2) (ds : List (JointDevice ι)) : Storage ι :=
  { s with
    deviceJoint := Function.update s.deviceJoint bus { s.deviceJoint bus with elems := ds } }

section Frame

variable (s : Storage ι) (p : ι) (g : PartControl → PartControl) (q : JointPtr ι)
  (f : JointData → JointData)

@[simp] theorem modifyPart_tick : (s.modifyPart p g).tick = s.tick := rfl
@[simp] theorem modifyPart_deviceJoint : (s.modifyPart p g).deviceJoint = s.deviceJoint := rfl
@[simp] theorem modifyPart_deviceDbus : (s.modifyPart p g).deviceDbus = s.deviceDbus := rfl
@[simp] theorem modifyPart_deviceDict : (s.modifyPart p g).deviceDict = s.deviceDict := rfl
@[simp] theorem modifyPart_jointTarget : (s.modifyPart p g).jointTarget = s.jointTarget := rfl
@[simp] theorem modifyPart_onlineCnt :
    (s.modifyPart p g).jointCmdGroupOnlineCnt = s.jointCmdGroupOnlineCnt := rfl
@[simp] theorem modifyPart_canTx : (s.modifyPart p g).canTx = s.canTx := rfl
@[simp] theorem modifyPart_self : (s.modifyPart p g).part p = g (s.part p) := by
  simp [modifyPart]
theorem modifyPart_part (p' : ι) :
    (s.modifyPart p g).part p' = if p' = p then g (s.part p) else s.part p' := by
  simp [modifyPart, Function.update_apply]
theorem modifyPart_of_ne {p' : ι} (h : p' ≠ p) : (s.modifyPart p g).part p' = s.part p' := by
  simp [modifyPart, h]

@[simp] theorem modifyJoint_tick : (s.modifyJoint q f).tick = s.tick := rfl
@[simp] theorem modifyJoint_deviceJoint : (s.modifyJoint q f).deviceJoint = s.deviceJoint := rfl
@[simp] theorem modifyJoint_deviceDbus : (s.modifyJoint q f).deviceDbus = s.deviceDbus := rfl
@[simp] theorem modifyJoint_deviceDict : (s.modifyJoint q f).deviceDict = s.deviceDict := rfl
@[simp] theorem modifyJoint_jointTarget : (s.modifyJoint q f).jointTarget = s.jointTarget := rfl
@[simp] theorem modifyJoint_onlineCnt :
    (s.modifyJoint q f).jointCmdGroupOnlineCnt = s.jointCmdGroupOnlineCnt := rfl
@[simp] theorem modifyJoint_canTx : (s.modifyJoint q f).canTx = s.canTx := rfl

@[simp]
theorem modifyJoint_hcan (p' : ι) : ((s.modifyJoint q f).part p').hcan = (s.part p').hcan := by
  by_cases h : p' = q.1
  · subst h; simp [modifyJoint]
  · simp [modifyJoint, modifyPart_of_ne _ _ _ h]

@[simp]
theorem modifyJoint_jointCnt (p' : ι) :
    ((s.modifyJoint q f).part p').jointCnt = (s.part p').jointCnt := by
  by_cases h : p' = q.1
  · subst h; simp [modifyJoint]
  · simp [modifyJoint, modifyPart_of_ne _ _ _ h]

@[simp]
theorem modifyJoint_jointIdPtr (p' : ι) :
    ((s.modifyJoint q f).part p').jointIdPtr = (s.part p').jointIdPtr := by
  by_cases h : p' = q.1
  · subst h; simp [modifyJoint]
  · simp [modifyJoint, modifyPart_of_ne _ _ _ h]

@[simp]
theorem modifyJoint_self : (s.modifyJoint q f).joint q = f (s.joint q) := by
  simp [modifyJoint, joint]

theorem modifyJoint_of_ne {q' : JointPtr ι} (h : q' ≠ q) :
    (s.modifyJoint q f).joint q' = s.joint q' := by
  by_cases hp : q'.1 = q.1
  · have hi : q'.2 ≠ q.2 := fun hi => h (Prod.ext hp hi)
    simp [modifyJoint, joint, hp, hi]
  · simp [modifyJoint, joint, modifyPart_of_ne _ _ _ hp]

/-- A joint seen after the members of one object have changed. -/
theorem modifyPart_joint (q' : JointPtr ι) :
    (s.modifyPart p g).joint q' = if q'.1 = p then (g (s.part p)).joint q'.2 else s.joint q' := by
  rw [joint]
  rw [modifyPart_part]
  split <;> rfl

/-- A change of one object that touches a single joint leaves every other joint alone. -/
theorem modifyPart_joint_of_ne {p : ι} {i : Fin 6} {q' : JointPtr ι} (h : q' ≠ (p, i))
    (hg : ∀ k, k ≠ i → (g (s.part p)).joint k = (s.part p).joint k) :
    (s.modifyPart p g).joint q' = s.joint q' := by
  rw [modifyPart_joint]
  split
  · next hp =>
    rw [hg _ fun hk => h (Prod.ext hp hk), ← hp]
    rfl
  · rfl

/-- A write through one pointer seen through another. -/
theorem modifyJoint_joint (q' : JointPtr ι) :
    (s.modifyJoint q f).joint q' = if q' = q then f (s.joint q) else s.joint q' := by
  split
  · next h => rw [h, modifyJoint_self]
  · next h => exact modifyJoint_of_ne s q f h

end Frame

end Storage

/-! ### The device of a joint -/

section Find

variable {ι : Type} [DecidableEq ι] {ds : List (JointDevice ι)}

/-- Among devices of different joints, the search for a joint finds its device. -/
theorem find_device (hnodup : (ds.map (·.ptr)).Nodup)
    {d : JointDevice ι} (hd : d ∈ ds) : ds.find? (fun d' => d'.ptr = d.ptr) = some d := by
  induction ds with
  | nil => cases hd
  | cons d' ds ih =>
    rw [List.map_cons, List.nodup_cons] at hnodup
    rcases List.mem_cons.mp hd with rfl | hd
    · simp
    · have hne : d'.ptr ≠ d.ptr := fun heq => hnodup.1 (heq ▸ List.mem_map_of_mem hd)
      rw [List.find?_cons_of_neg (by simpa using hne)]
      exact ih hnodup.2 hd

/-- The search for a joint that no device has finds nothing. -/
theorem find_device_eq_none {q : JointPtr ι} (hq : q ∉ ds.map (·.ptr)) :
    ds.find? (fun d => d.ptr = q) = none :=
  List.find?_eq_none.mpr fun _ hd heq => hq (of_decide_eq_true heq ▸ List.mem_map_of_mem hd)

end Find

end RmMicroControllers
