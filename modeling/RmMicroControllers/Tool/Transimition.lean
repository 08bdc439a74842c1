import RmMicroControllers.Tool.PartControl

/-!
# Frames received

`transimition.cpp`: the feedback frames of the motors and the frames of the remote control.
Both run in interrupts and leave what they decode in the device monitor's registry.
-/

namespace RmMicroControllers

variable {ι : Type}

open DeviceMonitor

/-- The payload of a CAN frame. -/
abbrev CanData := Fin 8 → UInt8

/-- `static_cast<uint16_t>(hi) << 8 | lo`, stored in an `int16_t`. -/
def int16OfBytes (hi lo : UInt8) : Int16 := Int16.ofNat (hi.toNat <<< 8 ||| lo.toNat)

/-- The assignments of `jointUpdate` to `data.joint`. -/
def decodeFeedback (rxData : CanData) : CtrlInfo where
  angle := int16OfBytes (rxData 0) (rxData 1)
  speed := int16OfBytes (rxData 2) (rxData 3)
  current := int16OfBytes (rxData 4) (rxData 5)
  temperature := (rxData 6).toInt8

/-- What `jointUpdate` does to the device that the frame is for. -/
def receiveFeedback (now : UInt32) (rxData : CanData) (d : JointDevice ι) : JointDevice ι :=
  updateSingleIsr now { d with data := decodeFeedback rxData } .kNormal

/-- The loop of `jointUpdate`: the first device that listens to `stdId` takes the frame. The
    first component is the device, if there is one. -/
def jointUpdateLoop (joint : JointPtr ι → JointData) (now stdId : UInt32) (rxData : CanData) :
    List (JointDevice ι) → Option (JointPtr ι) × List (JointDevice ι)
  | [] => (none, [])
  | d :: ds =>
    if (joint d.ptr).headFeedback = stdId then
      (some d.ptr, receiveFeedback now rxData d :: ds)
    else
      let rest := jointUpdateLoop joint now stdId rxData ds
      (rest.1, d :: rest.2)

/-- `jointUpdate`. -/
def jointUpdate (s : Storage ι) (bus : Fin 2) (stdId : UInt32) (rxData : CanData) :
    Option (JointPtr ι) × Storage ι :=
  let r := jointUpdateLoop s.joint s.tick stdId rxData (s.deviceJoint bus).elems
  (r.1, s.setElems bus r.2)

/-- `HAL_CAN_RxFifo0MsgPendingCallback`, with the frame it fetches. -/
def canRxCallback (s : Storage ι) (hcan : Can) (stdId : UInt32) (rxData : CanData) :
    Except Fault (Option (JointPtr ι) × Storage ι) := do
  let canNum := canCastToNum hcan
  if canNum ≠ 0 then
    let bus ← index .deviceJoint 2 canNum.toNat
    return jointUpdate s bus stdId rxData
  else
    .error .errorHandler

/-- The first eighteen bytes of a DBUS buffer. -/
abbrev DbusFrame := Fin 18 → UInt8

/-- `rx_data[lo] | (rx_data[hi] << 8)`. -/
def dbusWord (rxData : DbusFrame) (lo hi : Fin 18) : ℕ :=
  (rxData lo).toNat ||| (rxData hi).toNat <<< 8

/-- The four sticks, less `RC_CH_VALUE_OFFSET`. -/
def dbusStick (rxData : DbusFrame) : Fin 4 → Int16 :=
  let b (i : Fin 18) : ℕ := (rxData i).toNat
  let raw : Fin 4 → ℕ :=
    ![(b 0 ||| b 1 <<< 8) &&& 0x07FF,
      (b 1 >>> 3 ||| b 2 <<< 5) &&& 0x07FF,
      (b 2 >>> 6 ||| b 3 <<< 2 ||| b 4 <<< 10) &&& 0x07FF,
      (b 4 >>> 1 ||| b 5 <<< 7) &&& 0x07FF]
  fun k => Int16.ofInt (raw k - 1024)

/-- The two switches. -/
def dbusButton (rxData : DbusFrame) : Fin 2 → UInt8 :=
  ![UInt8.ofNat ((rxData 5).toNat >>> 4 &&& 0x0003),
    UInt8.ofNat (((rxData 5).toNat >>> 4 &&& 0x000C) >>> 2)]

/-- The check that makes `dbusUpdate` reject a frame. -/
def dbusMismatch (rxData : DbusFrame) : Bool :=
  let stick := dbusStick rxData
  let button := dbusButton rxData
  (stick 0).toInt.natAbs > 660 || (stick 1).toInt.natAbs > 660 ||
    (stick 2).toInt.natAbs > 660 || (stick 3).toInt.natAbs > 660 ||
    button 0 = 0 || button 1 = 0

/-- The data that an accepted frame leaves in `device_dbus_`. -/
def dbusDecode (rxData : DbusFrame) : DbusData :=
  let stick := dbusStick rxData
  { channel := ![stick 0, stick 1, stick 2, stick 3, Int16.ofNat (dbusWord rxData 16 17) - 1024]
    button := dbusButton rxData
    mouseX := Int16.ofNat (dbusWord rxData 6 7)
    mouseY := Int16.ofNat (dbusWord rxData 8 9)
    mouseZ := Int16.ofNat (dbusWord rxData 10 11)
    pressL := rxData 12
    pressR := rxData 13
    key := UInt16.ofNat (dbusWord rxData 14 15) }

/-- `dbusUpdate`: a rejected frame clears the data, and both kinds stamp the device. -/
def dbusUpdate (s : Storage ι) (rxData : DbusFrame) : Bool × Storage ι :=
  if dbusMismatch rxData then
    (false, { s with
      deviceDbus := updateSingleIsr s.tick { s.deviceDbus with data := {} } .kDataMismatch })
  else
    (true, { s with
      deviceDbus :=
        updateSingleIsr s.tick { s.deviceDbus with data := dbusDecode rxData } .kNormal })

/-! ### What a feedback frame changes -/

@[simp] theorem receiveFeedback_ptr (now : UInt32) (rxData : CanData) (d : JointDevice ι) :
    (receiveFeedback now rxData d).ptr = d.ptr := rfl

@[simp] theorem receiveFeedback_online (now : UInt32) (rxData : CanData) (d : JointDevice ι) :
    (receiveFeedback now rxData d).online = d.online := rfl

@[simp] theorem receiveFeedback_tick (now : UInt32) (rxData : CanData) (d : JointDevice ι) :
    (receiveFeedback now rxData d).tick = now := rfl

section Loop

variable {joint : JointPtr ι → JointData} {now stdId : UInt32} {rxData : CanData}

theorem mem_of_jointUpdateLoop {ds : List (JointDevice ι)} {q : JointPtr ι}
    (h : (jointUpdateLoop joint now stdId rxData ds).1 = some q) :
    q ∈ ds.map (·.ptr) ∧ (joint q).headFeedback = stdId := by
  induction ds with
  | nil => cases h
  | cons d ds ih =>
    rw [jointUpdateLoop] at h
    split at h
    · next hd =>
      obtain rfl := Option.some.inj h
      exact ⟨List.mem_cons_self, hd⟩
    · obtain ⟨hmem, hq⟩ := ih h
      exact ⟨List.mem_cons_of_mem _ hmem, hq⟩

/-- Among devices of different joints, exactly the one the loop reports has changed. -/
theorem jointUpdateLoop_eq_map [DecidableEq ι] {ds : List (JointDevice ι)}
    (hnodup : (ds.map (·.ptr)).Nodup) :
    (jointUpdateLoop joint now stdId rxData ds).2 = ds.map fun d =>
      if (jointUpdateLoop joint now stdId rxData ds).1 = some d.ptr then
        receiveFeedback now rxData d
      else d := by
  induction ds with
  | nil => rfl
  | cons d ds ih =>
    rw [List.map_cons, List.nodup_cons] at hnodup
    by_cases hd : (joint d.ptr).headFeedback = stdId
    · have hrest : ∀ e ∈ ds, ¬ some d.ptr = some e.ptr := by
        intro e he heq
        exact hnodup.1 (Option.some.inj heq ▸ List.mem_map_of_mem he)
      have hmap : (ds.map fun e =>
          if some d.ptr = some e.ptr then receiveFeedback now rxData e else e) = ds := by
        conv_rhs => rw [← List.map_id ds]
        exact List.map_congr_left fun e he => if_neg (hrest e he)
      simp only [jointUpdateLoop, hd, if_true, List.map_cons]
      rw [hmap]
    · have hhead : ¬ (jointUpdateLoop joint now stdId rxData ds).1 = some d.ptr :=
        fun h => hnodup.1 (mem_of_jointUpdateLoop h).1
      simp only [jointUpdateLoop, hd, if_false, List.map_cons, if_neg hhead]
      rw [← ih hnodup.2]

/-- What a feedback frame keeps of every device, the loop keeps. -/
theorem jointUpdateLoop_map {β : Type} {f : JointDevice ι → β}
    (hf : ∀ d, f (receiveFeedback now rxData d) = f d) (ds : List (JointDevice ι)) :
    (jointUpdateLoop joint now stdId rxData ds).2.map f = ds.map f := by
  induction ds with
  | nil => rfl
  | cons d ds ih =>
    rw [jointUpdateLoop]
    split
    · rw [List.map_cons, List.map_cons, hf]
    · rw [List.map_cons, List.map_cons, ih]

end Loop

/-- What a feedback frame keeps of every device is kept on both buses. -/
theorem jointUpdate_map {β : Type} {f : JointDevice ι → β} (s : Storage ι) (bus : Fin 2)
    (stdId : UInt32) {rxData : CanData} (hf : ∀ now d, f (receiveFeedback now rxData d) = f d)
    (b : Fin 2) :
    ((jointUpdate s bus stdId rxData).2.deviceJoint b).elems.map f =
      (s.deviceJoint b).elems.map f := by
  by_cases hb : b = bus
  · subst hb
    simp only [jointUpdate, Storage.setElems, Function.update_self]
    exact jointUpdateLoop_map (hf _) _
  · simp [jointUpdate, Storage.setElems, hb]

theorem canRxCallback_eq_ok {s t : Storage ι} {hcan : Can} {stdId : UInt32} {rxData : CanData}
    {r : Option (JointPtr ι)} (h : canRxCallback s hcan stdId rxData = .ok (r, t)) :
    ∃ bus : Fin 2, (canCastToNum hcan).toNat = bus ∧ jointUpdate s bus stdId rxData = (r, t) := by
  unfold canRxCallback at h
  dsimp only at h
  split at h
  · obtain ⟨bus, hbus, h⟩ := Fallible.bind_eq_ok.mp h
    exact ⟨bus, index_eq_ok.mp hbus, Fallible.pure_eq_ok.mp h⟩
  · cases h

end RmMicroControllers
