import Mathlib.Tactic.FinCases
import RmMicroControllers.Tool.Transimition

/-!
# The device monitor's task

`DeviceMonitor::update_to_controller`: judge every device by the age of its last frame, copy
the feedback of the motors that are on-line into their joints, and count on-line edges.
-/

namespace RmMicroControllers

variable {ι : Type}

namespace DeviceMonitor

/-- The test that decides whether a device is on-line: `clock - device.tick > 30`, unsigned,
    counts as silence. -/
def judge {π δ : Type} (clock : UInt32) (device : DeviceStatus π δ) : DeviceStatus π δ :=
  { device with
    offlineTime := clock - device.tick
    online := !(clock - device.tick > 30) }

variable [DecidableEq ι]

/-- The two `memmove`s: a device judged on-line passes its feedback to its joint. -/
def storeFeedback (device : JointDevice ι) (s : Storage ι) : Storage ι :=
  if device.online then s.modifyJoint device.ptr (·.pushFeedback device.data) else s

/-- The body of the loop over the joint devices, with the clock the device is judged by. -/
def updateDevice (clock : UInt32) (device : JointDevice ι) (s : Storage ι) :
    Except Fault (JointDevice ι × Storage ι) := do
  let device' := judge clock device
  let s := storeFeedback device' s
  if device.online ≠ device'.online then
    let s ← PartControl.setOnlineCnt s (s.joint device.ptr).canNum (s.joint device.ptr).id
      (if device'.online then 1 else 255)
    return (device', s)
  else
    return (device', s)

/-- The loop over one vector of joint devices. -/
def updateDevices : List (JointDevice ι) → Storage ι →
    Except Fault (List (JointDevice ι) × Storage ι)
  | [], s => return ([], s)
  | d :: ds, s => do
    let (d', s) ← updateDevice s.tick d s
    let (ds', s) ← updateDevices ds s
    return (d' :: ds', s)

/-- The loop over the vector of one bus. -/
def updateBus (s : Storage ι) (bus : Fin 2) : Except Fault (Storage ι) := do
  let (ds, s) ← updateDevices (s.deviceJoint bus).elems s
  return s.setElems bus ds

/-- `update_to_controller`. -/
def updateToController (s : Storage ι) : Except Fault (Storage ι) :=
  [0, 1].foldlM updateBus { s with deviceDbus := judge s.tick s.deviceDbus }

/-! ### What the loops leave alone -/

omit [DecidableEq ι] in
@[simp] theorem judge_ptr {π δ : Type} (clock : UInt32) (d : DeviceStatus π δ) :
    (judge clock d).ptr = d.ptr := rfl

omit [DecidableEq ι] in
@[simp] theorem judge_tick {π δ : Type} (clock : UInt32) (d : DeviceStatus π δ) :
    (judge clock d).tick = d.tick := rfl

omit [DecidableEq ι] in
@[simp] theorem judge_data {π δ : Type} (clock : UInt32) (d : DeviceStatus π δ) :
    (judge clock d).data = d.data := rfl

/-- A device is judged on-line when its clock difference is at most 30. -/
theorem judge_online {π δ : Type} (clock : UInt32) (d : DeviceStatus π δ) :
    (judge clock d).online = true ↔ (clock - d.tick).toNat ≤ 30 := by
  have h30 : (30 : UInt32).toNat = 30 := rfl
  simp [judge, UInt32.le_iff_toNat_le, h30]

/-- What the monitor's task writes: the feedback of the joints and the on-line counters. -/
structure MonitorFrame (s t : Storage ι) : Prop where
  hcan : ∀ p, (t.part p).hcan = (s.part p).hcan
  jointCnt : ∀ p, (t.part p).jointCnt = (s.part p).jointCnt
  jointIdPtr : ∀ p, (t.part p).jointIdPtr = (s.part p).jointIdPtr
  joint : ∀ q, ∃ feedback, t.joint q = { s.joint q with feedback := feedback }
  tick : t.tick = s.tick
  deviceJoint : t.deviceJoint = s.deviceJoint
  deviceDbus : t.deviceDbus = s.deviceDbus
  deviceDict : t.deviceDict = s.deviceDict
  jointTarget : t.jointTarget = s.jointTarget
  canTx : t.canTx = s.canTx

namespace MonitorFrame

omit [DecidableEq ι] in
theorem refl (s : Storage ι) : MonitorFrame s s :=
  ⟨fun _ => rfl, fun _ => rfl, fun _ => rfl, fun q => ⟨(s.joint q).feedback, rfl⟩,
    rfl, rfl, rfl, rfl, rfl, rfl⟩

omit [DecidableEq ι] in
theorem trans {s t u : Storage ι} (h₁ : MonitorFrame s t) (h₂ : MonitorFrame t u) :
    MonitorFrame s u where
  hcan p := (h₂.hcan p).trans (h₁.hcan p)
  jointCnt p := (h₂.jointCnt p).trans (h₁.jointCnt p)
  jointIdPtr p := (h₂.jointIdPtr p).trans (h₁.jointIdPtr p)
  joint q := by
    obtain ⟨f₁, h₁⟩ := h₁.joint q
    obtain ⟨f₂, h₂⟩ := h₂.joint q
    exact ⟨f₂, by rw [h₂, h₁]⟩
  tick := h₂.tick.trans h₁.tick
  deviceJoint := h₂.deviceJoint.trans h₁.deviceJoint
  deviceDbus := h₂.deviceDbus.trans h₁.deviceDbus
  deviceDict := h₂.deviceDict.trans h₁.deviceDict
  jointTarget := h₂.jointTarget.trans h₁.jointTarget
  canTx := h₂.canTx.trans h₁.canTx

omit [DecidableEq ι] in
theorem addOnlineCnt (s : Storage ι) (bus : Fin 2) (group : Fin 16) (change : UInt8) :
    MonitorFrame s (s.addOnlineCnt bus group change) :=
  ⟨fun _ => rfl, fun _ => rfl, fun _ => rfl, fun q => ⟨(s.joint q).feedback, rfl⟩,
    rfl, rfl, rfl, rfl, rfl, rfl⟩

theorem storeFeedback (d : JointDevice ι) (s : Storage ι) :
    MonitorFrame s (storeFeedback d s) := by
  rw [DeviceMonitor.storeFeedback]
  split
  · refine ⟨by simp, by simp, by simp, fun q => ?_, rfl, rfl, rfl, rfl, rfl, rfl⟩
    rw [Storage.modifyJoint_joint]
    split
    · next h => exact ⟨_, by rw [h]; rfl⟩
    · exact ⟨_, rfl⟩
  · exact refl s

end MonitorFrame

/-- One pass of the loop body: the device is judged, and an edge moves the counter that its
    joint's `can_num` and `id` select. -/
theorem updateDevice_eq_ok {clock : UInt32} {d d' : JointDevice ι} {s t : Storage ι}
    (h : updateDevice clock d s = .ok (d', t)) :
    d' = judge clock d ∧
      ((d.online = d'.online ∧ t = storeFeedback d' s) ∨
        (d.online ≠ d'.online ∧ ∃ (bus : Fin 2) (group : Fin 16),
          (s.joint d.ptr).canNum.toNat = bus ∧ (s.joint d.ptr).id.toNat >>> 2 = group ∧
          t = (storeFeedback d' s).addOnlineCnt bus group (if d'.online then 1 else 255))) := by
  rw [updateDevice] at h
  obtain ⟨f, hf⟩ := (MonitorFrame.storeFeedback (judge clock d) s).joint d.ptr
  simp only [hf] at h
  split at h
  · next hedge =>
    obtain ⟨u, hu, h⟩ := Fallible.bind_eq_ok.mp h
    obtain ⟨bus, group, hbus, hgroup, rfl⟩ := PartControl.setOnlineCnt_eq_ok.mp hu
    simp only [Fallible.pure_eq_ok, Prod.mk.injEq] at h
    obtain ⟨rfl, rfl⟩ := h
    exact ⟨rfl, .inr ⟨hedge, bus, group, hbus, hgroup, rfl⟩⟩
  · next hedge =>
    simp only [Fallible.pure_eq_ok, Prod.mk.injEq] at h
    obtain ⟨rfl, rfl⟩ := h
    exact ⟨rfl, .inl ⟨by simpa using hedge, rfl⟩⟩

theorem updateDevice_frame {clock : UInt32} {d d' : JointDevice ι} {s t : Storage ι}
    (h : updateDevice clock d s = .ok (d', t)) : MonitorFrame s t := by
  obtain ⟨-, ⟨-, rfl⟩ | ⟨-, bus, group, -, -, rfl⟩⟩ := updateDevice_eq_ok h
  · exact .storeFeedback _ _
  · exact (MonitorFrame.storeFeedback _ _).trans (.addOnlineCnt _ _ _ _)

/-- The loop judges every device by the same clock. -/
theorem updateDevices_eq_ok {ds ds' : List (JointDevice ι)} {s t : Storage ι}
    (h : updateDevices ds s = .ok (ds', t)) :
    ds' = ds.map (judge s.tick) ∧ MonitorFrame s t := by
  induction ds generalizing s ds' with
  | nil =>
    simp only [updateDevices, Fallible.pure_eq_ok, Prod.mk.injEq] at h
    obtain ⟨rfl, rfl⟩ := h
    exact ⟨rfl, .refl s⟩
  | cons d ds ih =>
    obtain ⟨⟨d', u⟩, hd, h⟩ := Fallible.bind_eq_ok.mp h
    obtain ⟨⟨ds'', v⟩, hds, h⟩ := Fallible.bind_eq_ok.mp h
    simp only [Fallible.pure_eq_ok, Prod.mk.injEq] at h
    obtain ⟨rfl, rfl⟩ := h
    have hframe := updateDevice_frame hd
    obtain ⟨rfl, hrest⟩ := ih hds
    exact ⟨by rw [hframe.tick, (updateDevice_eq_ok hd).1, List.map_cons], hframe.trans hrest⟩

/-- What a whole `update_to_controller` does: every device is judged by the tick of the call. -/
structure MonitorPass (s t : Storage ι) : Prop where
  hcan : ∀ p, (t.part p).hcan = (s.part p).hcan
  jointCnt : ∀ p, (t.part p).jointCnt = (s.part p).jointCnt
  jointIdPtr : ∀ p, (t.part p).jointIdPtr = (s.part p).jointIdPtr
  joint : ∀ q, ∃ feedback, t.joint q = { s.joint q with feedback := feedback }
  tick : t.tick = s.tick
  deviceJoint : ∀ bus, t.deviceJoint bus =
    { s.deviceJoint bus with elems := (s.deviceJoint bus).elems.map (judge s.tick) }
  deviceDbus : t.deviceDbus = judge s.tick s.deviceDbus
  deviceDict : t.deviceDict = s.deviceDict
  jointTarget : t.jointTarget = s.jointTarget
  canTx : t.canTx = s.canTx

theorem updateBus_eq_ok {s t : Storage ι} {bus : Fin 2} (h : updateBus s bus = .ok t) :
    ∃ u, updateDevices (s.deviceJoint bus).elems s =
        .ok ((s.deviceJoint bus).elems.map (judge s.tick), u) ∧
      MonitorFrame s u ∧ t = u.setElems bus ((s.deviceJoint bus).elems.map (judge s.tick)) := by
  obtain ⟨⟨ds, u⟩, hu, h⟩ := Fallible.bind_eq_ok.mp h
  rw [Fallible.pure_eq_ok] at h
  obtain ⟨rfl, hframe⟩ := updateDevices_eq_ok hu
  exact ⟨u, hu, hframe, h.symm⟩

/-- The two buses are updated one after the other. -/
theorem updateToController_eq_ok {s t : Storage ι} (h : updateToController s = .ok t) :
    ∃ u, updateBus { s with deviceDbus := judge s.tick s.deviceDbus } 0 = .ok u ∧
      updateBus u 1 = .ok t := by
  simp only [updateToController, List.foldlM_cons, List.foldlM_nil] at h
  obtain ⟨u, hu, h⟩ := Fallible.bind_eq_ok.mp h
  obtain ⟨v, hv, h⟩ := Fallible.bind_eq_ok.mp h
  rw [Fallible.pure_eq_ok] at h
  exact ⟨u, hu, h ▸ hv⟩

theorem updateToController_pass {s t : Storage ι} (h : updateToController s = .ok t) :
    MonitorPass s t := by
  obtain ⟨u, hu, ht⟩ := updateToController_eq_ok h
  obtain ⟨u', -, hu', rfl⟩ := updateBus_eq_ok hu
  obtain ⟨t', -, ht', rfl⟩ := updateBus_eq_ok ht
  -- the storage between the two buses differs from the first one in bus 0 only
  have htick : u'.tick = s.tick := hu'.tick
  have hdev : u'.deviceJoint = s.deviceJoint := hu'.deviceJoint
  refine
    { hcan := fun p => (ht'.hcan p).trans (hu'.hcan p)
      jointCnt := fun p => (ht'.jointCnt p).trans (hu'.jointCnt p)
      jointIdPtr := fun p => (ht'.jointIdPtr p).trans (hu'.jointIdPtr p)
      joint := fun q => ?_
      tick := ht'.tick.trans htick
      deviceJoint := fun bus => ?_
      deviceDbus := ht'.deviceDbus.trans hu'.deviceDbus
      deviceDict := ht'.deviceDict.trans hu'.deviceDict
      jointTarget := ht'.jointTarget.trans hu'.jointTarget
      canTx := ht'.canTx.trans hu'.canTx }
  · obtain ⟨f, hf⟩ := hu'.joint q
    obtain ⟨f', hf'⟩ := ht'.joint q
    exact ⟨f', hf'.trans (congrArg (fun j => { j with feedback := f' }) hf)⟩
  · have hdev' := ht'.deviceJoint
    fin_cases bus <;> simp [Storage.setElems, hdev', hdev, htick]

end DeviceMonitor

end RmMicroControllers
