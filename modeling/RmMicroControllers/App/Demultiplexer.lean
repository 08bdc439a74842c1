import RmMicroControllers.App.Registry

/-!
# Demultiplexing of the feedback frames

Registrations on HCAN1, by `joint_add` or by a call of `register_and_init` for a joint that
is filled in otherwise, mixed with every other call of the system. The storage may hold any
joints at the start; the registry is empty.

## Main results

- `RegisteredOn1.listening` — a registration keeps the feedback ids pairwise distinct
- `demultiplexed_of_run` — every device holds the decoding of the last frame that carries its id
-/

namespace RmMicroControllers

open Transition DeviceMonitor

variable {ι : Type}

/-- A call of the system, or `register_and_init` for a joint on HCAN1. -/
inductive RegistryEvent (ι : Type) where
  | register (q : JointPtr ι)
  | call (e : Event ι)

/-- Storage before the first registration, with arbitrary joints. -/
def unregistered (part : ι → PartControl) : Storage ι := { part := part }

variable [DecidableEq ι]

def registryStep (s : Storage ι) : RegistryEvent ι → Except Fault (Storage ι)
  | .register q => registerAndInit s .hcan1 q
  | .call e => step s e

/-- Joints are registered with final ids from 1 to 11, on HCAN1. -/
def FinalIds (s : Storage ι) : RegistryEvent ι → Prop
  | .register q => 1 ≤ (s.joint q).id.toNat ∧ (s.joint q).id.toNat ≤ 11
  | .call e => RegistersOnHcan1 s e

instance (s : Storage ι) : (e : RegistryEvent ι) → Decidable (FinalIds s e)
  | .register _ => inferInstanceAs (Decidable (_ ∧ _))
  | .call e => inferInstanceAs (Decidable (RegistersOnHcan1 s e))

/-! ### What a registration does -/

/-- The storage `t` after a registration of joint `q` on HCAN1 in `s`. -/
structure RegisteredOn1 (s : Storage ι) (q : JointPtr ι) (t : Storage ι) : Prop where
  id_pos : 1 ≤ (t.joint q).id.toNat
  id_le : (t.joint q).id.toNat ≤ 11
  head : ∃ head : Fin 17, (t.joint q).id.toNat = head ∧
    (t.joint q).headFeedback = gCanHeadFeedback head
  fresh : ∀ d ∈ (s.deviceJoint 1).elems,
    d.ptr ≠ q ∧ (s.joint d.ptr).headFeedback ≠ (t.joint q).headFeedback
  joint : ∀ q', q' ≠ q → t.joint q' = s.joint q'
  bus1 : t.deviceJoint 1 =
    (s.deviceJoint 1).pushBack { cmdErrorDuration := 10, ptr := q, data := {} }
  bus0 : t.deviceJoint 0 = s.deviceJoint 0
  deviceDict : t.deviceDict = dictInsert s.deviceDict q
    ⟨1, (s.deviceJoint 1).generation, (s.deviceJoint 1).elems.length⟩

theorem registeredOn1_register {s t : Storage ι} {q : JointPtr ι}
    (hid : 1 ≤ (s.joint q).id.toNat ∧ (s.joint q).id.toNat ≤ 11)
    (h : registerAndInit s .hcan1 q = .ok t) : RegisteredOn1 s q t := by
  obtain ⟨head, bus, hhead, hbus, htaken, rfl⟩ := registerAndInit_eq_ok h
  obtain rfl : bus = 1 := Fin.ext hbus.symm
  have hself : (s.modifyJoint q (withHeads head)).joint q = withHeads head (s.joint q) :=
    s.modifyJoint_self q _
  refine
    { id_pos := ?_
      id_le := ?_
      head := ⟨head, ?_, ?_⟩
      fresh := fun d hd => ?_
      joint := fun q' hq' => s.modifyJoint_of_ne q _ hq'
      bus1 := by simp
      bus0 := by simp
      deviceDict := rfl }
  · show 1 ≤ ((s.modifyJoint q (withHeads head)).joint q).id.toNat
    rw [hself]
    exact hid.1
  · show ((s.modifyJoint q (withHeads head)).joint q).id.toNat ≤ 11
    rw [hself]
    exact hid.2
  · show ((s.modifyJoint q (withHeads head)).joint q).id.toNat = head
    rw [hself]
    exact hhead
  · show ((s.modifyJoint q (withHeads head)).joint q).headFeedback = _
    rw [hself]
    rfl
  · have hne := List.any_eq_false.mp htaken d hd
    have hptr : d.ptr ≠ q := fun heq => hne (by rw [heq]; exact beq_self_eq_true _)
    refine ⟨hptr, fun heq => hne ?_⟩
    rw [s.modifyJoint_of_ne q _ hptr]
    exact beq_iff_eq.mpr heq

theorem registeredOn1_jointAdd {s t : Storage ι} {p : ι} {i : Fin 6} {bus : Fin 2}
    {head : Fin 17} {slot group : Fin 16} {cmdGroup : Fin 4} {id : UInt8} {coeff : JointCoeff}
    (h : PartControl.JointAdded s p i bus head slot group cmdGroup id coeff t)
    (hcan : (s.part p).hcan = .hcan1) (hlo : 1 ≤ id.toNat) (hhi : id.toNat ≤ 11) :
    RegisteredOn1 s (p, i) t := by
  obtain rfl : bus = 1 := by
    have hbus := h.bus_eq
    rw [hcan] at hbus
    exact Fin.ext hbus.symm
  have hself := h.joint_self
  refine
    { id_pos := by rw [hself]; exact hlo
      id_le := by rw [hself]; exact hhi
      head := ⟨head, by rw [hself]; exact h.head_eq, by rw [hself]; rfl⟩
      fresh := fun d hd => ⟨(h.not_taken d hd).1, ?_⟩
      joint := fun q' hq' => h.joint_ne hq'
      bus1 := by rw [h.deviceJoint, Function.update_self]
      bus0 := h.deviceJoint_ne (by decide)
      deviceDict := h.deviceDict }
  rw [hself]
  exact (h.not_taken d hd).2

/-- Whether an event registers a joint. -/
def RegistryEvent.Registers : RegistryEvent ι → Prop
  | .register _ | .call (.jointAdd _ _ _ _) => True
  | _ => False

instance : DecidablePred (RegistryEvent.Registers (ι := ι))
  | .register _ | .call (.jointAdd _ _ _ _) => .isTrue trivial
  | .call .tick | .call (.canRx _ _ _) | .call (.dbusRx _) | .call .updateToController
  | .call (.control _ _ _) | .call (.updateTarget _) | .call .setCanCurrent => .isFalse id

/-- A registering event registers one joint. -/
theorem registeredOn1_of_step {s t : Storage ι} {e : RegistryEvent ι} (he : e.Registers)
    (hid : FinalIds s e) (h : registryStep s e = .ok t) : ∃ q, RegisteredOn1 s q t := by
  cases e with
  | register q => exact ⟨q, registeredOn1_register hid h⟩
  | call e =>
    cases e with
    | jointAdd p jointType id coeff =>
      obtain ⟨i, bus, head, slot, group, cmdGroup, hadd⟩ := jointAdded_of_step h
      exact ⟨(p, i), registeredOn1_jointAdd hadd hid.1 hid.2.1 hid.2.2⟩
    | _ => exact he.elim

/-- Every other event keeps the configuration. -/
theorem registryStep_config {s t : Storage ι} {e : RegistryEvent ι} (he : ¬ e.Registers)
    (h : registryStep s e = .ok t) : t.config = s.config := by
  cases e with
  | register q => exact absurd trivial he
  | call e =>
    apply step_config h
    rintro p jointType id coeff rfl
    exact he trivial

/-! ### The feedback ids -/

/-- The `StdId` of the frames that the motor with a given id sends. -/
def frameId (id : UInt8) : UInt32 := 0x200 + UInt32.ofNat id.toNat

theorem gCanHeadFeedback_eq : ∀ head : Fin 17, 1 ≤ head.val → head.val ≤ 11 →
    gCanHeadFeedback head = 0x200 + UInt32.ofNat head := by
  decide

/-- The devices of bus 1 listen to the ids of their motors, each to a different one. -/
structure Config.Listening (c : Config ι) : Prop where
  frameId : ∀ q ∈ c.ptrs 1, (c.fixed q).headFeedback = frameId (c.fixed q).id
  distinct : ((c.ptrs 1).map fun q => (c.fixed q).headFeedback).Nodup

theorem RegisteredOn1.ptrs {s t : Storage ι} {q : JointPtr ι} (h : RegisteredOn1 s q t) :
    t.config.ptrs 1 = s.config.ptrs 1 ++ [q] := by
  simp [Storage.config, h.bus1]

theorem RegisteredOn1.not_mem {s t : Storage ι} {q : JointPtr ι} (h : RegisteredOn1 s q t) :
    q ∉ s.config.ptrs 1 := by
  intro hq
  obtain ⟨d, hd, rfl⟩ := List.mem_map.mp hq
  exact (h.fresh d hd).1 rfl

theorem RegisteredOn1.listening {s t : Storage ι} {q : JointPtr ι} (h : RegisteredOn1 s q t)
    (hs : s.config.Listening) : t.config.Listening := by
  have hold : ∀ q' ∈ s.config.ptrs 1, t.config.fixed q' = s.config.fixed q' := fun q' hq' =>
    congrArg JointData.fixed (h.joint q' fun heq => h.not_mem (heq ▸ hq'))
  refine ⟨fun q' hq' => ?_, ?_⟩
  · rw [h.ptrs, List.mem_append, List.mem_singleton] at hq'
    rcases hq' with hq' | rfl
    · rw [hold q' hq']
      exact hs.frameId q' hq'
    · obtain ⟨head, hid, hfb⟩ := h.head
      have hlo := h.id_pos
      have hhi := h.id_le
      show (t.joint q').headFeedback = 0x200 + UInt32.ofNat (t.joint q').id.toNat
      rw [hfb, gCanHeadFeedback_eq head (by omega) (by omega), hid]
  · have hmap : (s.config.ptrs 1).map (fun q => (t.config.fixed q).headFeedback) =
        (s.config.ptrs 1).map fun q => (s.config.fixed q).headFeedback :=
      List.map_congr_left fun q' hq' => by rw [hold q' hq']
    rw [h.ptrs, List.map_append, hmap, List.nodup_append]
    refine ⟨hs.distinct, List.nodup_singleton _, fun a ha b hb => ?_⟩
    obtain ⟨q', hq', rfl⟩ := List.mem_map.mp ha
    obtain ⟨d, hd, rfl⟩ := List.mem_map.mp hq'
    rw [List.map_singleton, List.mem_singleton] at hb
    rw [hb]
    exact (h.fresh d hd).2

/-! ### The frames received -/

/-- The number that two bytes encode, high byte first, in two's complement. -/
def signedWord (hi lo : UInt8) : ℤ := Int.bmod (256 * hi.toNat + lo.toNat) 65536

/-- The feedback that the bytes of a frame stand for. -/
structure Decodes (rxData : CanData) (info : CtrlInfo) : Prop where
  angle : info.angle.toInt = signedWord (rxData 0) (rxData 1)
  speed : info.speed.toInt = signedWord (rxData 2) (rxData 3)
  current : info.current.toInt = signedWord (rxData 4) (rxData 5)
  temperature : info.temperature.toInt = Int.bmod (rxData 6).toNat 256

theorem int16OfBytes_toInt (hi lo : UInt8) : (int16OfBytes hi lo).toInt = signedWord hi lo := by
  have hlo : lo.toNat < 2 ^ 8 := lo.toNat_lt
  unfold int16OfBytes signedWord
  rw [← Nat.shiftLeft_add_eq_or_of_lt hlo, Nat.shiftLeft_eq, Int16.toInt_ofNat', Int16.size]
  congr 1
  push_cast
  ring

theorem decodeFeedback_decodes (rxData : CanData) : Decodes rxData (decodeFeedback rxData) where
  angle := int16OfBytes_toInt _ _
  speed := int16OfBytes_toInt _ _
  current := int16OfBytes_toInt _ _
  temperature := by
    show (rxData 6).toBitVec.toInt = _
    rw [BitVec.toInt_eq_toNat_bmod]
    rfl

/-- The last frame that came for each registered joint, and when it came. -/
abbrev FrameLog (ι : Type) := JointPtr ι → Option (CanData × UInt32)

/-- A frame on HCAN1 is for the registered joint whose id makes its `StdId`. -/
def FrameLog.record (s : Storage ι) (g : FrameLog ι) (e : RegistryEvent ι) (_ : Storage ι) :
    FrameLog ι :=
  match e with
  | .call (.canRx .hcan1 stdId rxData) => fun q =>
    if q ∈ s.config.ptrs 1 ∧ stdId = frameId (s.joint q).id then some (rxData, s.tick) else g q
  | _ => g

/-- A device against the last frame for its joint; before the first one it is as registered. -/
def Current (d : JointDevice ι) : Option (CanData × UInt32) → Prop
  | none => d.data = {} ∧ d.tick = 0
  | some (rxData, time) => Decodes rxData d.data ∧ d.tick = time

omit [DecidableEq ι] in
/-- When all feedback ids differ, the first match of the loop is the only one. -/
theorem jointUpdateLoop_listening {joint : JointPtr ι → JointData} {now stdId : UInt32}
    {rxData : CanData} {ds : List (JointDevice ι)}
    (hdistinct : (ds.map fun d => (joint d.ptr).headFeedback).Nodup) :
    (jointUpdateLoop joint now stdId rxData ds).2 = ds.map fun d =>
      if stdId = (joint d.ptr).headFeedback then receiveFeedback now rxData d else d := by
  induction ds with
  | nil => rfl
  | cons d ds ih =>
    rw [List.map_cons, List.nodup_cons] at hdistinct
    by_cases hd : (joint d.ptr).headFeedback = stdId
    · have hrest : ∀ e ∈ ds, ¬ stdId = (joint e.ptr).headFeedback := by
        intro e he heq
        exact hdistinct.1 (hd.trans heq ▸ List.mem_map_of_mem he)
      have hmap : (ds.map fun e => if stdId = (joint e.ptr).headFeedback then
          receiveFeedback now rxData e else e) = ds := by
        conv_rhs => rw [← List.map_id ds]
        exact List.map_congr_left fun e he => if_neg (hrest e he)
      rw [List.map_cons, hmap, if_pos hd.symm]
      simp only [jointUpdateLoop, hd, if_true]
    · rw [List.map_cons, if_neg (Ne.symm hd), ← ih hdistinct.2]
      simp only [jointUpdateLoop, hd, if_false]

omit [DecidableEq ι] in
/-- A frame on HCAN1 reaches exactly the device with the id that its `StdId` names. -/
theorem canRxCallback_hcan1 {s : Storage ι} (hs : s.config.Listening) (stdId : UInt32)
    (rxData : CanData) :
    ∃ r, canRxCallback s .hcan1 stdId rxData = .ok (r, s.setElems 1
      ((s.deviceJoint 1).elems.map fun d =>
        if stdId = frameId (s.joint d.ptr).id then receiveFeedback s.tick rxData d else d)) := by
  have hdistinct : ((s.deviceJoint 1).elems.map fun d => (s.joint d.ptr).headFeedback).Nodup := by
    have h := hs.distinct
    simp only [Storage.config, List.map_map] at h
    exact h
  have hloop : (jointUpdateLoop s.joint s.tick stdId rxData _).2 = _ :=
    jointUpdateLoop_listening hdistinct
  refine ⟨(jointUpdate s 1 stdId rxData).1, ?_⟩
  show Except.ok (jointUpdate s 1 stdId rxData) = _
  dsimp only [jointUpdate]
  rw [hloop]
  refine congrArg (fun ds => Except.ok (_, s.setElems 1 ds)) (List.map_congr_left fun d hd => ?_)
  have hid : (s.joint d.ptr).headFeedback = frameId (s.joint d.ptr).id :=
    hs.frameId d.ptr (List.mem_map_of_mem hd)
  rw [hid]

/-- The registry demultiplexes the frames. -/
structure Demultiplexed (s : Storage ι) (g : FrameLog ι) : Prop where
  distinct : ((s.deviceJoint 1).elems.map fun d => (s.joint d.ptr).headFeedback).Nodup
  current : ∀ d ∈ (s.deviceJoint 1).elems, Current d (g d.ptr)
  others : ∀ stdId rxData, ∃ r t, canRxCallback s .hcan1 stdId rxData = .ok (r, t) ∧
    t.deviceJoint 0 = s.deviceJoint 0 ∧ t.deviceDbus = s.deviceDbus ∧
    ∀ (k : ℕ) d, (s.deviceJoint 1).elems[k]? = some d → stdId ≠ frameId (s.joint d.ptr).id →
      (t.deviceJoint 1).elems[k]? = some d

/-- What carries the property along a run: no frame is known for a joint without a device. -/
structure Logged (s : Storage ι) (g : FrameLog ι) : Prop where
  listening : s.config.Listening
  current : ∀ d ∈ (s.deviceJoint 1).elems, Current d (g d.ptr)
  unknown : ∀ q, q ∉ s.config.ptrs 1 → g q = none

omit [DecidableEq ι] in
theorem Logged.demultiplexed {s : Storage ι} {g : FrameLog ι} (h : Logged s g) :
    Demultiplexed s g := by
  refine ⟨?_, h.current, fun stdId rxData => ?_⟩
  · have hdistinct := h.listening.distinct
    simp only [Storage.config, List.map_map] at hdistinct
    exact hdistinct
  · obtain ⟨r, hr⟩ := canRxCallback_hcan1 h.listening stdId rxData
    refine ⟨r, _, hr, rfl, rfl, fun k d hd hne => ?_⟩
    simp [Storage.setElems, hd, hne]

/-- Frames change the devices of bus 1 through the callback of HCAN1 only, and nothing but
    `update_to_controller` judges them. -/
theorem step_devices {β : Type} {f : JointDevice ι → β} {s t : Storage ι} {e : Event ι}
    (h : step s e = .ok t) (hadd : ∀ p jointType id coeff, e ≠ .jointAdd p jointType id coeff)
    (hrx : (∀ now rxData d, f (receiveFeedback now rxData d) = f d) ∨
      ∀ stdId rxData, e ≠ .canRx .hcan1 stdId rxData)
    (hjudge : (∀ now d, f (judge now d) = f d) ∨ e ≠ .updateToController) :
    (t.deviceJoint 1).elems.map f = (s.deviceJoint 1).elems.map f := by
  cases e with
  | tick => obtain rfl := Fallible.pure_eq_ok.mp h; rfl
  | jointAdd p jointType id coeff => exact absurd rfl (hadd p jointType id coeff)
  | canRx hcan stdId rxData =>
    cases hcan with
    | hcan1 =>
      obtain ⟨⟨r, u⟩, hu, h⟩ := Fallible.bind_eq_ok.mp h
      obtain rfl := Fallible.pure_eq_ok.mp h
      have hkept := hrx.resolve_right fun hne => hne stdId rxData rfl
      obtain rfl := (Prod.mk.inj (Except.ok.inj hu)).2
      exact jointUpdate_map s 1 stdId (fun now => hkept now rxData) 1
    | hcan2 | other => cases h
  | dbusRx rxData =>
    obtain ⟨data, error, rfl⟩ := dbusUpdate_of_step h
    rfl
  | updateToController =>
    have hkept := hjudge.resolve_right fun hne => hne rfl
    rw [(updateToController_pass h).deviceJoint, List.map_map]
    exact List.map_congr_left fun d _ => hkept _ d
  | control q pidCalc target => obtain rfl := Fallible.pure_eq_ok.mp h; rfl
  | updateTarget p => rw [updateTarget_frame h]
  | setCanCurrent =>
    obtain rfl := setCanCurrent_of_step h
    rfl

theorem logged_register {s t : Storage ι} {g : FrameLog ι} {q : JointPtr ι}
    (h : RegisteredOn1 s q t) (hs : Logged s g) : Logged t g := by
  refine ⟨h.listening hs.listening, fun d hd => ?_, fun q' hq' => hs.unknown q' fun hmem => hq' ?_⟩
  · rw [h.bus1, DeviceVector.pushBack_elems, List.mem_append, List.mem_singleton] at hd
    rcases hd with hd | rfl
    · exact hs.current d hd
    · show Current _ (g q)
      rw [hs.unknown q h.not_mem]
      exact ⟨rfl, rfl⟩
  · rw [h.ptrs]
    exact List.mem_append_left _ hmem

theorem logged_canRx {s t : Storage ι} {g : FrameLog ι} {stdId : UInt32} {rxData : CanData}
    (h : step s (.canRx .hcan1 stdId rxData) = .ok t) (hs : Logged s g) :
    Logged t (FrameLog.record s g (.call (.canRx .hcan1 stdId rxData)) t) := by
  have hconfig : t.config = s.config := step_config h (by simp)
  have helems : (t.deviceJoint 1).elems = (s.deviceJoint 1).elems.map fun d =>
      if stdId = frameId (s.joint d.ptr).id then receiveFeedback s.tick rxData d else d := by
    obtain ⟨r, hr⟩ := canRxCallback_hcan1 hs.listening stdId rxData
    obtain ⟨⟨r', u⟩, hu, h⟩ := Fallible.bind_eq_ok.mp h
    obtain rfl := Fallible.pure_eq_ok.mp h
    rw [(Prod.mk.inj (Except.ok.inj (hu.symm.trans hr))).2]
    simp [Storage.setElems]
  refine ⟨hconfig ▸ hs.listening, fun d hd => ?_, fun q hq => ?_⟩
  · rw [helems] at hd
    obtain ⟨d', hd', rfl⟩ := List.mem_map.mp hd
    have hmem : d'.ptr ∈ s.config.ptrs 1 := List.mem_map_of_mem hd'
    by_cases hid : stdId = frameId (s.joint d'.ptr).id
    · have hnew : FrameLog.record s g (.call (.canRx .hcan1 stdId rxData)) t d'.ptr =
          some (rxData, s.tick) := if_pos ⟨hmem, hid⟩
      rw [if_pos hid, receiveFeedback_ptr, hnew]
      exact ⟨decodeFeedback_decodes rxData, rfl⟩
    · have hold : FrameLog.record s g (.call (.canRx .hcan1 stdId rxData)) t d'.ptr = g d'.ptr :=
        if_neg fun hboth => hid hboth.2
      rw [if_neg hid, hold]
      exact hs.current d' hd'
  · rw [hconfig] at hq
    exact (if_neg fun hboth => hq hboth.1).trans (hs.unknown q hq)

omit [DecidableEq ι] in
/-- What keeps the configuration and the data of the devices keeps the correspondence. -/
theorem Logged.congr {s t : Storage ι} {g : FrameLog ι} (hs : Logged s g)
    (hconfig : t.config = s.config)
    (hdev : (t.deviceJoint 1).elems.map (fun d => (d.ptr, d.data, d.tick)) =
      (s.deviceJoint 1).elems.map fun d => (d.ptr, d.data, d.tick)) : Logged t g := by
  refine ⟨hconfig ▸ hs.listening, fun d hd => ?_, hconfig ▸ hs.unknown⟩
  have hmem : (d.ptr, d.data, d.tick) ∈
      (s.deviceJoint 1).elems.map fun d => (d.ptr, d.data, d.tick) :=
    hdev ▸ List.mem_map_of_mem hd
  obtain ⟨d', hd', heq⟩ := List.mem_map.mp hmem
  simp only [Prod.mk.injEq] at heq
  obtain ⟨hptr, hdata, htick⟩ := heq
  have hcur := hs.current d' hd'
  rw [hptr] at hcur
  cases hg : g d.ptr with
  | none =>
    rw [hg] at hcur
    exact ⟨hdata ▸ hcur.1, htick ▸ hcur.2⟩
  | some last =>
    rw [hg] at hcur
    exact ⟨hdata ▸ hcur.1, htick ▸ hcur.2⟩

theorem logged_step {s t : Storage ι} {g : FrameLog ι} {e : RegistryEvent ι}
    (hid : FinalIds s e) (h : registryStep s e = .ok t) (hs : Logged s g) :
    Logged t (g.record s e t) := by
  by_cases he : e.Registers
  · obtain ⟨q, hq⟩ := registeredOn1_of_step he hid h
    have hsame : g.record s e t = g := by
      cases e with
      | register q => rfl
      | call e => cases e <;> first | rfl | exact he.elim
    rw [hsame]
    exact logged_register hq hs
  · by_cases hrx : ∃ stdId rxData, e = .call (.canRx .hcan1 stdId rxData)
    · obtain ⟨stdId, rxData, rfl⟩ := hrx
      exact logged_canRx h hs
    · cases e with
      | register q => exact absurd trivial he
      | call e =>
        have hsame : g.record s (.call e) t = g := by
          cases e with
          | canRx hcan stdId rxData =>
            cases hcan with
            | hcan1 => exact absurd ⟨stdId, rxData, rfl⟩ hrx
            | hcan2 | other => rfl
          | _ => rfl
        rw [hsame]
        refine hs.congr (registryStep_config he h)
          (step_devices h ?_ (.inr ?_) (.inl fun _ _ => rfl))
        · rintro p jointType id coeff rfl
          exact he trivial
        · rintro stdId rxData rfl
          exact hrx ⟨stdId, rxData, rfl⟩

/-- The runs of the system with registrations of joints with ids from 1 to 11 on HCAN1, and
    the frames they have brought. -/
abbrev DemuxRuns (part : ι → PartControl) (es : List (RegistryEvent ι))
    (x : Storage ι × FrameLog ι) : Prop :=
  Run (Ghost FrameLog.record (Guarded FinalIds (ofExcept registryStep)))
    (unregistered part, fun _ => none) es x

/-- In every reachable state the feedback ids are pairwise distinct, each device holds the
    decoding of the last frame with its id and the time of that frame, and a frame with
    another id leaves it alone. -/
theorem demultiplexed_of_run {part : ι → PartControl} {es : List (RegistryEvent ι)} {s : Storage ι}
    {g : FrameLog ι} (h : DemuxRuns part es (s, g)) : Demultiplexed s g := by
  refine Logged.demultiplexed (h.invariant (I := fun x => Logged x.1 x.2) ?_ ?_)
  · rintro ⟨s, g⟩ e ⟨t, g'⟩ hs ⟨⟨hid, hstep⟩, hg⟩
    show Logged t g'
    rw [show g' = g.record s e t from hg]
    exact logged_step hid hstep hs
  · refine ⟨⟨?_, .nil⟩, ?_, fun _ _ => rfl⟩
    · intro q hq
      cases hq
    · intro d hd
      cases hd

/-- One joint with id 5 is registered, and a frame comes for it and one for another motor. -/
def twoFrames : List (RegistryEvent Unit) :=
  [.register ((), 0), .call .tick, .call (.canRx .hcan1 0x205 fun _ => 0x80),
    .call (.canRx .hcan1 0x206 fun _ => 0)]

/-- The joint keeps the first frame, and the sign of its bytes. -/
theorem demultiplexed_twoFrames :
    ∃ s g, DemuxRuns (fun _ => { joint := fun _ => { id := 5 } }) twoFrames (s, g) ∧
      Demultiplexed s g ∧ ∃ d ∈ (s.deviceJoint 1).elems,
        d.data.angle = -32640 ∧ d.data.temperature = -128 ∧ d.tick = 1 := by
  obtain ⟨⟨s, g⟩, hrun, hend⟩ := Run.of_check_ghost FinalIds FrameLog.record registryStep
    (unregistered fun _ : Unit => { joint := fun _ => { id := 5 } }, fun _ => none) twoFrames
    (fun x => (x.1.deviceJoint 1).elems.map fun d => (d.data.angle, d.data.temperature, d.tick))
    (x := [(-32640, -128, 1)]) (by decide +kernel)
  refine ⟨s, g, hrun, demultiplexed_of_run hrun, ?_⟩
  obtain ⟨d, hd, heq⟩ := List.map_eq_singleton_iff.mp hend
  simp only [Prod.mk.injEq] at heq
  exact ⟨d, hd ▸ List.mem_cons_self, heq⟩

end RmMicroControllers
