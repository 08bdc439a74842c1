import RmMicroControllers.App.MonitorTask
import RmMicroControllers.Library.Run

/-!
# The system: every call that reaches the shared storage

Events are the calls that tasks and interrupts make, in any order and any number. `control`
stands for a controller's own computation, which writes nothing but the PID state and the
target of one of its joints.

The part of the storage that only `joint_add` writes is its `Config`; every other event keeps
it.
-/

namespace RmMicroControllers

open Transition

variable {ι : Type}

/-- The calls that reach the storage. -/
inductive Event (ι : Type) where
  | tick
  | jointAdd (p : ι) (jointType : JointType) (id : UInt8) (coeff : JointCoeff)
  | canRx (hcan : Can) (stdId : UInt32) (rxData : CanData)
  | dbusRx (rxData : DbusFrame)
  | updateToController
  | control (q : JointPtr ι) (pidCalc : Fin 2 → PidInfo) (target : CtrlInfo)
  | updateTarget (p : ι)
  | setCanCurrent

/-- The storage at boot, with the bus that each object drives. -/
def boot (hcan : ι → Can) : Storage ι := { part := fun p => { hcan := hcan p } }

variable [DecidableEq ι]

/-- What one event does. -/
def step (s : Storage ι) : Event ι → Except Fault (Storage ι)
  | .tick => return { s with tick := s.tick + 1 }
  | .jointAdd p jointType id coeff => return (← PartControl.jointAdd s p jointType id coeff).2
  | .canRx hcan stdId rxData => return (← canRxCallback s hcan stdId rxData).2
  | .dbusRx rxData => return (dbusUpdate s rxData).2
  | .updateToController => DeviceMonitor.updateToController s
  | .control q pidCalc target =>
    return s.modifyJoint q fun j => { j with pidCalc := pidCalc, target := target }
  | .updateTarget p => PartControl.updateTarget s p
  | .setCanCurrent => PartControl.setCanCurrent s

/-- The runs of the system: those in which every call so far has returned. -/
abbrev Runs (s : Storage ι) (es : List (Event ι)) (t : Storage ι) : Prop :=
  Run (ofExcept step) s es t

/-! ### The configuration -/

/-- The members of a joint that are fixed when it is added. -/
structure JointData.Fixed where
  coeff : JointCoeff
  canNum : UInt8
  id : UInt8
  headTarget : UInt32
  headFeedback : UInt32

/-- The fixed members of a joint. -/
def JointData.fixed (j : JointData) : JointData.Fixed :=
  ⟨j.coeff, j.canNum, j.id, j.headTarget, j.headFeedback⟩

/-- What only `joint_add` changes. -/
structure Config (ι : Type) where
  hcan : ι → Can
  jointCnt : ι → UInt8
  jointIdPtr : ι → Fin 16 → Option (Fin 6)
  fixed : JointPtr ι → JointData.Fixed
  ptrs : Fin 2 → List (JointPtr ι)
  generation : Fin 2 → ℕ
  capacity : Fin 2 → ℕ
  deviceDict : List (JointPtr ι × DevicePtr)

namespace Storage

omit [DecidableEq ι]

/-- The configuration of a storage. -/
def config (s : Storage ι) : Config ι where
  hcan p := (s.part p).hcan
  jointCnt p := (s.part p).jointCnt
  jointIdPtr p := (s.part p).jointIdPtr
  fixed q := (s.joint q).fixed
  ptrs bus := (s.deviceJoint bus).elems.map (·.ptr)
  generation bus := (s.deviceJoint bus).generation
  capacity bus := (s.deviceJoint bus).capacity
  deviceDict := s.deviceDict

@[simp]
theorem config_modifyJoint [DecidableEq ι] (s : Storage ι) (q : JointPtr ι)
    (f : JointData → JointData) (hf : ∀ j, (f j).fixed = j.fixed) :
    (s.modifyJoint q f).config = s.config := by
  have hfixed : ∀ q', ((s.modifyJoint q f).joint q').fixed = (s.joint q').fixed := by
    intro q'
    rw [modifyJoint_joint]
    split
    · next h => rw [hf, h]
    · rfl
  simp [config, hfixed]

@[simp]
theorem config_setElems (s : Storage ι) (bus : Fin 2) (ds : List (JointDevice ι))
    (h : ds.map (·.ptr) = (s.deviceJoint bus).elems.map (·.ptr)) :
    (s.setElems bus ds).config = s.config := by
  have hupd : ∀ {α : Type} (f : DeviceVector ι → α),
      f { s.deviceJoint bus with elems := ds } = f (s.deviceJoint bus) →
      ∀ b, f ((s.setElems bus ds).deviceJoint b) = f (s.deviceJoint b) := by
    intro α f hf b
    by_cases hb : b = bus
    · subst hb; simpa [setElems] using hf
    · simp [setElems, hb]
  have hptrs := hupd (fun v => v.elems.map (·.ptr)) h
  have hgen := hupd (·.generation) rfl
  have hcap := hupd (·.capacity) rfl
  simp only [config, hptrs, hgen, hcap]
  rfl

@[simp]
theorem config_addOnlineCnt (s : Storage ι) (bus : Fin 2) (group : Fin 16) (change : UInt8) :
    (s.addOnlineCnt bus group change).config = s.config := rfl

@[simp]
theorem config_setJointTarget (s : Storage ι) (bus : Fin 2) (id : Fin 16) (info : CtrlInfo) :
    (s.setJointTarget bus id info).config = s.config := rfl

end Storage

namespace PartControl.JointAdded

variable {s t : Storage ι} {p : ι} {i : Fin 6} {bus : Fin 2} {head : Fin 17}
  {slot group : Fin 16} {cmdGroup : Fin 4} {id : UInt8} {coeff : JointCoeff}

theorem ptrs_self (h : JointAdded s p i bus head slot group cmdGroup id coeff t) :
    t.config.ptrs bus = s.config.ptrs bus ++ [(p, i)] := by
  simp [Storage.config, h.elems_self]

theorem ptrs_ne (h : JointAdded s p i bus head slot group cmdGroup id coeff t) {b : Fin 2}
    (hb : b ≠ bus) : t.config.ptrs b = s.config.ptrs b := by
  simp [Storage.config, h.deviceJoint_ne hb]

theorem mem_ptrs (h : JointAdded s p i bus head slot group cmdGroup id coeff t) {b : Fin 2}
    {q : JointPtr ι} : q ∈ t.config.ptrs b ↔ q ∈ s.config.ptrs b ∨ b = bus ∧ q = (p, i) := by
  by_cases hb : b = bus
  · subst hb
    simp [h.ptrs_self]
  · simp [h.ptrs_ne hb, hb]

/-- The new joint had no device on its bus. -/
theorem not_mem_ptrs (h : JointAdded s p i bus head slot group cmdGroup id coeff t) :
    (p, i) ∉ s.config.ptrs bus := by
  intro hmem
  obtain ⟨d, hd, hptr⟩ := List.mem_map.mp hmem
  exact (h.not_taken d hd).1 hptr

/-- A registration keeps the devices of every bus on different joints. -/
theorem nodup_ptrs (h : JointAdded s p i bus head slot group cmdGroup id coeff t)
    (hs : ∀ b, (s.config.ptrs b).Nodup) (b : Fin 2) : (t.config.ptrs b).Nodup := by
  by_cases hb : b = bus
  · subst hb
    rw [h.ptrs_self]
    apply List.nodup_append.mpr
    refine ⟨hs b, List.nodup_singleton _, ?_⟩
    rintro q hq q' hq' rfl
    rw [List.mem_singleton] at hq'
    exact h.not_mem_ptrs (hq' ▸ hq)
  · rw [h.ptrs_ne hb]
    exact hs b

end PartControl.JointAdded

omit [DecidableEq ι] in
theorem DeviceMonitor.MonitorPass.config {s t : Storage ι} (h : MonitorPass s t) :
    t.config = s.config := by
  have hfixed : ∀ q, (t.joint q).fixed = (s.joint q).fixed := by
    intro q
    obtain ⟨f, hf⟩ := h.joint q
    rw [hf]
    rfl
  simp [Storage.config, h.hcan, h.jointCnt, h.jointIdPtr, hfixed, h.deviceJoint, h.deviceDict,
    Function.comp_def]

omit [DecidableEq ι] in
theorem DeviceMonitor.MonitorFrame.config {s t : Storage ι} (h : MonitorFrame s t) :
    t.config = s.config := by
  have hfixed : ∀ q, (t.joint q).fixed = (s.joint q).fixed := by
    intro q
    obtain ⟨f, hf⟩ := h.joint q
    rw [hf]
    rfl
  simp [Storage.config, h.hcan, h.jointCnt, h.jointIdPtr, hfixed, h.deviceJoint, h.deviceDict]

theorem DeviceMonitor.updateBus_config {s t : Storage ι} {bus : Fin 2}
    (h : updateBus s bus = .ok t) : t.config = s.config := by
  obtain ⟨u, -, hframe, rfl⟩ := updateBus_eq_ok h
  rw [Storage.config_setElems, hframe.config]
  rw [hframe.deviceJoint, List.map_map]
  rfl

omit [DecidableEq ι] in
theorem jointUpdate_config (s : Storage ι) (bus : Fin 2) (stdId : UInt32) (rxData : CanData) :
    (jointUpdate s bus stdId rxData).2.config = s.config :=
  s.config_setElems bus _ (jointUpdateLoop_map (fun _ => rfl) _)

omit [DecidableEq ι] in
theorem dbusUpdate_eq (s : Storage ι) (rxData : DbusFrame) :
    ∃ data error, (dbusUpdate s rxData).2 = { s with
      deviceDbus :=
        DeviceMonitor.updateSingleIsr s.tick { s.deviceDbus with data := data } error } := by
  rw [dbusUpdate]
  split
  · exact ⟨_, _, rfl⟩
  · exact ⟨_, _, rfl⟩

omit [DecidableEq ι] in
/-- The loop of `update_target` writes nothing but targets, whatever the ids are. -/
theorem updateTarget_frame {s t : Storage ι} {p : ι} (h : PartControl.updateTarget s p = .ok t) :
    t = { s with jointTarget := t.jointTarget } := by
  refine Fallible.foldlM_invariant (I := fun u => u = { s with jointTarget := u.jointTarget })
    ?_ h rfl
  intro u i v hu hv
  obtain ⟨k, -, hv⟩ := Fallible.bind_eq_ok.mp hv
  obtain ⟨bus, id, -, -, rfl⟩ := PartControl.setTarget_eq_ok.mp hv
  rw [hu]
  rfl

/-! ### What an event that returns has done -/

section Inversion

variable {s t : Storage ι}

theorem jointAdded_of_step {p : ι} {jointType : JointType} {id : UInt8} {coeff : JointCoeff}
    (h : step s (.jointAdd p jointType id coeff) = .ok t) :
    ∃ i bus head slot group cmdGroup, PartControl.JointAdded s p i bus head slot group cmdGroup
      (PartControl.finalId jointType id) coeff t := by
  obtain ⟨⟨k, u⟩, hu, h⟩ := Fallible.bind_eq_ok.mp h
  obtain rfl := Fallible.pure_eq_ok.mp h
  obtain ⟨i, bus, head, slot, group, cmdGroup, hadd, -⟩ := PartControl.jointAdd_eq_ok hu
  exact ⟨i, bus, head, slot, group, cmdGroup, hadd⟩

theorem jointUpdate_of_step {hcan : Can} {stdId : UInt32} {rxData : CanData}
    (h : step s (.canRx hcan stdId rxData) = .ok t) :
    ∃ bus : Fin 2, (DeviceMonitor.canCastToNum hcan).toNat = bus ∧
      t = (jointUpdate s bus stdId rxData).2 := by
  obtain ⟨⟨r, u⟩, hu, h⟩ := Fallible.bind_eq_ok.mp h
  obtain rfl := Fallible.pure_eq_ok.mp h
  obtain ⟨bus, hbus, hupd⟩ := canRxCallback_eq_ok hu
  exact ⟨bus, hbus, (congrArg Prod.snd hupd).symm⟩

theorem dbusUpdate_of_step {rxData : DbusFrame} (h : step s (.dbusRx rxData) = .ok t) :
    ∃ data error, t = { s with
      deviceDbus :=
        DeviceMonitor.updateSingleIsr s.tick { s.deviceDbus with data := data } error } := by
  obtain rfl := Fallible.pure_eq_ok.mp h
  exact dbusUpdate_eq s rxData

theorem setCanCurrent_of_step (h : step s .setCanCurrent = .ok t) :
    t = PartControl.appendTx s (PartControl.sentFrames s) := by
  change PartControl.setCanCurrent s = .ok t at h
  rw [PartControl.setCanCurrent_eq] at h
  exact (Except.ok.inj h).symm

end Inversion

/-- Every event but `joint_add` keeps the configuration. -/
theorem step_config {s t : Storage ι} {e : Event ι} (h : step s e = .ok t)
    (hadd : ∀ p jointType id coeff, e ≠ .jointAdd p jointType id coeff) :
    t.config = s.config := by
  cases e with
  | tick => obtain rfl := Fallible.pure_eq_ok.mp h; rfl
  | jointAdd p jointType id coeff => exact absurd rfl (hadd p jointType id coeff)
  | canRx hcan stdId rxData =>
    obtain ⟨bus, -, rfl⟩ := jointUpdate_of_step h
    exact jointUpdate_config s bus stdId rxData
  | dbusRx rxData =>
    obtain ⟨data, error, rfl⟩ := dbusUpdate_of_step h
    rfl
  | updateToController => exact (DeviceMonitor.updateToController_pass h).config
  | control q pidCalc target =>
    obtain rfl := Fallible.pure_eq_ok.mp h
    exact s.config_modifyJoint q _ fun _ => rfl
  | updateTarget p => rw [updateTarget_frame h]; rfl
  | setCanCurrent =>
    obtain rfl := setCanCurrent_of_step h
    rfl

end RmMicroControllers
