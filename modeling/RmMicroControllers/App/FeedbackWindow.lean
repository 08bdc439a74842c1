import Mathlib.Algebra.BigOperators.Fin
import Mathlib.Algebra.Order.BigOperators.Group.Finset
import Mathlib.Data.List.Nodup
import RmMicroControllers.App.Preemption
import RmMicroControllers.Library.Window

/-!
# The window of feedback

Every joint keeps five snapshots of what its motor has sent. `update_to_controller` takes one
for each device that it judges on-line, and no other call touches them. The snapshots of a run
are a history beside the storage, and the window of every joint shows the latest five.

## Main results

- `updateToController_feedback` — one call pushes at most one snapshot into a joint
- `feedbackWindow_of_run` — the windows and the mean speeds along every run
- `window_of_microRun` — the same while interrupts come between the steps of the monitor
-/

namespace RmMicroControllers

open Transition DeviceMonitor

variable {ι : Type}

/-- The cells of a window are moved by one, and the first one is overwritten. -/
theorem JointData.pushFeedback_eq_memmove (j : JointData) (info : CtrlInfo) :
    (j.pushFeedback info).feedback =
      Function.update (Window.moveCells 1 0 4 (by omega) j.feedback) 0 info :=
  Window.push_eq_update info j.feedback

/-! ### Every joint has one device -/

/-- A joint is registered once, on the bus of its object. -/
structure Config.Homed (c : Config ι) : Prop where
  nodup : ∀ bus, (c.ptrs bus).Nodup
  home : ∀ bus, ∀ q ∈ c.ptrs bus, (canCastToNum (c.hcan q.1)).toNat = bus

theorem homed_boot (hcan : ι → Can) : (boot hcan).config.Homed where
  nodup _ := .nil
  home bus q hq := by cases hq

section Homed

variable {c : Config ι}

/-- The bus of a device is determined by its joint. -/
theorem Config.Homed.bus_unique (h : c.Homed) {b b' : Fin 2} {q : JointPtr ι}
    (hq : q ∈ c.ptrs b) (hq' : q ∈ c.ptrs b') : b = b' :=
  Fin.ext ((h.home b q hq).symm.trans (h.home b' q hq'))

variable [DecidableEq ι]

theorem homed_jointAdd {s t : Storage ι} {p : ι} {i : Fin 6} {bus : Fin 2} {head : Fin 17}
    {slot group : Fin 16} {cmdGroup : Fin 4} {id : UInt8} {coeff : JointCoeff}
    (h : PartControl.JointAdded s p i bus head slot group cmdGroup id coeff t)
    (hs : s.config.Homed) : t.config.Homed := by
  have hhcan : ∀ p', t.config.hcan p' = s.config.hcan p' := h.hcan
  refine ⟨h.nodup_ptrs hs.nodup, fun b q hq => ?_⟩
  rw [hhcan]
  rcases h.mem_ptrs.mp hq with hq | ⟨rfl, rfl⟩
  · exact hs.home b q hq
  · exact h.bus_eq

theorem homed_step {s t : Storage ι} {e : Event ι} (hs : s.config.Homed)
    (h : step s e = .ok t) : t.config.Homed := by
  cases e with
  | jointAdd p jointType id coeff =>
    obtain ⟨i, bus, head, slot, group, cmdGroup, hadd⟩ := jointAdded_of_step h
    exact homed_jointAdd hadd hs
  | _ => rw [step_config h (by simp)]; exact hs

end Homed

/-! ### One call of `update_to_controller` -/

section Update

variable [DecidableEq ι]

omit [DecidableEq ι] in
/-- The devices in the order in which the loops visit them. -/
def devices (s : Storage ι) : List (JointDevice ι) :=
  (s.deviceJoint 0).elems ++ (s.deviceJoint 1).elems

/-- The device of a joint. -/
def deviceOf (s : Storage ι) (q : JointPtr ι) : Option (JointDevice ι) :=
  (devices s).find? fun d => d.ptr = q

/-- What a device judged by `clock` passes to its joint: nothing if it is judged off-line. -/
def passed (clock : UInt32) (d : JointDevice ι) : Option CtrlInfo :=
  if (judge clock d).online then some d.data else none

/-- The snapshot that `update_to_controller` takes of what the motor of a joint has sent. -/
def snapshot (s : Storage ι) (q : JointPtr ι) : Option CtrlInfo :=
  (deviceOf s q).bind (passed s.tick)

/-- A window after the snapshot of one call. -/
def refresh (w : Fin 5 → CtrlInfo) : Option CtrlInfo → Fin 5 → CtrlInfo
  | some info => Window.push info w
  | none => w

omit [DecidableEq ι] in
theorem Config.Homed.devices_nodup {s : Storage ι} (hs : s.config.Homed) :
    ((devices s).map (·.ptr)).Nodup := by
  rw [devices, List.map_append]
  refine List.nodup_append.mpr ⟨hs.nodup 0, hs.nodup 1, ?_⟩
  rintro q hq q' hq' rfl
  exact absurd (hs.bus_unique hq hq') (by decide)

/-- The snapshots of a joint are taken of its registered device. -/
theorem deviceOf_of_mem {s : Storage ι} (hs : s.config.Homed) {bus : Fin 2}
    {d : JointDevice ι} (hd : d ∈ (s.deviceJoint bus).elems) : deviceOf s d.ptr = some d := by
  apply find_device hs.devices_nodup
  obtain rfl | rfl : bus = 0 ∨ bus = 1 := by omega
  · exact List.mem_append_left _ hd
  · exact List.mem_append_right _ hd

/-- A joint that is not registered has no device. -/
theorem deviceOf_eq_none {s : Storage ι} {q : JointPtr ι} (hq : ∀ bus, q ∉ s.config.ptrs bus) :
    deviceOf s q = none := by
  apply find_device_eq_none
  intro hmem
  rw [devices, List.map_append] at hmem
  exact (List.mem_append.mp hmem).elim (hq 0) (hq 1)

/-- The loop body refreshes the window of the joint of its device. -/
theorem updateDevice_feedback {clock : UInt32} {d d' : JointDevice ι} {s t : Storage ι}
    (h : updateDevice clock d s = .ok (d', t)) (q : JointPtr ι) :
    (t.joint q).feedback =
      if d.ptr = q then refresh (s.joint q).feedback (passed clock d)
      else (s.joint q).feedback := by
  have hstore : ((storeFeedback (judge clock d) s).joint q).feedback =
      if d.ptr = q then refresh (s.joint q).feedback (passed clock d)
      else (s.joint q).feedback := by
    rw [storeFeedback, passed]
    by_cases hon : (judge clock d).online = true
    · rw [if_pos hon, if_pos hon, Storage.modifyJoint_joint, judge_ptr, judge_data]
      by_cases hq : d.ptr = q
      · subst hq
        rw [if_pos rfl, if_pos rfl]
        rfl
      · rw [if_neg hq, if_neg (Ne.symm hq)]
    · rw [if_neg hon, if_neg hon]
      split <;> rfl
  -- an edge moves a counter, which no window depends on
  obtain ⟨rfl, ⟨-, rfl⟩ | ⟨-, bus, group, -, -, rfl⟩⟩ := updateDevice_eq_ok h
  · exact hstore
  · exact hstore

/-- The loop over one vector refreshes every window at most once. -/
theorem updateDevices_feedback {ds ds' : List (JointDevice ι)} {s t : Storage ι}
    (h : updateDevices ds s = .ok (ds', t)) (hnodup : (ds.map (·.ptr)).Nodup)
    (q : JointPtr ι) :
    (t.joint q).feedback = refresh (s.joint q).feedback
      ((ds.find? fun d => d.ptr = q).bind (passed s.tick)) := by
  induction ds generalizing s ds' with
  | nil =>
    simp only [updateDevices, Fallible.pure_eq_ok, Prod.mk.injEq] at h
    obtain ⟨rfl, rfl⟩ := h
    rfl
  | cons d ds ih =>
    obtain ⟨⟨d', u⟩, hd, h⟩ := Fallible.bind_eq_ok.mp h
    obtain ⟨⟨ds'', v⟩, hds, h⟩ := Fallible.bind_eq_ok.mp h
    simp only [Fallible.pure_eq_ok, Prod.mk.injEq] at h
    obtain ⟨rfl, rfl⟩ := h
    rw [List.map_cons, List.nodup_cons] at hnodup
    have hstep := updateDevice_feedback hd q
    have hrest := ih hds hnodup.2
    by_cases hq : d.ptr = q
    · subst hq
      -- no later device has the same joint
      rw [find_device_eq_none hnodup.1] at hrest
      rw [if_pos rfl] at hstep
      rw [List.find?_cons_of_pos (by simp)]
      exact hrest.trans hstep
    · rw [if_neg hq] at hstep
      rw [(updateDevice_frame hd).tick, hstep] at hrest
      rw [List.find?_cons_of_neg (by simpa using hq)]
      exact hrest

/-- One call pushes at most one snapshot into a joint. -/
theorem updateToController_feedback {s t : Storage ι} (hs : s.config.Homed)
    (h : updateToController s = .ok t) (q : JointPtr ι) :
    (t.joint q).feedback = refresh (s.joint q).feedback (snapshot s q) := by
  obtain ⟨u, hu, ht⟩ := updateToController_eq_ok h
  obtain ⟨u', hu', hframe, rfl⟩ := updateBus_eq_ok hu
  obtain ⟨t', ht', -, rfl⟩ := updateBus_eq_ok ht
  have hbus0 := updateDevices_feedback hu' (hs.nodup 0) q
  -- the loop over bus 0 writes its own vector only
  have helems : ((u'.setElems 0 ((s.deviceJoint 0).elems.map (judge s.tick))).deviceJoint 1).elems =
      (s.deviceJoint 1).elems := by
    simp [Storage.setElems, hframe.deviceJoint]
  have hbus1 := updateDevices_feedback ht' (helems ▸ hs.nodup 1) q
  rw [helems] at hbus1
  change (t'.joint q).feedback = refresh (u'.joint q).feedback
    (((s.deviceJoint 1).elems.find? fun d => d.ptr = q).bind (passed u'.tick)) at hbus1
  rw [hframe.tick, hbus0] at hbus1
  apply hbus1.trans
  rw [snapshot, deviceOf, devices]
  rw [List.find?_append]
  cases hfind : (s.deviceJoint 0).elems.find? fun d => d.ptr = q with
  | none => rfl
  | some d =>
    -- a device on bus 0 leaves none for bus 1
    have hd : q ∈ s.config.ptrs 0 :=
      List.mem_map.mpr ⟨d, List.mem_of_find?_eq_some hfind, by simpa using List.find?_some hfind⟩
    have hnone : ((s.deviceJoint 1).elems.find? fun d => d.ptr = q) = none :=
      find_device_eq_none fun hd' => absurd (hs.bus_unique hd hd') (by decide)
    rw [hnone]
    rfl

end Update

/-! ### Along a run -/

/-- The snapshots of every joint since the boot, the newest first. -/
abbrev Snapshots (ι : Type) := JointPtr ι → List CtrlInfo

/-- The windows of a storage against the snapshots of its run. -/
structure Windowed (s : Storage ι) (g : Snapshots ι) : Prop where
  homed : s.config.Homed
  window : ∀ q, (s.joint q).feedback = Window.latest {} 5 (g q)
  fresh : ∀ q, (∀ bus, q ∉ s.config.ptrs bus) → g q = []

theorem windowed_boot (hcan : ι → Can) : Windowed (boot hcan) fun _ => [] where
  homed := homed_boot hcan
  window _ := rfl
  fresh _ _ := rfl

section Run

variable [DecidableEq ι]

/-- The snapshots after one more event. -/
def Snapshots.record (s : Storage ι) (g : Snapshots ι) (e : Event ι) (_ : Storage ι) :
    Snapshots ι :=
  match e with
  | .updateToController => fun q => (snapshot s q).toList ++ g q
  | _ => g

omit [DecidableEq ι] in
/-- A window refreshed with what is put in front of its history. -/
theorem refresh_latest (o : Option CtrlInfo) (h : List CtrlInfo) :
    refresh (Window.latest {} 5 h) o = Window.latest {} 5 (o.toList ++ h) := by
  cases o with
  | none => rfl
  | some info => exact Window.push_latest {} info h

/-- Only a registration and `update_to_controller` write to a window. -/
theorem step_feedback {s t : Storage ι} {e : Event ι} (h : step s e = .ok t)
    (hadd : ∀ p jointType id coeff, e ≠ .jointAdd p jointType id coeff)
    (hupdate : e ≠ .updateToController) (q : JointPtr ι) :
    (t.joint q).feedback = (s.joint q).feedback := by
  cases e with
  | tick => obtain rfl := Fallible.pure_eq_ok.mp h; rfl
  | jointAdd p jointType id coeff => exact absurd rfl (hadd p jointType id coeff)
  | canRx hcan stdId rxData =>
    obtain ⟨bus, -, rfl⟩ := jointUpdate_of_step h
    rfl
  | dbusRx rxData =>
    obtain ⟨data, error, rfl⟩ := dbusUpdate_of_step h
    rfl
  | updateToController => exact absurd rfl hupdate
  | control q' pidCalc target =>
    obtain rfl := Fallible.pure_eq_ok.mp h
    rw [Storage.modifyJoint_joint]
    split
    · next hq => rw [hq]
    · rfl
  | updateTarget p => rw [updateTarget_frame h]; rfl
  | setCanCurrent =>
    obtain rfl := setCanCurrent_of_step h
    rfl

/-- A new joint has an empty window, and had no snapshot before. -/
theorem windowed_jointAdd {s t : Storage ι} {g : Snapshots ι} {p : ι} {i : Fin 6} {bus : Fin 2}
    {head : Fin 17} {slot group : Fin 16} {cmdGroup : Fin 4} {id : UInt8} {coeff : JointCoeff}
    (h : PartControl.JointAdded s p i bus head slot group cmdGroup id coeff t)
    (hs : Windowed s g) : Windowed t g := by
  have hnew : ∀ b, (p, i) ∉ s.config.ptrs b := by
    intro b hq
    -- its own bus is the one that rejects a joint it already has
    obtain rfl : b = bus := Fin.ext ((hs.homed.home b _ hq).symm.trans h.bus_eq)
    exact h.not_mem_ptrs hq
  refine ⟨homed_jointAdd h hs.homed, fun q => ?_, fun q hq => ?_⟩
  · by_cases hq : q = (p, i)
    · subst hq
      rw [h.joint_self, hs.fresh _ hnew]
      rfl
    · rw [h.joint_ne hq]
      exact hs.window q
  · exact hs.fresh q fun b hb => hq b (h.mem_ptrs.mpr (Or.inl hb))

theorem windowed_step {s t : Storage ι} {g : Snapshots ι} {e : Event ι} (hs : Windowed s g)
    (h : step s e = .ok t) : Windowed t (g.record s e t) := by
  have hhomed := homed_step hs.homed h
  cases e with
  | jointAdd p jointType id coeff =>
    obtain ⟨i, bus, head, slot, group, cmdGroup, hadd⟩ := jointAdded_of_step h
    exact windowed_jointAdd hadd hs
  | updateToController =>
    have hconfig := (updateToController_pass h).config
    refine ⟨hhomed, fun q => ?_, fun q hq => ?_⟩
    · rw [updateToController_feedback hs.homed h, hs.window]
      exact refresh_latest _ _
    · rw [hconfig] at hq
      change (snapshot s q).toList ++ g q = []
      rw [snapshot, deviceOf_eq_none hq, hs.fresh q hq]
      rfl
  | _ =>
    refine ⟨hhomed, fun q => ?_, fun q hq => ?_⟩
    · rw [step_feedback h (by simp) (by simp)]
      exact hs.window q
    · rw [step_config h (by simp)] at hq
      exact hs.fresh q hq

/-- The runs of the system with the snapshots they take. -/
abbrev SnapshotRuns (hcan : ι → Can) (es : List (Event ι)) (x : Storage ι × Snapshots ι) : Prop :=
  Run (Ghost Snapshots.record (ofExcept step)) (boot hcan, fun _ => []) es x

theorem windowed_of_run {hcan : ι → Can} {es : List (Event ι)} {x : Storage ι × Snapshots ι}
    (h : SnapshotRuns hcan es x) : Windowed x.1 x.2 :=
  h.invariant (I := fun x => Windowed x.1 x.2)
    (fun _ _ _ hs hstep => hstep.2 ▸ windowed_step hs hstep.1) (windowed_boot hcan)

end Run

/-! ### The mean speed -/

/-- The integers that an `int` can hold. -/
def FitsInt (z : ℤ) : Prop := -2147483648 ≤ z ∧ z ≤ 2147483647

/-- The sum of any of the five speeds of a window fits an `int`. -/
theorem fitsInt_sum_speed (w : Fin 5 → CtrlInfo) (ks : Finset (Fin 5)) :
    FitsInt (∑ k ∈ ks, (w k).speed.toInt) := by
  have hcard : ks.card ≤ 5 := Finset.card_le_univ ks
  have hle : ∑ k ∈ ks, (w k).speed.toInt ≤ ks.card • (32767 : ℤ) :=
    Finset.sum_le_card_nsmul _ _ _ fun k _ => (FitsInt16.toInt (w k).speed).2
  have hge : ks.card • (-32768 : ℤ) ≤ ∑ k ∈ ks, (w k).speed.toInt :=
    Finset.card_nsmul_le_sum _ _ _ fun k _ => (FitsInt16.toInt (w k).speed).1
  rw [nsmul_eq_mul] at hle hge
  constructor <;> omega

theorem five_mul_getMeanSpeed (j : JointData) :
    5 * j.getMeanSpeed = ((∑ k, (j.feedback k).speed.toInt : ℤ) : ℚ) := by
  rw [Fin.sum_univ_five, JointData.getMeanSpeed]
  exact mul_div_cancel₀ _ (by norm_num)

/-- What the window of a device is for: its joint shows the latest five snapshots of what the
    motor has sent, the update of a silent device changes nothing, and the mean speed is the
    mean of the five speeds, whose sum an `int` holds. -/
structure FeedbackWindow [DecidableEq ι] (s : Storage ι) (g : Snapshots ι) (d : JointDevice ι) :
    Prop where
  latest : ∀ k : Fin 5, (s.joint d.ptr).feedback k = (g d.ptr).getD k {}
  silent : ∀ t, (judge s.tick d).online = false → updateToController s = .ok t →
    (t.joint d.ptr).feedback = (s.joint d.ptr).feedback
  mean : 5 * (s.joint d.ptr).getMeanSpeed =
    ((∑ k : Fin 5, ((g d.ptr).getD k {}).speed.toInt : ℤ) : ℚ)
  fits : ∀ ks : Finset (Fin 5),
    FitsInt (∑ k ∈ ks, ((s.joint d.ptr).feedback k).speed.toInt)

variable [DecidableEq ι]

/-- The windows and the mean speeds of all registered motors along every run. -/
theorem feedbackWindow_of_run {hcan : ι → Can} {es : List (Event ι)} {s : Storage ι}
    {g : Snapshots ι} (h : SnapshotRuns hcan es (s, g)) {bus : Fin 2} {d : JointDevice ι}
    (hd : d ∈ (s.deviceJoint bus).elems) : FeedbackWindow s g d := by
  have hs : Windowed s g := windowed_of_run h
  have hlatest : ∀ k : Fin 5, (s.joint d.ptr).feedback k = (g d.ptr).getD k {} := fun k =>
    congrFun (hs.window d.ptr) k
  refine ⟨hlatest, fun t hoff ht => ?_, ?_, fun ks => fitsInt_sum_speed _ ks⟩
  · have hnone : snapshot s d.ptr = none := by
      rw [snapshot, deviceOf_of_mem hs.homed hd, Option.bind_some, passed, hoff]
      rfl
    rw [updateToController_feedback hs.homed ht, hnone]
    rfl
  · rw [five_mul_getMeanSpeed]
    simp only [hlatest]

/-- A motor sends two frames, each seen by an update, and then falls silent. -/
def framesThenSilence : List (Event Unit) :=
  [.jointAdd () .kRM3508 1 ⟨fun _ => {}, fun _ => 0, fun _ => 0⟩,
    .canRx .hcan1 0x201 ![0, 0, 0, 7, 0, 0, 0, 0], .updateToController,
    .canRx .hcan1 0x201 ![0, 0, 0, 8, 0, 0, 0, 0], .updateToController] ++
  List.replicate 31 .tick ++ [.updateToController]

/-- Its window shows the two snapshots, and the last update has not changed it. -/
theorem feedbackWindow_framesThenSilence :
    ∃ s g d, SnapshotRuns (fun _ : Unit => .hcan1) framesThenSilence (s, g) ∧
      d ∈ (s.deviceJoint 1).elems ∧ d.online = false ∧ FeedbackWindow s g d ∧
      (List.finRange 5).map (fun k => ((s.joint d.ptr).feedback k).speed) = [8, 7, 0, 0, 0] := by
  obtain ⟨⟨s, g⟩, hrun, hend⟩ := Run.of_check_ghost (fun _ _ => True) Snapshots.record step
    (boot fun _ : Unit => .hcan1, fun _ => []) framesThenSilence
    (fun x => ((x.1.deviceJoint 1).elems.map fun d => (d.ptr, d.online),
      (List.finRange 5).map fun k => ((x.1.joint ((), 0)).feedback k).speed))
    (x := ([(((), 0), false)], [8, 7, 0, 0, 0])) (by decide +kernel)
  have hrun' := hrun.mono fun _ _ _ h => (⟨h.1.2, h.2⟩ : Ghost _ (ofExcept step) _ _ _)
  obtain ⟨hdev, hspeed⟩ := Prod.mk.inj hend
  obtain ⟨d, hd, hptr⟩ := List.mem_map.mp (hdev ▸ List.mem_singleton_self (((), 0), false))
  obtain ⟨hptr, hoff⟩ := Prod.mk.inj hptr
  exact ⟨s, g, d, hrun', hd, hoff, feedbackWindow_of_run hrun' hd, hptr ▸ hspeed⟩

/-! ### Between interrupts -/

/-- What the next step of the monitor's task passes to a joint. -/
def MonitorTask.snapshot (x : MonitorTask ι) (q : JointPtr ι) : Option CtrlInfo :=
  match x.pc with
  | .judge bus pos clock =>
    match (x.storage.deviceJoint bus).elems[pos]? with
    | some d => if d.ptr = q then passed clock d else none
    | none => none
  | _ => none

/-- The snapshots after one more step of the task, or an interrupt. -/
def Snapshots.recordMicro (x : MonitorTask ι) (g : Snapshots ι) (e : MonitorEvent)
    (_ : MonitorTask ι) : Snapshots ι :=
  match e with
  | .monitor => fun q => (x.snapshot q).toList ++ g q
  | _ => g

/-- A step of the monitor's task refreshes the window of the joint it passes a snapshot to. -/
theorem monitorStep_feedback {x y : MonitorTask ι} (h : monitorStep x = .ok y)
    (q : JointPtr ι) :
    (y.storage.joint q).feedback = refresh (x.storage.joint q).feedback (x.snapshot q) := by
  obtain ⟨bus, pos, clock, d, d', t, hpc, hd, hdev, hy⟩ | ⟨hpc, dbus, -, hy⟩ :=
    monitorStep_eq_ok h
  · have hstep := updateDevice_feedback hdev q
    rw [hy, MonitorTask.snapshot, hpc]
    simp only [hd]
    split at hstep
    · next hq => rw [if_pos hq]; exact hstep
    · next hq => rw [if_neg hq]; exact hstep
  · have hnone : x.snapshot q = none := by
      rw [MonitorTask.snapshot]
      split
      · next bus pos clock hjudge => exact absurd hjudge (hpc bus pos clock)
      · rfl
    rw [hy, hnone]
    rfl

theorem window_of_microStep {x y : MonitorTask ι} {g : Snapshots ι} {e : MonitorEvent}
    (h : microStep x e = .ok y)
    (hx : ∀ q, (x.storage.joint q).feedback = Window.latest {} 5 (g q)) (q : JointPtr ι) :
    (y.storage.joint q).feedback = Window.latest {} 5 (g.recordMicro x e y q) := by
  -- an interrupt is a call of the system that writes to no window
  have hcall : ∀ call : Event ι, e.interrupt = some call →
      (∀ p jointType id coeff, call ≠ .jointAdd p jointType id coeff) →
      call ≠ .updateToController →
      (y.storage.joint q).feedback = Window.latest {} 5 (g q) := by
    intro call he hadd hupdate
    rw [microStep] at h
    rw [he] at h
    dsimp only at h
    cases ht : step x.storage call with
    | error f => rw [ht] at h; cases h
    | ok t =>
      rw [ht] at h
      obtain hy := Except.ok.inj h
      rw [← hy]
      exact (step_feedback ht hadd hupdate q).trans (hx q)
  cases e with
  | monitor =>
    rw [monitorStep_feedback h, hx]
    exact refresh_latest _ _
  | tick | canRx hcan stdId rxData | dbusRx rxData => exact hcall _ rfl (by simp) (by simp)

/-- The windows show the latest snapshots also while interrupts come between the steps of the
    monitor's task. -/
theorem window_of_microRun {hcan : ι → Can} {es : List (Event ι)} {s : Storage ι}
    {g : Snapshots ι} (hrun : SnapshotRuns hcan es (s, g)) {ms : List MonitorEvent}
    {x : MonitorTask ι × Snapshots ι}
    (h : Run (Ghost Snapshots.recordMicro (ofExcept microStep)) (⟨s, .idle⟩, g) ms x)
    (q : JointPtr ι) : (x.1.storage.joint q).feedback = Window.latest {} 5 (x.2 q) :=
  h.invariant (I := fun x => ∀ q, (x.1.storage.joint q).feedback = Window.latest {} 5 (x.2 q))
    (fun _ _ _ hx hstep => hstep.2 ▸ window_of_microStep hstep.1 hx)
    (windowed_of_run hrun).window q

end RmMicroControllers
