import Mathlib.Data.List.Perm.Subperm
import RmMicroControllers.App.Registry

/-!
# The on-line counters

`joint_cmd_group_online_cnt_[bus][group]` is moved by `joint_add` and by the on-line edges of
`update_to_controller`. `joint_add` counts a joint whose device is still off-line, so the
counter is the number of registered joints of the group plus the number of those on-line.
-/

namespace RmMicroControllers

open Transition DeviceMonitor

variable {ι : Type}

/-- Whether a joint belongs to command group `g`. -/
def inGroup (s : Storage ι) (g : Fin 16) (q : JointPtr ι) : Bool :=
  (s.joint q).id.toNat >>> 2 == g.val

/-- How many joints of a group are registered on a bus. -/
def registeredCnt (s : Storage ι) (bus : Fin 2) (g : Fin 16) : ℕ :=
  (s.deviceJoint bus).elems.countP fun d => inGroup s g d.ptr

/-- How many joints of a group are registered on a bus and on-line. -/
def onlineCnt (s : Storage ι) (bus : Fin 2) (g : Fin 16) : ℕ :=
  (s.deviceJoint bus).elems.countP fun d => d.online && inGroup s g d.ptr

/-- What the counters are for: they count the on-line joints of a group, so that nothing is
    sent for a group that is off-line altogether. -/
structure CountsOnline (s : Storage ι) (bus : Fin 2) (g : Fin 16) : Prop where
  counts : (s.jointCmdGroupOnlineCnt bus g).toNat = onlineCnt s bus g
  silent : onlineCnt s bus g = 0 →
    s.jointCmdGroupOnlineCnt bus g = 0 ∧
      ∀ j : Fin 4, j.val = g.val → PartControl.groupFrames s bus j = []

/-- What the counters really are. -/
def CounterInvariant (s : Storage ι) : Prop :=
  ∀ bus g, s.jointCmdGroupOnlineCnt bus g =
    UInt8.ofNat (registeredCnt s bus g + onlineCnt s bus g)

/-- Groups depend on the ids only, which monitoring leaves alone. -/
theorem inGroup_frame {s t : Storage ι} (h : MonitorFrame s t) (g : Fin 16) :
    inGroup t g = inGroup s g := by
  funext q
  obtain ⟨f, hf⟩ := h.joint q
  rw [inGroup, inGroup, hf]

section Monitor

variable [DecidableEq ι]

/-- A flag counted as a number. -/
def flag (b : Bool) : UInt8 := if b then 1 else 0

/-- An edge of one device moves the counter of its group by the change of its on-line flag. -/
theorem updateDevice_onlineCnt {clock : UInt32} {d d' : JointDevice ι} {s t : Storage ι}
    (h : updateDevice clock d s = .ok (d', t)) (hcan : (s.joint d.ptr).canNum = 1) (g : Fin 16) :
    t.jointCmdGroupOnlineCnt 0 = s.jointCmdGroupOnlineCnt 0 ∧
      t.jointCmdGroupOnlineCnt 1 g + flag (d.online && inGroup s g d.ptr) =
        s.jointCmdGroupOnlineCnt 1 g + flag (d'.online && inGroup s g d'.ptr) := by
  have hstore : ∀ e u, (storeFeedback e u : Storage ι).jointCmdGroupOnlineCnt =
      u.jointCmdGroupOnlineCnt := by
    intro e u
    rw [storeFeedback]
    split <;> rfl
  obtain ⟨rfl, ⟨hon, rfl⟩ | ⟨hedge, bus, group, hbus, hgroup, rfl⟩⟩ := updateDevice_eq_ok h
  · rw [hstore, hon]
    exact ⟨rfl, rfl⟩
  · obtain rfl : bus = 1 := Fin.ext (by rw [← hbus, hcan]; rfl)
    refine ⟨by simp [Storage.addOnlineCnt, hstore], ?_⟩
    simp only [judge_ptr]
    by_cases hg : g = group
    · subst hg
      have hin : inGroup s g d.ptr = true := by simp [inGroup, hgroup]
      simp only [Storage.addOnlineCnt, hstore, hin, Function.update_self, Bool.and_true]
      -- an edge either way: one more, or 255 more, which is one less
      generalize s.jointCmdGroupOnlineCnt 1 g = n
      cases hd : d.online <;> cases hd' : (judge clock d).online
      · exact absurd (hd.trans hd'.symm) hedge
      · change n + 1 + 0 = n + 1
        grind
      · change n + 255 + 1 = n + 0
        grind
      · exact absurd (hd.trans hd'.symm) hedge
    · have hin : inGroup s g d.ptr = false := by
        rw [inGroup, hgroup, beq_eq_false_iff_ne]
        exact fun hv => hg (Fin.ext hv.symm)
      simp [Storage.addOnlineCnt, hstore, hin, hg]

omit [DecidableEq ι] in
theorem ofNat_countP_cons {α : Type} (P : α → Bool) (a : α) (l : List α) :
    UInt8.ofNat ((a :: l).countP P) = flag (P a) + UInt8.ofNat (l.countP P) := by
  rw [List.countP_cons, UInt8.ofNat_add, UInt8.add_comm]
  cases P a <;> rfl

/-- The loop over the devices moves each counter by the change of the number of devices
    on-line in its group. -/
theorem updateDevices_onlineCnt {ds ds' : List (JointDevice ι)} {s t : Storage ι}
    (h : updateDevices ds s = .ok (ds', t)) (hcan : ∀ d ∈ ds, (s.joint d.ptr).canNum = 1)
    (g : Fin 16) :
    t.jointCmdGroupOnlineCnt 0 = s.jointCmdGroupOnlineCnt 0 ∧
      t.jointCmdGroupOnlineCnt 1 g +
          UInt8.ofNat (ds.countP fun d => d.online && inGroup s g d.ptr) =
        s.jointCmdGroupOnlineCnt 1 g +
          UInt8.ofNat (ds'.countP fun d => d.online && inGroup s g d.ptr) := by
  induction ds generalizing s ds' with
  | nil =>
    simp only [updateDevices, Fallible.pure_eq_ok, Prod.mk.injEq] at h
    obtain ⟨rfl, rfl⟩ := h
    exact ⟨rfl, rfl⟩
  | cons d ds ih =>
    obtain ⟨⟨d', u⟩, hd, h⟩ := Fallible.bind_eq_ok.mp h
    obtain ⟨⟨ds'', v⟩, hds, h⟩ := Fallible.bind_eq_ok.mp h
    simp only [Fallible.pure_eq_ok, Prod.mk.injEq] at h
    obtain ⟨rfl, rfl⟩ := h
    have hframe := updateDevice_frame hd
    obtain ⟨h₀, h₁⟩ := updateDevice_onlineCnt hd (hcan d List.mem_cons_self) g
    have hcan' : ∀ e ∈ ds, (u.joint e.ptr).canNum = 1 := by
      intro e he
      obtain ⟨f, hf⟩ := hframe.joint e.ptr
      rw [hf]
      exact hcan e (List.mem_cons_of_mem _ he)
    obtain ⟨k₀, k₁⟩ := ih hds hcan'
    rw [inGroup_frame hframe] at k₁
    refine ⟨k₀.trans h₀, ?_⟩
    simp only [ofNat_countP_cons]
    grind

end Monitor

/-! ### The invariant -/

section Invariant

variable [DecidableEq ι]

omit [DecidableEq ι] in
/-- Both counts depend on the on-line flags of the devices and the ids of the joints only. -/
theorem cnt_congr {s t : Storage ι}
    (hdev : ∀ bus, (t.deviceJoint bus).elems.map (fun d => (d.online, d.ptr)) =
      (s.deviceJoint bus).elems.map fun d => (d.online, d.ptr))
    (hid : ∀ q, (t.joint q).id = (s.joint q).id) (bus : Fin 2) (g : Fin 16) :
    registeredCnt t bus g = registeredCnt s bus g ∧ onlineCnt t bus g = onlineCnt s bus g := by
  have hin : inGroup t g = inGroup s g := by
    funext q
    rw [inGroup, inGroup, hid]
  have key : ∀ P : Bool × JointPtr ι → Bool,
      (t.deviceJoint bus).elems.countP (fun d => P (d.online, d.ptr)) =
        (s.deviceJoint bus).elems.countP fun d => P (d.online, d.ptr) := by
    intro P
    have h := congrArg (List.countP P) (hdev bus)
    rwa [List.countP_map, List.countP_map] at h
  rw [registeredCnt, registeredCnt, onlineCnt, onlineCnt, hin]
  exact ⟨key fun x => inGroup s g x.2, key fun x => x.1 && inGroup s g x.2⟩

omit [DecidableEq ι] in
/-- What leaves the on-line flags, the ids and the counters alone keeps the invariant. -/
theorem counterInvariant_congr {s t : Storage ι} (hs : CounterInvariant s)
    (hconfig : t.config = s.config)
    (hdev : ∀ bus, (t.deviceJoint bus).elems.map (fun d => (d.online, d.ptr)) =
      (s.deviceJoint bus).elems.map fun d => (d.online, d.ptr))
    (hcnt : t.jointCmdGroupOnlineCnt = s.jointCmdGroupOnlineCnt) : CounterInvariant t := by
  have hid : ∀ q, (t.joint q).id = (s.joint q).id := fun q =>
    congrArg JointData.Fixed.id (congrFun (congrArg Config.fixed hconfig) q)
  intro bus g
  obtain ⟨hreg, hon⟩ := cnt_congr hdev hid bus g
  rw [hcnt, hs bus g, hreg, hon]

/-- One call of `update_to_controller` keeps the invariant. -/
theorem counterInvariant_updateToController {s t : Storage ι} (hs : CounterInvariant s)
    (hc : s.config.OneBus) (h : updateToController s = .ok t) : CounterInvariant t := by
  have hpass := updateToController_pass h
  have hin : ∀ g, inGroup t g = inGroup s g := by
    intro g
    funext q
    obtain ⟨f, hf⟩ := hpass.joint q
    rw [inGroup, inGroup, hf]
  have hreg : ∀ bus g, registeredCnt t bus g = registeredCnt s bus g := by
    intro bus g
    rw [registeredCnt, hpass.deviceJoint, List.countP_map, hin]
    rfl
  obtain ⟨u, hu, ht⟩ := updateToController_eq_ok h
  obtain ⟨u', hu₁, hu₂, hu⟩ := updateBus_eq_ok hu
  obtain ⟨t', ht₁, ht₂, ht⟩ := updateBus_eq_ok ht
  have hbus0 : (s.deviceJoint 0).elems = [] := List.map_eq_nil_iff.mp hc.bus0
  -- bus 0 has no devices, so its pass changes neither the counters nor the joints
  simp only [hbus0, updateDevices, List.map_nil, Fallible.pure_eq_ok, Prod.mk.injEq,
    true_and] at hu₁
  have hu_joint : u.joint = s.joint := by rw [hu, ← hu₁]; rfl
  have hu_cnt : u.jointCmdGroupOnlineCnt = s.jointCmdGroupOnlineCnt := by rw [hu, ← hu₁]; rfl
  have hu_elems : (u.deviceJoint 1).elems = (s.deviceJoint 1).elems := by
    rw [hu, ← hu₁]
    simp [Storage.setElems]
  have hu_tick : u.tick = s.tick := by rw [hu, ← hu₁]; rfl
  have hu_in : ∀ g, inGroup u g = inGroup s g := fun g => by
    funext q
    rw [inGroup, inGroup, hu_joint]
  have ht_cnt : t.jointCmdGroupOnlineCnt = t'.jointCmdGroupOnlineCnt := by rw [ht]; rfl
  have hcan : ∀ d ∈ (u.deviceJoint 1).elems, (u.joint d.ptr).canNum = 1 := by
    intro d hd
    rw [hu_elems] at hd
    rw [hu_joint]
    obtain ⟨-, -, -, -, hnum, -⟩ := hc.onBus1_of_mem (List.mem_map_of_mem hd)
    exact hnum
  intro bus g
  obtain ⟨h₀, h₁⟩ := updateDevices_onlineCnt ht₁ hcan g
  rw [← ht_cnt, hu_cnt] at h₀ h₁
  rw [hreg]
  obtain rfl | rfl : bus = 0 ∨ bus = 1 := by omega
  · have hon : onlineCnt t 0 g = onlineCnt s 0 g := by
      simp [onlineCnt, hpass.deviceJoint, hbus0]
    rw [hon, ← hs 0 g]
    exact congrFun h₀ g
  · have hon : onlineCnt t 1 g = ((s.deviceJoint 1).elems.map (judge s.tick)).countP
        fun d => d.online && inGroup s g d.ptr := by
      rw [onlineCnt, hpass.deviceJoint, hin]
    rw [hu_in, hu_elems, hu_tick, ← hon] at h₁
    change _ + UInt8.ofNat (onlineCnt s 1 g) = _ at h₁
    have hs1 := hs 1 g
    rw [UInt8.ofNat_add] at hs1 ⊢
    grind

/-- A registration keeps the invariant: the new device is off-line, and its group counts one
    more. -/
theorem counterInvariant_jointAdd {s t : Storage ι} {p : ι} {i : Fin 6} {bus : Fin 2}
    {head : Fin 17} {slot group : Fin 16} {cmdGroup : Fin 4} {id : UInt8} {coeff : JointCoeff}
    (hs : CounterInvariant s)
    (h : PartControl.JointAdded s p i bus head slot group cmdGroup id coeff t)
    (hfresh : ∀ b, ∀ d ∈ (s.deviceJoint b).elems, d.ptr ≠ (p, i)) :
    CounterInvariant t ∧ ∀ b g, registeredCnt t b g =
      registeredCnt s b g + if b = bus ∧ id.toNat >>> 2 = g then 1 else 0 := by
  have hold : ∀ b g, ∀ d ∈ (s.deviceJoint b).elems, inGroup t g d.ptr = inGroup s g d.ptr := by
    intro b g d hd
    rw [inGroup, inGroup, h.joint_ne (hfresh b d hd)]
  have hnew : ∀ g, inGroup t g (p, i) = (id.toNat >>> 2 == g.val) := by
    intro g
    rw [inGroup, h.joint_self]
    rfl
  have hreg : ∀ b g, registeredCnt t b g =
      registeredCnt s b g + if b = bus ∧ id.toNat >>> 2 = g then 1 else 0 := by
    intro b g
    unfold registeredCnt
    by_cases hb : b = bus
    · subst hb
      rw [h.elems_self, List.countP_append, List.countP_congr fun d hd => by rw [hold b g d hd]]
      simp [List.countP_singleton, hnew]
    · rw [h.deviceJoint_ne hb, List.countP_congr fun d hd => by rw [hold b g d hd]]
      simp [hb]
  have hon : ∀ b g, onlineCnt t b g = onlineCnt s b g := by
    intro b g
    unfold onlineCnt
    by_cases hb : b = bus
    · subst hb
      rw [h.elems_self, List.countP_append, List.countP_congr fun d hd => by rw [hold b g d hd]]
      simp
    · rw [h.deviceJoint_ne hb, List.countP_congr fun d hd => by rw [hold b g d hd]]
  -- one more of the group is registered and off-line, and the counter has gone up by one
  refine ⟨fun b g => ?_, hreg⟩
  rw [hreg, hon, h.onlineCnt]
  have hs := hs b g
  have hgroup := h.group_eq
  by_cases hb : b = bus
  · subst hb
    by_cases hg : g = group
    · subst hg
      simp only [Storage.addOnlineCnt, Function.update_self, hgroup, and_self, if_true]
      rw [hs, add_right_comm, UInt8.ofNat_add (_ + _) 1]
      rfl
    · have hne : ¬ id.toNat >>> 2 = g := fun hv => hg (Fin.ext (hv.symm.trans hgroup))
      simp [Storage.addOnlineCnt, hg, hne, hs]
  · simp [Storage.addOnlineCnt, hb, hs]

/-- Whether an event registers a joint of group `g` of a bus. -/
def registersIn (hcan : ι → Can) (bus : Fin 2) (g : Fin 16) : Event ι → Bool
  | .jointAdd p jointType id _ => (canCastToNum (hcan p)).toNat == bus.val &&
      (PartControl.finalId jointType id).toNat >>> 2 == g.val
  | _ => false

/-- What a run of a one-bus system has established. -/
structure Counted (hcan : ι → Can) (es : List (Event ι)) (s : Storage ι) : Prop where
  oneBus : s.config.OneBus
  bus_eq : ∀ p, (s.part p).hcan = hcan p
  counters : CounterInvariant s
  registered : ∀ bus g, registeredCnt s bus g = es.countP (registersIn hcan bus g)

section Step

variable {hcan : ι → Can} {es : List (Event ι)} {s t : Storage ι} {e : Event ι}

/-- Every event but a registration leaves the count of registrations alone. -/
theorem Counted.quiet (hs : Counted hcan es s) (he : RegistersOnHcan1 s e) (h : step s e = .ok t)
    (hno : ∀ bus g, registersIn hcan bus g e = false) (hcnt : CounterInvariant t)
    (hreg : ∀ bus g, registeredCnt t bus g = registeredCnt s bus g) :
    Counted hcan (es ++ [e]) t := by
  refine ⟨oneBus_step hs.oneBus he h, fun p => (hcan_of_step h p).trans (hs.bus_eq p), hcnt, ?_⟩
  intro bus g
  rw [hreg, hs.registered, List.countP_append, List.countP_singleton, hno]
  rfl

/-- Most of them leave the counters and the online flags alone, too. -/
theorem Counted.still (hs : Counted hcan es s) (he : RegistersOnHcan1 s e) (h : step s e = .ok t)
    (hno : ∀ bus g, registersIn hcan bus g e = false) (hconfig : t.config = s.config)
    (hdev : ∀ bus, (t.deviceJoint bus).elems.map (fun d => (d.online, d.ptr)) =
      (s.deviceJoint bus).elems.map fun d => (d.online, d.ptr))
    (hcnt : t.jointCmdGroupOnlineCnt = s.jointCmdGroupOnlineCnt) : Counted hcan (es ++ [e]) t := by
  refine hs.quiet he h hno (counterInvariant_congr hs.counters hconfig hdev hcnt) fun bus g => ?_
  exact (cnt_congr hdev (fun q =>
    congrArg JointData.Fixed.id (congrFun (congrArg Config.fixed hconfig) q)) bus g).1

theorem counted_jointAdd {p : ι} {jointType : JointType} {id : UInt8} {coeff : JointCoeff}
    (hs : Counted hcan es s) (he : RegistersOnHcan1 s (.jointAdd p jointType id coeff))
    (h : step s (.jointAdd p jointType id coeff) = .ok t) :
    Counted hcan (es ++ [.jointAdd p jointType id coeff]) t := by
  have hone := oneBus_step hs.oneBus he h
  have hbus : ∀ p, (t.part p).hcan = hcan p := fun p => (hcan_of_step h p).trans (hs.bus_eq p)
  obtain ⟨i, bus, head, slot, group, cmdGroup, hadd⟩ := jointAdded_of_step h
  have hb0 : (s.deviceJoint 0).elems = [] := List.map_eq_nil_iff.mp hs.oneBus.bus0
  have hb1 : bus = 1 := by
    have hb := hadd.bus_eq
    rw [he.1] at hb
    exact Fin.ext hb.symm
  have hfresh : ∀ b, ∀ d ∈ (s.deviceJoint b).elems, d.ptr ≠ (p, i) := by
    intro b d hd
    obtain rfl | rfl : b = 0 ∨ b = 1 := by omega
    · rw [hb0] at hd
      cases hd
    · exact (hadd.not_taken d (hb1 ▸ hd)).1
  obtain ⟨hcnt, hreg⟩ := counterInvariant_jointAdd hs.counters hadd hfresh
  refine ⟨hone, hbus, hcnt, fun b g => ?_⟩
  have hcan := hadd.bus_eq
  rw [hs.bus_eq p] at hcan
  rw [hreg, hs.registered, List.countP_append, List.countP_singleton]
  congr 1
  refine if_congr ?_ rfl rfl
  simp only [registersIn, hcan, Bool.and_eq_true, beq_iff_eq, Fin.ext_iff]
  exact and_congr_left fun _ => eq_comm

/-- Every event keeps the counters. -/
theorem counted_step (hs : Counted hcan es s) (he : RegistersOnHcan1 s e) (h : step s e = .ok t) :
    Counted hcan (es ++ [e]) t := by
  have hquiet := hs.quiet he h
  have hcongr := hs.still he h
  cases e with
  | jointAdd p jointType id coeff => exact counted_jointAdd hs he h
  | tick =>
    obtain rfl := Fallible.pure_eq_ok.mp h
    exact hcongr (fun _ _ => rfl) rfl (fun _ => rfl) rfl
  | canRx hcan' stdId rxData =>
    have hconfig := step_config h (by simp)
    obtain ⟨bus, -, rfl⟩ := jointUpdate_of_step h
    exact hcongr (fun _ _ => rfl) hconfig (jointUpdate_map s bus stdId fun _ _ => rfl) rfl
  | dbusRx rxData =>
    obtain ⟨data, error, rfl⟩ := dbusUpdate_of_step h
    exact hcongr (fun _ _ => rfl) rfl (fun _ => rfl) rfl
  | updateToController =>
    have hpass := updateToController_pass h
    refine hquiet (fun _ _ => rfl)
      (counterInvariant_updateToController hs.counters hs.oneBus h) fun bus g => ?_
    have hin : inGroup t g = inGroup s g := by
      funext q
      obtain ⟨f, hf⟩ := hpass.joint q
      rw [inGroup, inGroup, hf]
    rw [registeredCnt, hpass.deviceJoint, List.countP_map, hin]
    rfl
  | control q pidCalc target =>
    have hconfig := step_config h (by simp)
    obtain rfl := Fallible.pure_eq_ok.mp h
    exact hcongr (fun _ _ => rfl) hconfig (fun _ => rfl) rfl
  | updateTarget p =>
    have hframe := updateTarget_frame h
    refine hcongr (fun _ _ => rfl) ?_ ?_ ?_ <;> rw [hframe]
    · rfl
    · exact fun _ => rfl
  | setCanCurrent =>
    obtain rfl := setCanCurrent_of_step h
    exact hcongr (fun _ _ => rfl) rfl (fun _ => rfl) rfl

end Step

theorem counted_of_run {hcan : ι → Can} {es : List (Event ι)} {t : Storage ι}
    (h : OneBusRuns hcan es t) : Counted hcan es t :=
  h.invariant_events (I := Counted hcan)
    (fun _ _ _ _ hs hstep => counted_step hs hstep.1 hstep.2)
    ⟨oneBus_boot hcan, fun _ => rfl, fun _ _ => rfl, fun _ _ => rfl⟩

end Invariant

/-! ### The counters against their purpose -/

section Purpose

theorem onlineCnt_le (s : Storage ι) (bus : Fin 2) (g : Fin 16) :
    onlineCnt s bus g ≤ registeredCnt s bus g :=
  List.countP_mono_left fun _ _ h => (Bool.and_eq_true _ _ ▸ h).2

/-- A bus has at most one joint for each entry of the feedback table. -/
theorem registeredCnt_le {s : Storage ι} (h : s.config.OneBus) (bus : Fin 2) (g : Fin 16) :
    registeredCnt s bus g ≤ 17 := by
  apply (List.countP_le_length).trans
  obtain rfl | rfl : bus = 0 ∨ bus = 1 := by omega
  · have hnil : (s.deviceJoint 0).elems = [] := List.map_eq_nil_iff.mp h.bus0
    simp [hnil]
  · have hsub : (s.config.ptrs 1).map (fun q => (s.config.fixed q).headFeedback) ⊆
        (List.finRange 17).map gCanHeadFeedback := by
      intro x hx
      obtain ⟨q, hq, rfl⟩ := List.mem_map.mp hx
      obtain ⟨head, -, -, -, -, -, hfb⟩ := h.onBus1_of_mem hq
      exact List.mem_map.mpr ⟨head, List.mem_finRange head, hfb.symm⟩
    simpa [Storage.config] using (List.subperm_of_subset h.distinct hsub).length_le

/-- A group counts as on-line on bus 1 exactly when it has a registered joint, and never on
    bus 0. -/
theorem onlineCnt_ne_zero_iff {hcan : ι → Can} {es : List (Event ι)} {s : Storage ι}
    (h : Counted hcan es s) (bus : Fin 2) (g : Fin 16) :
    s.jointCmdGroupOnlineCnt bus g ≠ 0 ↔
      bus = 1 ∧ ∃ q ∈ s.config.ptrs 1, (s.config.fixed q).id.toNat >>> 2 = g.val := by
  have hle := registeredCnt_le h.oneBus bus g
  have hon := onlineCnt_le s bus g
  have hcnt : (s.jointCmdGroupOnlineCnt bus g).toNat =
      registeredCnt s bus g + onlineCnt s bus g := by
    rw [h.counters bus g, UInt8.toNat_ofNat']
    omega
  have hzero : s.jointCmdGroupOnlineCnt bus g = 0 ↔ registeredCnt s bus g = 0 := by
    rw [← UInt8.toNat_inj, hcnt]
    change _ = 0 ↔ _
    omega
  rw [Ne, hzero, registeredCnt, List.countP_eq_zero]
  push Not
  constructor
  · rintro ⟨d, hd, hin⟩
    obtain rfl | rfl : bus = 0 ∨ bus = 1 := by omega
    · have hnil : (s.deviceJoint 0).elems = [] := List.map_eq_nil_iff.mp h.oneBus.bus0
      rw [hnil] at hd
      cases hd
    · exact ⟨rfl, d.ptr, List.mem_map_of_mem hd, beq_iff_eq.mp hin⟩
  · rintro ⟨rfl, q, hq, hid⟩
    obtain ⟨d, hd, rfl⟩ := List.mem_map.mp hq
    exact ⟨d, hd, beq_iff_eq.mpr hid⟩

variable [DecidableEq ι]

/-- The counter of a group serves its purpose exactly until the first registration in it:
    from then on it counts every joint of the group once too often. -/
theorem countsOnline_iff {hcan : ι → Can} {es : List (Event ι)} {t : Storage ι}
    (h : OneBusRuns hcan es t) (bus : Fin 2) (g : Fin 16) :
    CountsOnline t bus g ↔ ∀ e ∈ es, registersIn hcan bus g e = false := by
  have hc := counted_of_run h
  have hon := onlineCnt_le t bus g
  have hreg := registeredCnt_le hc.oneBus bus g
  have hcnt : (t.jointCmdGroupOnlineCnt bus g).toNat =
      registeredCnt t bus g + onlineCnt t bus g := by
    rw [hc.counters bus g, UInt8.toNat_ofNat']
    omega
  have hnone : registeredCnt t bus g = 0 ↔ ∀ e ∈ es, registersIn hcan bus g e = false := by
    rw [hc.registered, List.countP_eq_zero]
    simp
  rw [← hnone]
  constructor
  · intro hpurpose
    have := hpurpose.counts
    omega
  · intro hzero
    have hcnt0 : t.jointCmdGroupOnlineCnt bus g = 0 := by
      rw [← UInt8.toNat_inj]
      change _ = 0
      omega
    refine ⟨by omega, fun _ => ⟨hcnt0, fun j hj => ?_⟩⟩
    obtain rfl : j.castLE (by decide) = g := Fin.ext hj
    exact if_neg (not_not.mpr hcnt0)

/-- A motor with id 1 is registered, answers once and then falls silent. -/
def silentMotor : List (Event Unit) :=
  [.jointAdd () .kRM3508 1 ⟨fun _ => {}, fun _ => 0, fun _ => 0⟩,
    .canRx .hcan1 0x201 (fun _ => 0), .updateToController] ++
  List.replicate 31 .tick ++ [.updateToController]

/-- Off-line at the end, the motor still counts, and its group's frame is still sent. -/
theorem silentMotor_counts :
    ∃ t, OneBusRuns (fun _ : Unit => .hcan1) silentMotor t ∧ ¬ CountsOnline t 1 0 ∧
      onlineCnt t 1 0 = 0 ∧ PartControl.groupFrames t 1 0 ≠ [] := by
  obtain ⟨t, hrun, hend⟩ := Run.of_check RegistersOnHcan1 step
    (boot fun _ : Unit => .hcan1) silentMotor
    (fun t => (t.jointCmdGroupOnlineCnt 1 0, onlineCnt t 1 0,
      (PartControl.groupFrames t 1 0).length)) (x := (1, 0, 1)) (by decide +kernel)
  simp only [Prod.mk.injEq] at hend
  obtain ⟨hcnt, hon, hframes⟩ := hend
  refine ⟨t, hrun, fun hpurpose => ?_, hon, ?_⟩
  · have hcounts := hpurpose.counts
    rw [hcnt, hon] at hcounts
    exact absurd hcounts (by decide)
  · exact List.ne_nil_of_length_pos (by omega)

/-- In the same run the other groups count correctly. -/
theorem countsOnline_iff_silentMotor :
    ∃ t, OneBusRuns (fun _ : Unit => .hcan1) silentMotor t ∧ CountsOnline t 1 1 := by
  obtain ⟨t, hrun, -⟩ := Run.of_check RegistersOnHcan1 step
    (boot fun _ : Unit => .hcan1) silentMotor (fun _ => ()) (x := ()) (by decide +kernel)
  exact ⟨t, hrun, (countsOnline_iff hrun 1 1).mpr (by decide)⟩

end Purpose

end RmMicroControllers
