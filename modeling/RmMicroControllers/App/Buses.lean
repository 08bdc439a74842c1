import RmMicroControllers.App.OnlineCount

/-!
# The two CAN buses

`can_cast_to_num` numbers the buses 1 and 2, and the arrays they index have two elements. So
every call that uses HCAN2 leaves its array, and in the states that are left, all registered
joints, counters and frames belong to HCAN1.

## Main results

- `oneBusRuns_of_busRuns` — a run in which every call returned used HCAN1 only
- `usable_iff` — the calls that stay inside the arrays and on their bus
-/

namespace RmMicroControllers

open Transition DeviceMonitor Fallible

variable {ι : Type}

/-- The calls of a system whose final ids are 1 to 11 and whose frames come from the two
    buses. -/
def BusEvent (_ : Storage ι) : Event ι → Prop
  | .jointAdd _ jointType id _ => 1 ≤ (PartControl.finalId jointType id).toNat ∧
      (PartControl.finalId jointType id).toNat ≤ 11
  | .canRx hcan _ _ => hcan ≠ .other
  | _ => True

instance (s : Storage ι) : (e : Event ι) → Decidable (BusEvent s e)
  | .jointAdd _ _ _ _ => inferInstanceAs (Decidable (_ ∧ _))
  | .canRx _ _ _ => inferInstanceAs (Decidable (_ ≠ _))
  | .tick | .dbusRx _ | .updateToController | .control _ _ _ | .updateTarget _
  | .setCanCurrent => .isTrue trivial

/-- The calls that use HCAN2: a registration on it and a frame from it. -/
def OnHcan2 (s : Storage ι) : Event ι → Prop
  | .jointAdd p _ _ _ => (s.part p).hcan = .hcan2
  | .canRx hcan _ _ => hcan = .hcan2
  | _ => False

/-- Not an access outside one of the arrays that the bus number selects. -/
def InArrays : Fault → Prop
  | .outOfBounds array _ =>
    array ≠ .deviceJoint ∧ array ≠ .jointTarget ∧ array ≠ .jointCmdGroupOnlineCnt
  | _ => True

/-- What a usable bus is: the call stays inside the arrays, and what `set_can_current` sends
    for a bus goes out on the handle with that number. -/
structure Usable [DecidableEq ι] (s : Storage ι) (e : Event ι) : Prop where
  inArrays : ErrorsIn InArrays (step s e)
  sameBus : ∀ t, PartControl.setCanCurrent s = .ok t → ∃ frames, t.canTx = s.canTx ++ frames ∧
    ∀ frame ∈ frames, ∃ (bus : Fin 2) (j : Fin 4), frame = PartControl.groupFrame s bus j ∧
      (canCastToNum frame.hcan).toNat = bus

/-! ### Calls on HCAN1 stay inside the arrays -/

section InArrays

theorem inArrays_index {array : ArrayName} {n i : ℕ} (h : i < n) :
    ErrorsIn InArrays (index array n i) := by
  rw [index_of_lt array h]
  exact .ok _

/-- The other arrays are not selected by a bus number. -/
theorem inArrays_index_other {array : ArrayName} {n i : ℕ}
    (h : InArrays (.outOfBounds array i)) : ErrorsIn InArrays (index array n i) := by
  rw [index]
  split
  · exact .ok _
  · exact errorsIn_error.mpr h

theorem inArrays_setOnlineCnt {s : Storage ι} {canNum id change : UInt8}
    (hnum : canNum.toNat < 2) (hid : id.toNat < 64) :
    ErrorsIn InArrays (PartControl.setOnlineCnt s canNum id change) := by
  have hgroup : id.toNat >>> 2 < 16 := by
    rw [Nat.shiftRight_eq_div_pow]
    omega
  exact (inArrays_index hnum).bind fun _ _ => (inArrays_index hgroup).bind fun _ _ => .pure _

variable [DecidableEq ι]

theorem inArrays_registerAndInit {s : Storage ι} {hcan : Can} {q : JointPtr ι}
    (hcan1 : hcan = .hcan1) : ErrorsIn InArrays (registerAndInit s hcan q) := by
  subst hcan1
  refine (inArrays_index_other (by simp [InArrays])).bind fun _ _ =>
    (inArrays_index (by decide)).bind fun _ _ => ?_
  split
  · exact errorsIn_error.mpr trivial
  · exact .pure _

theorem inArrays_jointAdd {s : Storage ι} {p : ι} {jointType : JointType} {id : UInt8}
    {coeff : JointCoeff} (hcan : (s.part p).hcan = .hcan1)
    (hid : (PartControl.finalId jointType id).toNat ≤ 11) :
    ErrorsIn InArrays (PartControl.jointAdd s p jointType id coeff) := by
  rw [PartControl.jointAdd]
  generalize PartControl.finalId jointType id = id at hid ⊢
  refine (inArrays_index_other (by simp [InArrays])).bind fun slot _ => ?_
  split
  · exact errorsIn_error.mpr trivial
  · refine (inArrays_index_other (by simp [InArrays])).bind fun i _ =>
      (inArrays_registerAndInit hcan).bind fun u _ =>
        (inArrays_index_other (by simp [InArrays])).bind fun group _ => ?_
    refine (inArrays_setOnlineCnt ?_ (by omega)).bind fun v _ => .pure _
    rw [hcan]
    decide

theorem inArrays_updateDevices {ds : List (JointDevice ι)} {s : Storage ι}
    (h : ∀ d ∈ ds, (s.joint d.ptr).canNum.toNat < 2 ∧ (s.joint d.ptr).id.toNat < 64) :
    ErrorsIn InArrays (updateDevices ds s) := by
  induction ds generalizing s with
  | nil => exact .pure _
  | cons d ds ih =>
    have hone : ErrorsIn InArrays (updateDevice s.tick d s) := by
      obtain ⟨f, hf⟩ := (MonitorFrame.storeFeedback (judge s.tick d) s).joint d.ptr
      obtain ⟨hnum, hid⟩ := h d List.mem_cons_self
      rw [updateDevice]
      simp only [hf]
      split
      · exact (inArrays_setOnlineCnt hnum hid).bind fun _ _ => .pure _
      · exact .pure _
    apply hone.bind
    intro r hr
    have hframe := updateDevice_frame hr
    refine (ih fun e he => ?_).bind fun _ _ => .pure _
    obtain ⟨f, hf⟩ := hframe.joint e.ptr
    rw [hf]
    exact h e (List.mem_cons_of_mem _ he)

theorem inArrays_updateToController {s : Storage ι} (hc : s.config.OneBus) :
    ErrorsIn InArrays (updateToController s) := by
  have hjoint : ∀ q ∈ s.config.ptrs 1,
      (s.joint q).canNum.toNat < 2 ∧ (s.joint q).id.toNat < 64 := by
    intro q hq
    obtain ⟨head, hid, -, hhi, hnum, -⟩ := hc.onBus1_of_mem hq
    change (s.joint q).id.toNat = head at hid
    change (s.joint q).canNum = 1 at hnum
    exact ⟨by rw [hnum]; decide, by omega⟩
  refine ErrorsIn.foldlM (I := fun u => u.config = s.config) (fun u bus _ hu => ⟨?_, ?_⟩) rfl
  · refine (inArrays_updateDevices fun d hd => ?_).bind fun _ _ => .pure _
    have hfixed : (u.joint d.ptr).fixed = (s.joint d.ptr).fixed :=
      congrFun (congrArg Config.fixed hu) d.ptr
    have hq : d.ptr ∈ s.config.ptrs bus := by
      rw [← hu]
      exact List.mem_map_of_mem hd
    obtain rfl | rfl : bus = 0 ∨ bus = 1 := by omega
    · rw [hc.bus0] at hq
      cases hq
    · have hj := hjoint d.ptr hq
      rwa [← show _ = (s.joint d.ptr).canNum from congrArg JointData.Fixed.canNum hfixed,
        ← show _ = (s.joint d.ptr).id from congrArg JointData.Fixed.id hfixed] at hj
  · exact fun v hv => (updateBus_config hv).trans hu

omit [DecidableEq ι] in
theorem inArrays_updateTarget {s : Storage ι} {p : ι} (hc : s.config.OneBus) :
    ErrorsIn InArrays (PartControl.updateTarget s p) := by
  refine ErrorsIn.foldlM (I := fun u => u.config = s.config) (fun u i hi hu => ⟨?_, ?_⟩) rfl
  · refine (inArrays_index_other (by simp [InArrays])).bind fun k hk => ?_
    rw [index_eq_ok] at hk
    have hlt : k.val < (s.part p).jointCnt.toNat := by
      rw [← hk]
      exact List.mem_range.mp hi
    obtain ⟨head, hid, -, hhi, -⟩ := hc.onBus1 p k hlt
    have hcan : (u.part p).hcan = .hcan1 := by
      rw [show (u.part p).hcan = (s.part p).hcan from congrFun (congrArg Config.hcan hu) p]
      by_contra hne
      have hzero : (s.part p).jointCnt = 0 := (hc.idle p hne).1
      rw [hzero] at hlt
      exact Nat.not_lt_zero _ hlt
    have hid' : (u.joint (p, k)).id.toNat = head := by
      rw [← hid]
      exact congrArg (fun f => f.id.toNat) (congrFun (congrArg Config.fixed hu) (p, k))
    rw [hcan]
    exact (inArrays_index (by decide)).bind fun _ _ =>
      (inArrays_index (by omega)).bind fun _ _ => .pure _
  · intro v hv
    obtain ⟨k, -, hv⟩ := bind_eq_ok.mp hv
    obtain ⟨bus, id, -, -, rfl⟩ := PartControl.setTarget_eq_ok.mp hv
    exact hu

end InArrays

/-! ### Calls on HCAN2 leave the arrays -/

section Runs

variable [DecidableEq ι]

/-- The runs of a system that uses both buses. -/
abbrev BusRuns (hcan : ι → Can) (es : List (Event ι)) (t : Storage ι) : Prop :=
  Run (Guarded BusEvent (ofExcept step)) (boot hcan) es t

/-- A registration on HCAN2 fails in an object that has no joints yet. -/
theorem jointAdd_hcan2 {s : Storage ι} {p : ι} {jointType : JointType} {id : UInt8}
    {coeff : JointCoeff} (hcan : (s.part p).hcan = .hcan2) (hcnt : (s.part p).jointCnt = 0)
    (hfree : ∀ slot, (s.part p).jointIdPtr slot = none)
    (hid : (PartControl.finalId jointType id).toNat ≤ 11) :
    PartControl.jointAdd s p jointType id coeff = .error (.outOfBounds .deviceJoint 2) := by
  rw [PartControl.jointAdd]
  generalize PartControl.finalId jointType id = id at hid ⊢
  simp only [index_of_lt .jointIdPtr (show id.toNat < 16 by omega), ok_bind, hfree, hcnt, hcan,
    index_of_lt .joint (show (0 : UInt8).toNat < 6 by decide)]
  rw [registerAndInit]
  simp only [Option.isSome_none, Bool.false_eq_true, if_false]
  rw [index_of_lt .canHead (by simpa [Storage.joint] using by omega)]
  rfl

/-- A call that uses HCAN2 fails. -/
theorem onHcan2_fails {s : Storage ι} {e : Event ι} (hc : s.config.OneBus) (he : BusEvent s e)
    (h2 : OnHcan2 s e) : step s e = .error (.outOfBounds .deviceJoint 2) := by
  cases e with
  | jointAdd p jointType id coeff =>
    have hcan : (s.part p).hcan = .hcan2 := h2
    obtain ⟨hcnt, hfree⟩ := hc.idle p (by
      change (s.part p).hcan ≠ .hcan1
      rw [hcan]
      decide)
    change (do return (← PartControl.jointAdd s p jointType id coeff).2) = _
    rw [jointAdd_hcan2 hcan hcnt hfree he.2]
    rfl
  | canRx hcan stdId rxData =>
    obtain rfl : hcan = .hcan2 := h2
    rfl
  | _ => exact absurd h2 id

/-- A run in which every call returned is a run on HCAN1 alone. -/
theorem oneBusRuns_of_busRuns {hcan : ι → Can} (hhcan : ∀ p, hcan p ≠ .other)
    {es : List (Event ι)} {t : Storage ι} (h : BusRuns hcan es t) :
    OneBusRuns hcan es t := by
  induction h with
  | nil => exact .nil
  | @snoc es s t e _ hstep ih =>
    have hcnt : Counted hcan es s := counted_of_run ih
    refine ih.snoc ⟨?_, hstep.2⟩
    have hno : ¬ OnHcan2 s e := by
      intro h2
      have hfail := onHcan2_fails hcnt.oneBus hstep.1 h2
      exact absurd (hstep.2.symm.trans hfail) (by simp)
    cases e with
    | jointAdd p jointType id coeff =>
      refine ⟨?_, hstep.1⟩
      have hp := hhcan p
      rw [← hcnt.bus_eq] at hp
      cases hcan' : (s.part p).hcan with
      | hcan1 => rfl
      | hcan2 => exact absurd hcan' hno
      | other => exact absurd hcan' hp
    | _ => trivial

/-- In every reachable state, a call stays inside the arrays and on its bus exactly when it
    does not use HCAN2. -/
theorem usable_iff {hcan : ι → Can} (hhcan : ∀ p, hcan p ≠ .other) {es : List (Event ι)}
    {s : Storage ι} (h : BusRuns hcan es s) {e : Event ι} (he : BusEvent s e) :
    Usable s e ↔ ¬ OnHcan2 s e := by
  have hrun := oneBusRuns_of_busRuns hhcan h
  have hcnt : Counted hcan es s := counted_of_run hrun
  constructor
  · intro husable h2
    have hfail := husable.inArrays _ (onHcan2_fails hcnt.oneBus he h2)
    exact hfail.1 rfl
  · intro hno
    refine ⟨?_, fun t ht => ?_⟩
    · cases e with
      | jointAdd p jointType id coeff =>
        have hp := hhcan p
        rw [← hcnt.bus_eq] at hp
        have hcan1 : (s.part p).hcan = .hcan1 := by
          cases hcan' : (s.part p).hcan with
          | hcan1 => rfl
          | hcan2 => exact absurd hcan' hno
          | other => exact absurd hcan' hp
        exact (inArrays_jointAdd hcan1 he.2).bind fun _ _ => .pure _
      | canRx hcan' stdId rxData =>
        cases hcan' with
        | hcan1 => exact .ok _
        | hcan2 => exact absurd rfl hno
        | other => exact absurd rfl he
      | updateToController => exact inArrays_updateToController hcnt.oneBus
      | updateTarget p => exact inArrays_updateTarget hcnt.oneBus
      | setCanCurrent =>
        change ErrorsIn InArrays (PartControl.setCanCurrent s)
        rw [PartControl.setCanCurrent_eq]
        exact .ok _
      | tick | dbusRx rxData | control q pidCalc target => exact .pure _
    -- only groups of the first bus have online joints, so every frame is one of its groups
    · rw [PartControl.setCanCurrent_eq] at ht
      obtain rfl := Except.ok.inj ht
      refine ⟨_, rfl, fun frame hframe => ?_⟩
      obtain ⟨bus, j, hne, rfl⟩ := PartControl.mem_sentFrames.mp hframe
      obtain ⟨rfl, -⟩ := (onlineCnt_ne_zero_iff hcnt bus _).mp hne
      exact ⟨1, j, rfl, rfl⟩

/-- The first joint of an object on HCAN2 is registered. -/
theorem usable_fails_hcan2 :
    BusRuns (fun _ : Unit => .hcan2) [] (boot fun _ : Unit => .hcan2) ∧
      BusEvent (boot fun _ : Unit => .hcan2) (.jointAdd () .kRM3508 1 ⟨fun _ => {}, fun _ => 0,
        fun _ => 0⟩) ∧
      ¬ Usable (boot fun _ : Unit => .hcan2) (.jointAdd () .kRM3508 1 ⟨fun _ => {}, fun _ => 0,
        fun _ => 0⟩) := by
  refine ⟨.nil, by decide, fun husable => ?_⟩
  have hfault := husable.inArrays (.outOfBounds .deviceJoint 2) rfl
  exact hfault.1 rfl

/-- On HCAN1 the same registration is fine. -/
theorem usable_hcan1 :
    Usable (boot fun _ : Unit => .hcan1) (.jointAdd () .kRM3508 1 ⟨fun _ => {}, fun _ => 0,
      fun _ => 0⟩) :=
  (@usable_iff Unit _ (fun _ => .hcan1) (fun _ => by decide) _ _ .nil _ (by decide)).mpr
    fun h2 => absurd (show Can.hcan1 = .hcan2 from h2) (by decide)

end Runs

end RmMicroControllers
