import RmMicroControllers.App.History
import RmMicroControllers.App.OnlineCount

/-!
# The frames that drive the motors

Every motor listens to one command frame and reads two of its bytes. `Driven` says that
`set_can_current` sends that frame with the target last stored for the motor there. Three
index computations have to agree for this: the group of the on-line counter (`id >> 2`), the
slots of the transmit loop (`j << 2 | k`) and the table of frame ids.

## Main results

- `storedTargets_of_run` — the shared array holds, for every id, the target last stored for it
- `onlineDriven_iff` — which on-line motors are driven
-/

namespace RmMicroControllers

open Transition DeviceMonitor

variable {ι : Type}

/-- The big-endian two's-complement encoding of a current. -/
def Encodes (hi lo : UInt8) (current : Int16) : Prop :=
  ((hi.toNat * 256 + lo.toNat : ℕ) : ℤ) = current.toInt % 65536

theorem toNat_ofInt (x : ℤ) : ((UInt8.ofInt x).toNat : ℤ) = x % 256 := by
  simp [UInt8.ofInt]
  omega

theorem currentBytes_encodes (c : Int16) :
    Encodes (currentBytes c).1 (currentBytes c).2 c := by
  rw [Encodes, currentBytes]
  push_cast
  rw [toNat_ofInt, toNat_ofInt, Int.shiftRight_eq_div_pow]
  omega

/-- Two bytes encode one current only. -/
theorem currentBytes_encodes_iff (c c' : Int16) :
    Encodes (currentBytes c).1 (currentBytes c).2 c' ↔ c = c' := by
  refine ⟨fun h => ?_, fun h => h ▸ currentBytes_encodes c⟩
  have hc : c.toInt % 65536 = c'.toInt % 65536 := (currentBytes_encodes c).symm.trans h
  have ⟨h₁, h₂⟩ := FitsInt16.toInt c
  have ⟨h₃, h₄⟩ := FitsInt16.toInt c'
  exact Int16.toInt_inj.mp (by omega)

/-! ### The targets in the shared array -/

/-- The target last stored for the registered joint with a given id, zero without one. -/
def storedFor (c : Config ι) (g : History ι) (id : Fin 16) : CtrlInfo :=
  match (c.ptrs 1).find? fun q => (c.fixed q).id.toNat == id.val with
  | some q => g.stored q
  | none => {}

theorem storedFor_of_mem {c : Config ι} (hc : c.OneBus) (g : History ι) {q : JointPtr ι}
    {id : Fin 16} (hq : q ∈ c.ptrs 1) (hid : (c.fixed q).id.toNat = id) :
    storedFor c g id = g.stored q := by
  rw [storedFor]
  cases hfind : (c.ptrs 1).find? fun q => (c.fixed q).id.toNat == id.val with
  | none =>
    have hno := List.find?_eq_none.mp hfind q hq
    exact absurd (beq_iff_eq.mpr hid) hno
  | some q' =>
    have hid' : (c.fixed q').id.toNat = id := by simpa using List.find?_some hfind
    have heq : q' = q := hc.eq_of_id (List.mem_of_find?_eq_some hfind) hq
      (UInt8.toNat_inj.mp (hid'.trans hid.symm))
    exact congrArg g.stored heq

theorem storedFor_of_not_mem {c : Config ι} (g : History ι) {id : Fin 16}
    (h : ∀ q ∈ c.ptrs 1, (c.fixed q).id.toNat ≠ id) : storedFor c g id = {} := by
  have hfind : ((c.ptrs 1).find? fun q => (c.fixed q).id.toNat == id.val) = none :=
    List.find?_eq_none.mpr fun q hq heq => h q hq (beq_iff_eq.mp heq)
  rw [storedFor, hfind]

/-- The shared array against the history. -/
structure StoredTargets (s : Storage ι) (g : History ι) : Prop where
  target : ∀ id, s.jointTarget 1 id = storedFor s.config g id
  fresh : ∀ q, q ∉ s.config.ptrs 1 → g.stored q = {}

section Step

variable [DecidableEq ι]

/-- A registration adds an id for which nothing has been stored. -/
theorem storedTargets_jointAdd {s t : Storage ι} {g : History ι} {p : ι} {i : Fin 6}
    {head : Fin 17} {slot group : Fin 16} {cmdGroup : Fin 4} {id : UInt8} {coeff : JointCoeff}
    (hs : StoredTargets s g) (hc : s.config.OneBus) (hct : t.config.OneBus)
    (h : PartControl.JointAdded s p i 1 head slot group cmdGroup id coeff t) :
    StoredTargets t g := by
  have hptrs : t.config.ptrs 1 = s.config.ptrs 1 ++ [(p, i)] := h.ptrs_self
  have hnew : (p, i) ∉ s.config.ptrs 1 := h.not_mem_ptrs
  have hfixed : ∀ q ∈ s.config.ptrs 1, t.config.fixed q = s.config.fixed q := by
    intro q hq
    have hne : q ≠ (p, i) := fun heq => hnew (heq ▸ hq)
    exact congrArg JointData.fixed (h.joint_ne hne)
  refine ⟨fun k => ?_, fun q hq => hs.fresh q fun hmem => hq ?_⟩
  · rw [h.jointTarget, hs.target]
    by_cases hold : ∃ q ∈ s.config.ptrs 1, (s.config.fixed q).id.toNat = k
    · obtain ⟨q, hq, hid⟩ := hold
      have hq' : q ∈ t.config.ptrs 1 := hptrs ▸ List.mem_append_left _ hq
      rw [storedFor_of_mem hc g hq hid, storedFor_of_mem hct g hq' (by rw [hfixed q hq, hid])]
    · have hnone : ∀ q ∈ s.config.ptrs 1, (s.config.fixed q).id.toNat ≠ k :=
        fun q hq hid => hold ⟨q, hq, hid⟩
      rw [storedFor_of_not_mem g hnone]
      by_cases hk : (t.config.fixed (p, i)).id.toNat = k
      · rw [storedFor_of_mem hct g (hptrs ▸ List.mem_append_right _ List.mem_cons_self) hk]
        exact (hs.fresh (p, i) hnew).symm
      · refine (storedFor_of_not_mem g fun q hq => ?_).symm
        rw [hptrs] at hq
        rcases List.mem_append.mp hq with hq | hq
        · rw [hfixed q hq]
          exact hnone q hq
        · rwa [List.mem_singleton.mp hq]
  · exact hptrs ▸ List.mem_append_left _ hmem

/-- `update_target` stores the targets of the registered joints of one object. -/
theorem storedTargets_updateTarget {s t : Storage ι} {g : History ι} {p : ι}
    (hs : StoredTargets s g) (hc : s.config.OneBus)
    (h : PartControl.updateTarget s p = .ok t) : StoredTargets t (g.store s p) := by
  have hreg : ∀ i : Fin 6, i.val < (s.part p).jointCnt.toNat → (p, i) ∈ s.config.ptrs 1 :=
    fun i hi => (hc.registered p i).mpr hi
  have hstored := PartControl.updateTarget_eq_ok (fun i j hi hj hid =>
    congrArg Prod.snd (hc.eq_of_id (hreg i hi) (hreg j hj) hid)) h
  have hconfig : t.config = s.config := by rw [hstored.frame]; rfl
  refine ⟨fun k => ?_, fun q hq => ?_⟩
  · rw [hconfig]
    by_cases hold : ∃ q ∈ s.config.ptrs 1, (s.config.fixed q).id.toNat = k
    · obtain ⟨⟨p', i⟩, hq, hid⟩ := hold
      rw [storedFor_of_mem hc _ hq hid]
      by_cases hp : p' = p
      · subst hp
        have hi := (hc.registered p' i).mp hq
        have hbus : (canCastToNum (s.part p').hcan).toNat = (1 : Fin 2) := by
          by_cases hcan : (s.part p').hcan = .hcan1
          · rw [hcan]; rfl
          · have hzero := (hc.idle p' hcan).1
            rw [hzero] at hi
            exact absurd hi (Nat.not_lt_zero _)
        rw [hstored.stored i hi 1 k hbus hid]
        exact (if_pos ⟨rfl, hi⟩).symm
      · have hfree : ∀ j : Fin 6, j.val < (s.part p).jointCnt.toNat →
            (s.joint (p, j)).id.toNat ≠ k := by
          intro j hj hid'
          have heq := hc.eq_of_id (hreg j hj) hq (UInt8.toNat_inj.mp (hid'.trans hid.symm))
          exact hp (congrArg Prod.fst heq).symm
        rw [hstored.other 1 k hfree, hs.target, storedFor_of_mem hc g hq hid]
        exact (if_neg fun hpi => hp hpi.1).symm
    · have hnone : ∀ q ∈ s.config.ptrs 1, (s.config.fixed q).id.toNat ≠ k :=
        fun q hq hid => hold ⟨q, hq, hid⟩
      rw [storedFor_of_not_mem _ hnone, hstored.other 1 k fun i hi => hnone _ (hreg i hi),
        hs.target, storedFor_of_not_mem g hnone]
  · rw [hconfig] at hq
    have hout : ¬ (q.1 = p ∧ q.2.val < (s.part p).jointCnt.toNat) := by
      rintro ⟨hp, hi⟩
      exact hq (by rw [← hp] at hi; exact (hc.registered q.1 q.2).mpr hi)
    exact (if_neg hout).trans (hs.fresh q hq)

omit [DecidableEq ι] in
/-- What keeps the configuration, the array and the stored targets keeps the
    correspondence. -/
theorem StoredTargets.congr {s t : Storage ι} {g g' : History ι} (hs : StoredTargets s g)
    (hconfig : t.config = s.config) (htarget : t.jointTarget = s.jointTarget)
    (hstored : g'.stored = g.stored) : StoredTargets t g' := by
  refine ⟨fun id => ?_, fun q hq => ?_⟩
  · rw [htarget, hs.target, hconfig]
    simp only [storedFor, hstored]
  · rw [hconfig] at hq
    rw [hstored]
    exact hs.fresh q hq

theorem storedTargets_step {s t : Storage ι} {g : History ι} {e : Event ι}
    (hs : StoredTargets s g) (hc : s.config.OneBus) (he : RegistersOnHcan1 s e)
    (h : step s e = .ok t) : StoredTargets t (History.record s g e t) := by
  have hct := oneBus_step hc he h
  cases e with
  | jointAdd p jointType id coeff =>
    obtain ⟨i, bus, head, slot, group, cmdGroup, hadd⟩ := jointAdded_of_step h
    obtain rfl : bus = 1 := by
      have hb := hadd.bus_eq
      rw [he.1] at hb
      exact Fin.ext hb.symm
    exact storedTargets_jointAdd hs hc hct hadd
  | updateTarget p => exact storedTargets_updateTarget hs hc h
  | tick =>
    obtain rfl := Fallible.pure_eq_ok.mp h
    exact hs.congr rfl rfl rfl
  | canRx hcan stdId rxData =>
    have hconfig := step_config h (by simp)
    obtain ⟨bus, -, rfl⟩ := jointUpdate_of_step h
    apply hs.congr hconfig rfl
    unfold History.record
    dsimp only
    split <;> rfl
  | dbusRx rxData =>
    have hconfig := step_config h (by simp)
    obtain ⟨data, error, rfl⟩ := dbusUpdate_of_step h
    exact hs.congr hconfig rfl rfl
  | updateToController =>
    have hpass := updateToController_pass h
    exact hs.congr hpass.config hpass.jointTarget rfl
  | control q pidCalc target =>
    have hconfig := step_config h (by simp)
    obtain rfl := Fallible.pure_eq_ok.mp h
    exact hs.congr hconfig rfl rfl
  | setCanCurrent =>
    obtain rfl := setCanCurrent_of_step h
    exact hs.congr rfl rfl rfl

/-- The runs of a one-bus system with their histories. -/
abbrev OneBusHistory (hcan : ι → Can) (es : List (Event ι)) (x : Storage ι × History ι) :
    Prop :=
  Run (Ghost History.record (Guarded RegistersOnHcan1 (ofExcept step))) (boot hcan, {}) es x

theorem storedTargets_of_run {hcan : ι → Can} {es : List (Event ι)}
    {x : Storage ι × History ι} (h : OneBusHistory hcan es x) : StoredTargets x.1 x.2 := by
  have hinv : x.1.config.OneBus ∧ StoredTargets x.1 x.2 := by
    refine h.invariant (I := fun x => x.1.config.OneBus ∧ StoredTargets x.1 x.2) ?_ ?_
    · rintro x e y ⟨hc, hs⟩ ⟨⟨he, hstep⟩, hg⟩
      exact ⟨oneBus_step hc he hstep, hg ▸ storedTargets_step hs hc he hstep⟩
    · exact ⟨oneBus_boot hcan, fun _ => rfl, fun _ _ => rfl⟩
  exact hinv.2

end Step

/-! ### Which motors are driven -/

section Driven

/-- `set_can_current` sends on HCAN1 the frame that the motor of joint `q` listens to, with the
    target last stored for it in its two bytes. -/
def Driven (s : Storage ι) (g : History ι) (q : JointPtr ι) : Prop :=
  ∃ t frames, PartControl.setCanCurrent s = .ok t ∧ t.canTx = s.canTx ++ frames ∧
    ∃ frame ∈ frames, frame.hcan = .hcan1 ∧ frame.stdId = (s.joint q).headTarget ∧
      ∀ hi lo : Fin 8, hi.val = 2 * (((s.joint q).id.toNat - 1) % 4) → lo.val = hi.val + 1 →
        Encodes (frame.data hi) (frame.data lo) (g.stored q).current

/-- The three index computations agree on joint `q`. They disagree on two ids: the motor with
    id 4 counts in group 1 while its frame is that of group 0, and the motor with id 8 counts
    in group 2 while its frame is that of group 1, whose last slot carries the target of id 4. -/
structure Slotted (c : Config ι) (g : History ι) (q : JointPtr ι) : Prop where
  four : (c.fixed q).id = 4 → ∃ q' ∈ c.ptrs 1, (c.fixed q').id.toNat < 4
  eight : (c.fixed q).id = 8 → (storedFor c g 4).current = (g.stored q).current ∧
    ∃ q' ∈ c.ptrs 1, 4 ≤ (c.fixed q').id.toNat ∧ (c.fixed q').id.toNat < 8

/-- The slot of the transmit loop that an id belongs to carries the target of that id, except
    for id 8. -/
theorem slotId_eq : ∀ n : Fin 17, 1 ≤ n.val → n.val ≤ 11 → ∀ j k : Fin 4,
    j.val = (n.val - 1) / 4 → k.val = (n.val - 1) % 4 →
    (PartControl.slotId j k).val = if n.val = 8 then 4 else n.val := by
  decide

/-- Four consecutive ids share one frame. -/
theorem headTarget_eq_iff : ∀ n : Fin 17, 1 ≤ n.val → n.val ≤ 11 → ∀ j : Fin 4,
    gCanHeadTarget ((PartControl.slotId j 0).castLE (by decide)) = gCanHeadTarget n ↔
      j.val = (n.val - 1) / 4 := by
  decide

theorem groupData_slot (s : Storage ι) (bus : Fin 2) (j k : Fin 4) {hi lo : Fin 8}
    (hhi : hi.val = 2 * k.val) (hlo : lo.val = hi.val + 1) :
    (PartControl.groupData s bus j hi, PartControl.groupData s bus j lo) =
      currentBytes (s.jointTarget bus (PartControl.slotId j k)).current := by
  have hk : 2 * k.val + 1 < 8 := by omega
  obtain rfl : hi = ⟨2 * k.val, Nat.lt_of_succ_lt hk⟩ := Fin.ext hhi
  obtain rfl : lo = ⟨2 * k.val + 1, hk⟩ := Fin.ext hlo
  fin_cases k <;> rfl

/-- The frame of a motor is that of its group `j`, and slot `k` of it is what the motor reads. -/
theorem driven_slot_iff {hcan : ι → Can} {es : List (Event ι)} {s : Storage ι} {g : History ι}
    (hcnt : Counted hcan es s) {q : JointPtr ι} {n : Fin 17} (hid : (s.joint q).id.toNat = n)
    (htarget : (s.joint q).headTarget = gCanHeadTarget n) (hlo : 1 ≤ n.val) (hhi : n.val ≤ 11)
    {j k : Fin 4} (hj : j.val = (n.val - 1) / 4) (hk : k.val = (n.val - 1) % 4) :
    Driven s g q ↔
      (∃ q' ∈ s.config.ptrs 1, (s.config.fixed q').id.toNat >>> 2 = j.val) ∧
        (s.jointTarget 1 (PartControl.slotId j k)).current = (g.stored q).current := by
  constructor
  · rintro ⟨t, frames, ht, htx, frame, hframe, -, hstd, henc⟩
    rw [PartControl.setCanCurrent_eq] at ht
    obtain rfl := Except.ok.inj ht
    obtain rfl := List.append_cancel_left htx
    -- the identifier that the motor listens to is that of one group only
    obtain ⟨bus, j', hne, rfl⟩ := PartControl.mem_sentFrames.mp hframe
    obtain ⟨rfl, hgroup⟩ := (onlineCnt_ne_zero_iff hcnt bus _).mp hne
    obtain rfl : j' = j := by
      refine Fin.ext (((headTarget_eq_iff n hlo hhi j').mp ?_).trans hj.symm)
      rw [← htarget]
      exact hstd
    refine ⟨hgroup, (currentBytes_encodes_iff _ _).mp ?_⟩
    have hslot : (PartControl.groupData s 1 j' ⟨2 * k.val, by omega⟩,
        PartControl.groupData s 1 j' ⟨2 * k.val + 1, by omega⟩) = _ :=
      groupData_slot s 1 j' k rfl rfl
    rw [← hslot]
    exact henc _ _ (by rw [hid]; exact congrArg (2 * ·) hk) rfl
  · rintro ⟨hgroup, hcur⟩
    refine ⟨_, _, PartControl.setCanCurrent_eq s, rfl, PartControl.groupFrame s 1 j,
      PartControl.mem_sentFrames.mpr ⟨1, j, ?_, rfl⟩, rfl, ?_, fun hi lo hhi' hlo' => ?_⟩
    · exact (onlineCnt_ne_zero_iff hcnt 1 _).mpr ⟨rfl, hgroup⟩
    · rw [htarget]
      exact (headTarget_eq_iff n hlo hhi j).mpr hj
    · have hslot := groupData_slot s 1 j k (hhi'.trans (by rw [hid, hk])) hlo'
      obtain ⟨h₁, h₂⟩ := Prod.mk.inj hslot
      change Encodes (PartControl.groupData s 1 j hi) (PartControl.groupData s 1 j lo) _
      rw [h₁, h₂, ← hcur]
      exact currentBytes_encodes _

/-- One registered joint is driven exactly when the three index computations agree on it. -/
theorem driven_iff {hcan : ι → Can} {es : List (Event ι)} {s : Storage ι} {g : History ι}
    (hcnt : Counted hcan es s) (hs : StoredTargets s g) {q : JointPtr ι}
    (hq : q ∈ s.config.ptrs 1) : Driven s g q ↔ Slotted s.config g q := by
  obtain ⟨n, hid, hlo, hhi, -, htarget, -⟩ := hcnt.oneBus.onBus1_of_mem hq
  have hid' : (s.joint q).id.toNat = n := hid
  have htarget' : (s.joint q).headTarget = gCanHeadTarget n := htarget
  obtain ⟨j, hj⟩ : ∃ j : Fin 4, j.val = (n.val - 1) / 4 := ⟨⟨(n.val - 1) / 4, by omega⟩, rfl⟩
  obtain ⟨k, hk⟩ : ∃ k : Fin 4, k.val = (n.val - 1) % 4 := ⟨⟨(n.val - 1) % 4, by omega⟩, rfl⟩
  have hdriven := driven_slot_iff (g := g) hcnt hid' htarget' hlo hhi hj hk
  have hslotId := slotId_eq n hlo hhi j k hj hk
  have hnat : (s.config.fixed q).id.toNat = n := hid'
  have hshift : ∀ m : ℕ, m >>> 2 = m / 4 := fun m => Nat.shiftRight_eq_div_pow m 2
  have hpos : ∀ q' ∈ s.config.ptrs 1, 1 ≤ (s.config.fixed q').id.toNat := by
    intro q' hq'
    obtain ⟨m, hm, hm1, -⟩ := hcnt.oneBus.onBus1_of_mem hq'
    rwa [hm]
  have hval : ∀ {k : UInt8}, (s.config.fixed q).id = k → n.val = k.toNat :=
    fun h => hnat.symm.trans (congrArg UInt8.toNat h)
  rw [hdriven, hs.target]
  clear hdriven
  simp only [hshift]
  by_cases h8 : n.val = 8
  · -- the slot of id 8 carries the target of id 4
    have hslot : PartControl.slotId j k = 4 := Fin.ext (hslotId.trans (if_pos h8))
    rw [hslot]
    constructor
    · rintro ⟨⟨q', hq', hid4⟩, hcur⟩
      refine ⟨fun h => ?_, fun _ => ⟨hcur, q', hq', by omega, by omega⟩⟩
      exact absurd ((hval h).symm.trans h8) (by decide)
    · intro hslots
      obtain ⟨hcur, q', hq', h₁, h₂⟩ :=
        hslots.eight (UInt8.toNat_inj.mp (hnat.trans h8))
      exact ⟨⟨q', hq', by omega⟩, hcur⟩
  · have hstored : storedFor s.config g (PartControl.slotId j k) = g.stored q :=
      storedFor_of_mem hcnt.oneBus g hq (by rw [hslotId, if_neg h8, hnat])
    rw [hstored]
    constructor
    · rintro ⟨⟨q', hq', hid4⟩, -⟩
      refine ⟨fun h => ⟨q', hq', ?_⟩, fun h => absurd (hval h) h8⟩
      have h4 : n.val = 4 := hval h
      omega
    · intro hslots
      refine ⟨?_, rfl⟩
      by_cases h4 : n.val = 4
      · obtain ⟨q', hq', hlt⟩ := hslots.four (UInt8.toNat_inj.mp (hnat.trans h4))
        exact ⟨q', hq', by omega⟩
      · exact ⟨q, hq, by omega⟩

variable [DecidableEq ι]

/-- In every state of every run, all on-line motors are driven exactly when no id 4 is alone
    in ids 1 to 4, and every id 8 has company in ids 4 to 7 and the target of id 4. -/
theorem onlineDriven_iff {hcan : ι → Can} {es : List (Event ι)} {s : Storage ι}
    {g : History ι} (h : OneBusHistory hcan es (s, g)) :
    (∀ d ∈ (s.deviceJoint 1).elems, d.online = true → Driven s g d.ptr) ↔
      ∀ d ∈ (s.deviceJoint 1).elems, d.online = true → Slotted s.config g d.ptr := by
  have hcnt : Counted hcan es s := counted_of_run h.forget_ghost
  have hs : StoredTargets s g := storedTargets_of_run h
  exact forall₃_congr fun d hd _ => driven_iff hcnt hs (List.mem_map_of_mem hd)

/-- A motor with id 4, alone on the bus, answers. -/
def loneMotor : List (Event Unit) :=
  [.jointAdd () .kRM3508 4 ⟨fun _ => {}, fun _ => 0, fun _ => 0⟩,
    .canRx .hcan1 0x204 (fun _ => 0), .updateToController]

/-- It is on-line, and no frame is sent to it. -/
theorem loneMotor_not_driven :
    ∃ s g, OneBusHistory (fun _ : Unit => .hcan1) loneMotor (s, g) ∧
      ∃ d ∈ (s.deviceJoint 1).elems, d.online = true ∧ ¬ Driven s g d.ptr := by
  obtain ⟨⟨s, g⟩, hrun, hend⟩ := Run.of_check_ghost RegistersOnHcan1 History.record step
    (boot fun _ : Unit => .hcan1, {}) loneMotor
    (fun x => ((x.1.deviceJoint 1).elems.map fun d => (d.online, d.ptr),
      (x.1.joint ((), 0)).headTarget, (PartControl.sentFrames x.1).map (·.stdId)))
    (x := ([(true, ((), 0))], 0x200, [0x1FF])) (by decide +kernel)
  simp only [Prod.mk.injEq] at hend
  obtain ⟨helems, htarget, hsent⟩ := hend
  obtain ⟨d, hd, hdp⟩ := List.map_eq_singleton_iff.mp helems
  obtain ⟨hon, hptr⟩ := Prod.mk.inj hdp
  refine ⟨s, g, hrun, d, hd ▸ List.mem_cons_self, hon, ?_⟩
  rintro ⟨t, frames, ht, htx, frame, hframe, -, hstd, -⟩
  rw [PartControl.setCanCurrent_eq] at ht
  obtain rfl := Except.ok.inj ht
  obtain rfl := List.append_cancel_left htx
  have hmem : frame.stdId ∈ (PartControl.sentFrames s).map (·.stdId) := List.mem_map_of_mem hframe
  rw [hsent, hstd, hptr, htarget] at hmem
  exact absurd hmem (by decide)

/-- Two motors of one frame answer, and their targets are stored. -/
def twoMotors : List (Event Unit) :=
  [.jointAdd () .kRM3508 1 ⟨fun _ => {}, fun _ => 0, fun _ => 0⟩,
    .jointAdd () .kRM3508 4 ⟨fun _ => {}, fun _ => 0, fun _ => 0⟩,
    .canRx .hcan1 0x201 (fun _ => 0), .canRx .hcan1 0x204 (fun _ => 0), .updateToController,
    .control ((), 1) (fun _ => {}) { current := Int16.ofInt (-2) }, .updateTarget ()]

/-- With id 1 registered, id 4 is driven too. -/
theorem twoMotors_driven :
    ∃ s g, OneBusHistory (fun _ : Unit => .hcan1) twoMotors (s, g) ∧
      (s.deviceJoint 1).elems.map (·.online) = [true, true] ∧
      ∀ d ∈ (s.deviceJoint 1).elems, d.online = true → Driven s g d.ptr := by
  obtain ⟨⟨s, g⟩, hrun, hend⟩ := Run.of_check_ghost RegistersOnHcan1 History.record step
    (boot fun _ : Unit => .hcan1, {}) twoMotors
    (fun x => ((x.1.deviceJoint 1).elems.map (·.online),
      (x.1.config.ptrs 1).map fun q => (q, (x.1.config.fixed q).id)))
    (x := ([true, true], [(((), 0), 1), (((), 1), 4)])) (by decide +kernel)
  simp only [Prod.mk.injEq] at hend
  obtain ⟨hon, hids⟩ := hend
  have hid : ∀ q ∈ s.config.ptrs 1, (s.config.fixed q).id = 1 ∨ (s.config.fixed q).id = 4 := by
    intro q hq
    have hmem : (q, (s.config.fixed q).id) ∈
        (s.config.ptrs 1).map fun q => (q, (s.config.fixed q).id) := List.mem_map_of_mem hq
    rw [hids] at hmem
    simp only [List.mem_cons, Prod.mk.injEq, List.not_mem_nil, or_false] at hmem
    exact hmem.imp And.right And.right
  have hone : ∃ q ∈ s.config.ptrs 1, (s.config.fixed q).id.toNat < 4 := by
    have hmem : (((), 0), (1 : UInt8)) ∈
        (s.config.ptrs 1).map fun q => (q, (s.config.fixed q).id) := by
      rw [hids]
      exact List.mem_cons_self
    obtain ⟨q, hq, heq⟩ := List.mem_map.mp hmem
    exact ⟨q, hq, by rw [(Prod.mk.inj heq).2]; decide⟩
  refine ⟨s, g, hrun, hon, (onlineDriven_iff hrun).mpr fun d hd _ => ⟨fun _ => hone, ?_⟩⟩
  intro h8
  rcases hid d.ptr (List.mem_map_of_mem hd) with h | h <;>
    exact absurd (h8.symm.trans h) (by decide)

end Driven

end RmMicroControllers
