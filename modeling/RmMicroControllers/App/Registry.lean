import Mathlib.Data.List.Nodup
import RmMicroControllers.App.System

/-!
# The registry of a one-bus system

When joints are registered on HCAN1 only, with final ids from 1 to 11, the registry keeps its
shape along every run: the devices of bus 1 are exactly the joints added so far, bus 0 has
none, and the ids are pairwise different.
-/

namespace RmMicroControllers

open Transition

variable {ι : Type} [DecidableEq ι]

/-- The registrations of a one-bus system. Every other event is allowed. -/
def RegistersOnHcan1 (s : Storage ι) : Event ι → Prop
  | .jointAdd p jointType id _ => (s.part p).hcan = .hcan1 ∧
      1 ≤ (PartControl.finalId jointType id).toNat ∧
      (PartControl.finalId jointType id).toNat ≤ 11
  | _ => True

instance (s : Storage ι) : (e : Event ι) → Decidable (RegistersOnHcan1 s e)
  | .jointAdd _ _ _ _ => inferInstanceAs (Decidable (_ ∧ _ ∧ _))
  | .tick | .canRx _ _ _ | .dbusRx _ | .updateToController | .control _ _ _
  | .updateTarget _ | .setCanCurrent => .isTrue trivial

/-- A joint with an id from 1 to 11 on bus 1, whose CAN ids are those of the tables. -/
def JointData.Fixed.OnBus1 (f : JointData.Fixed) : Prop :=
  ∃ head : Fin 17, f.id.toNat = head ∧ 1 ≤ head.val ∧ head.val ≤ 11 ∧ f.canNum = 1 ∧
    f.headTarget = gCanHeadTarget head ∧ f.headFeedback = gCanHeadFeedback head

/-- The shape of the registry. -/
structure Config.OneBus (c : Config ι) : Prop where
  cnt_le : ∀ p, (c.jointCnt p).toNat ≤ 6
  idle : ∀ p, c.hcan p ≠ .hcan1 → c.jointCnt p = 0 ∧ ∀ slot, c.jointIdPtr p slot = none
  onBus1 : ∀ p (i : Fin 6), i.val < (c.jointCnt p).toNat → (c.fixed (p, i)).OnBus1
  registered : ∀ p (i : Fin 6), (p, i) ∈ c.ptrs 1 ↔ i.val < (c.jointCnt p).toNat
  bus0 : c.ptrs 0 = []
  distinct : ((c.ptrs 1).map fun q => (c.fixed q).headFeedback).Nodup

omit [DecidableEq ι] in
theorem oneBus_boot (hcan : ι → Can) : (boot hcan).config.OneBus where
  cnt_le p := by simp [Storage.config, boot]
  idle p _ := ⟨rfl, fun _ => rfl⟩
  onBus1 p i h := by simp [Storage.config, boot] at h
  registered p i := by simp [Storage.config, boot]
  bus0 := rfl
  distinct := .nil

namespace Config.OneBus

omit [DecidableEq ι]

variable {c : Config ι}

theorem onBus1_of_mem (h : c.OneBus) {q : JointPtr ι} (hq : q ∈ c.ptrs 1) :
    (c.fixed q).OnBus1 :=
  h.onBus1 q.1 q.2 ((h.registered q.1 q.2).mp hq)

/-- Two registered joints with the same id are the same joint. -/
theorem eq_of_id (h : c.OneBus) {q q' : JointPtr ι} (hq : q ∈ c.ptrs 1) (hq' : q' ∈ c.ptrs 1)
    (hid : (c.fixed q).id = (c.fixed q').id) : q = q' := by
  obtain ⟨k, hk, -, -, -, -, hfb⟩ := h.onBus1_of_mem hq
  obtain ⟨k', hk', -, -, -, -, hfb'⟩ := h.onBus1_of_mem hq'
  have hkk : k = k' := Fin.ext (by rw [← hk, ← hk', hid])
  have hsame : (c.fixed q).headFeedback = (c.fixed q').headFeedback := by rw [hfb, hfb', hkk]
  exact List.inj_on_of_nodup_map h.distinct hq hq' hsame

end Config.OneBus

/-- A registration on HCAN1 keeps the shape of the registry. -/
theorem oneBus_jointAdd {s t : Storage ι} {p : ι} {i : Fin 6} {bus : Fin 2} {head : Fin 17}
    {slot group : Fin 16} {cmdGroup : Fin 4} {id : UInt8} {coeff : JointCoeff}
    (h : PartControl.JointAdded s p i bus head slot group cmdGroup id coeff t)
    (hs : s.config.OneBus) (hcan : (s.part p).hcan = .hcan1) (hlo : 1 ≤ id.toNat)
    (hhi : id.toNat ≤ 11) : t.config.OneBus := by
  obtain rfl : bus = 1 := by
    have hbus := h.bus_eq
    rw [hcan] at hbus
    exact Fin.ext hbus.symm
  have hnew : (t.joint (p, i)).fixed.OnBus1 := by
    rw [h.joint_self, hcan]
    exact ⟨head, h.head_eq, h.head_eq ▸ hlo, h.head_eq ▸ hhi, rfl, rfl, rfl⟩
  have hcnt : (t.part p).jointCnt.toNat = i + 1 := by
    rw [h.jointCnt_self, UInt8.toNat_add, h.cnt_eq]
    have := i.isLt
    simp only [UInt8.reduceToNat]
    omega
  have hcnt_ne : ∀ p', p' ≠ p → (t.part p').jointCnt = (s.part p').jointCnt :=
    fun p' hp' => h.jointCnt_ne hp'
  have hptrs : t.config.ptrs 1 = s.config.ptrs 1 ++ [(p, i)] := h.ptrs_self
  -- the new joint is the first one of its object that was not registered
  have hold : ∀ q ∈ s.config.ptrs 1, q ≠ (p, i) ∧ t.joint q = s.joint q := by
    intro q hq
    have hlt := (hs.registered q.1 q.2).mp hq
    have hne : q ≠ (p, i) := by
      rintro rfl
      have hcnt := h.cnt_eq
      change i.val < (s.part p).jointCnt.toNat at hlt
      omega
    exact ⟨hne, h.joint_ne hne⟩
  refine
    { cnt_le := fun p' => ?_
      idle := fun p' hp' => ?_
      onBus1 := fun p' i' hi' => ?_
      registered := fun p' i' => ?_
      bus0 := ?_
      distinct := ?_ }
  · change (t.part p').jointCnt.toNat ≤ 6
    by_cases hp : p' = p
    · subst hp; have := i.isLt; omega
    · rw [hcnt_ne p' hp]; exact hs.cnt_le p'
  · change (t.part p').hcan ≠ .hcan1 at hp'
    rw [h.hcan] at hp'
    have hp : p' ≠ p := by rintro rfl; exact hp' hcan
    have hsame : t.part p' = s.part p' := by simp [h.part, hp]
    change (t.part p').jointCnt = 0 ∧ ∀ slot, (t.part p').jointIdPtr slot = none
    rw [hsame]
    exact hs.idle p' hp'
  · change i'.val < (t.part p').jointCnt.toNat at hi'
    by_cases hq : ((p', i') : JointPtr ι) = (p, i)
    · change (t.joint (p', i')).fixed.OnBus1
      rw [hq]
      exact hnew
    · have hold' : i'.val < (s.part p').jointCnt.toNat := by
        by_cases hp : p' = p
        · subst hp
          have hne : i'.val ≠ i.val := fun hv => hq (by rw [Fin.ext hv])
          have := h.cnt_eq
          omega
        · rwa [← hcnt_ne p' hp]
      change (t.joint (p', i')).fixed.OnBus1
      rw [h.joint_ne hq]
      exact hs.onBus1 p' i' hold'
  · rw [hptrs, List.mem_append, List.mem_singleton, hs.registered]
    change i'.val < (s.part p').jointCnt.toNat ∨ _ ↔ i'.val < (t.part p').jointCnt.toNat
    have := h.cnt_eq
    by_cases hp : p' = p
    · subst hp
      simp only [hcnt, Prod.mk.injEq, true_and, Fin.ext_iff]
      omega
    · rw [hcnt_ne p' hp]
      simp [hp]
  · have hb : t.deviceJoint 0 = s.deviceJoint 0 := h.deviceJoint_ne (by decide)
    change (t.deviceJoint 0).elems.map _ = []
    rw [hb]
    exact hs.bus0
  · have hmap : (s.config.ptrs 1).map (fun q => (t.config.fixed q).headFeedback) =
        (s.config.ptrs 1).map fun q => (s.config.fixed q).headFeedback :=
      List.map_congr_left fun q hq => by
        change (t.joint q).headFeedback = (s.joint q).headFeedback
        rw [(hold q hq).2]
    -- no registered joint listens to the new id, or the registration would have failed
    rw [hptrs, List.map_append, hmap, List.nodup_append]
    refine ⟨hs.distinct, List.nodup_singleton _, fun a ha b hb => ?_⟩
    obtain ⟨q, hq, rfl⟩ := List.mem_map.mp ha
    obtain ⟨d, hd, rfl⟩ := List.mem_map.mp hq
    have hfree := (h.not_taken d hd).2
    have hb' : b = gCanHeadFeedback head := by
      change b ∈ [(t.joint (p, i)).headFeedback] at hb
      rw [h.joint_self] at hb
      exact List.mem_singleton.mp hb
    rw [hb']
    exact hfree

theorem oneBus_step {s t : Storage ι} {e : Event ι} (hs : s.config.OneBus)
    (he : RegistersOnHcan1 s e) (h : step s e = .ok t) : t.config.OneBus := by
  cases e with
  | jointAdd p jointType id coeff =>
    obtain ⟨i, bus, head, slot, group, cmdGroup, hadd⟩ := jointAdded_of_step h
    exact oneBus_jointAdd hadd hs he.1 he.2.1 he.2.2
  | _ => rw [step_config h (by simp)]; exact hs

/-- The runs of a one-bus system. -/
abbrev OneBusRuns (hcan : ι → Can) (es : List (Event ι)) (t : Storage ι) : Prop :=
  Run (Guarded RegistersOnHcan1 (ofExcept step)) (boot hcan) es t

/-- The bus that an object drives never changes. -/
theorem hcan_of_step {s t : Storage ι} {e : Event ι} (h : step s e = .ok t) (p : ι) :
    (t.part p).hcan = (s.part p).hcan := by
  cases e with
  | jointAdd p' jointType id coeff =>
    obtain ⟨i, bus, head, slot, group, cmdGroup, hadd⟩ := jointAdded_of_step h
    exact hadd.hcan p
  | _ => exact congrFun (congrArg Config.hcan (step_config h (by simp))) p

theorem oneBus_of_run {hcan : ι → Can} {es : List (Event ι)} {t : Storage ι}
    (h : OneBusRuns hcan es t) : t.config.OneBus :=
  h.invariant (I := fun s => s.config.OneBus) (fun _ _ _ hs hstep => oneBus_step hs hstep.1 hstep.2)
    (oneBus_boot hcan)

end RmMicroControllers
