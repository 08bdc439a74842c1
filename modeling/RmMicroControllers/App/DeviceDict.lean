import RmMicroControllers.App.Demultiplexer

/-!
# The device dictionary

`register_and_init` enters the address of the vector's end in the dictionary and then calls
`push_back`. The address is that of the new element as long as the vector stays where it is,
which is for the eight elements it has reserved. The ninth moves all of them.

## Main results

- `located_of_run` — where the dictionary points, and where the devices are
- `coherent_iff` — the dictionary is coherent exactly for up to eight registrations
-/

namespace RmMicroControllers

open Transition DeviceMonitor

variable {ι : Type} [DecidableEq ι]

/-- The flag that `update_to_controller` last wrote for each joint. -/
abbrev OnlineLog (ι : Type) := JointPtr ι → Bool

/-- `update_to_controller` writes the flag of every device. -/
def OnlineLog.record (_ : Storage ι) (g : OnlineLog ι) (e : RegistryEvent ι) (t : Storage ι) :
    OnlineLog ι :=
  match e with
  | .call .updateToController => fun q =>
    match (t.deviceJoint 1).elems.find? fun d => d.ptr = q with
    | some d => d.online
    | none => g q
  | _ => g

theorem OnlineLog.record_of_ne (g : OnlineLog ι) (s t : Storage ι) {e : RegistryEvent ι}
    (he : e ≠ .call .updateToController) : g.record s e t = g := by
  cases e with
  | register q => rfl
  | call e => cases e <;> first | rfl | exact absurd rfl he

/-- The dictionary leads from every registered joint to its device in the current storage. -/
def Coherent (s : Storage ι) (g : OnlineLog ι) : Prop :=
  ∀ q ∈ s.config.ptrs 1, ∃ k d,
    s.deviceDict.lookup q = some ⟨1, (s.deviceJoint 1).generation, k⟩ ∧
    (s.deviceJoint 1).elems[k]? = some d ∧ d.ptr = q ∧ getOnline s q = .ok (g q)

/-- Where the dictionary points after the registrations of a run. The first nine entries
    point into the first storage, and nine devices are no longer there. -/
structure Located (es : List (RegistryEvent ι)) (s : Storage ι) (g : OnlineLog ι) : Prop where
  length_eq : (s.deviceJoint 1).elems.length = es.countP (·.Registers)
  nodup : (s.config.ptrs 1).Nodup
  reserved : (s.deviceJoint 1).elems.length ≤ 8 →
    (s.deviceJoint 1).generation = 0 ∧ (s.deviceJoint 1).capacity = 8
  moved : 8 < (s.deviceJoint 1).elems.length → 0 < (s.deviceJoint 1).generation
  entry : ∀ k q, k ≤ 8 → (s.config.ptrs 1)[k]? = some q → s.deviceDict.lookup q = some ⟨1, 0, k⟩
  keys : ∀ q, (s.deviceDict.lookup q).isSome → q ∈ s.config.ptrs 1
  online : ∀ d ∈ (s.deviceJoint 1).elems, d.online = g d.ptr
  unknown : ∀ q, q ∉ s.config.ptrs 1 → g q = false

theorem located_register {es : List (RegistryEvent ι)} {s t : Storage ι} {g : OnlineLog ι}
    {e : RegistryEvent ι} {q : JointPtr ι} (he : e.Registers) (h : RegisteredOn1 s q t)
    (hs : Located es s g) : Located (es ++ [e]) t g := by
  have helems : (t.deviceJoint 1).elems = (s.deviceJoint 1).elems ++
      [{ cmdErrorDuration := 10, ptr := q, data := {} }] := by
    rw [h.bus1, DeviceVector.pushBack_elems]
  have hlen : (t.deviceJoint 1).elems.length = (s.deviceJoint 1).elems.length + 1 := by
    rw [helems, List.length_append, List.length_singleton]
  have hptrs : (s.config.ptrs 1).length = (s.deviceJoint 1).elems.length := List.length_map _
  have hkey : (s.deviceDict.lookup q).isSome = false := by
    cases hsome : (s.deviceDict.lookup q).isSome with
    | false => rfl
    | true => exact absurd (hs.keys q hsome) h.not_mem
  have hdict : t.deviceDict = (q, ⟨1, (s.deviceJoint 1).generation,
      (s.deviceJoint 1).elems.length⟩) :: s.deviceDict := by
    rw [h.deviceDict, dictInsert, hkey]
    rfl
  have hlookup : ∀ q', q' ≠ q → t.deviceDict.lookup q' = s.deviceDict.lookup q' := by
    intro q' hq'
    rw [hdict, List.lookup_cons, beq_eq_false_iff_ne.mpr hq']
  refine
    { length_eq := ?_
      nodup := ?_
      reserved := fun hle => ?_
      moved := fun hlt => ?_
      entry := fun k q' hk hq' => ?_
      keys := fun q' hq' => ?_
      online := fun d hd => ?_
      unknown := fun q' hq' => hs.unknown q' fun hmem => hq' ?_ }
  · rw [hlen, hs.length_eq, List.countP_append, List.countP_singleton, if_pos (decide_eq_true he)]
  · rw [h.ptrs, List.nodup_append]
    refine ⟨hs.nodup, List.nodup_singleton _, fun a ha b hb heq => h.not_mem ?_⟩
    rw [← List.mem_singleton.mp hb, ← heq]
    exact ha
  · -- up to the eighth element there is room where the vector is
    obtain ⟨hgen, hcap⟩ := hs.reserved (by omega)
    rw [h.bus1, DeviceVector.pushBack, if_pos (by omega)]
    exact ⟨hgen, hcap⟩
  · rw [h.bus1, DeviceVector.pushBack]
    by_cases hold : 8 < (s.deviceJoint 1).elems.length
    · have hgen := hs.moved hold
      split
      · exact hgen
      · exact Nat.succ_pos _
    · -- the ninth element does not fit
      obtain ⟨-, hcap⟩ := hs.reserved (by omega)
      rw [if_neg (by omega)]
      exact Nat.succ_pos _
  · rw [h.ptrs] at hq'
    by_cases hlast : k < (s.config.ptrs 1).length
    · rw [List.getElem?_append_left hlast] at hq'
      rw [hlookup q' fun heq => h.not_mem (heq ▸ List.mem_of_getElem? hq')]
      exact hs.entry k q' hk hq'
    · obtain ⟨rfl, rfl⟩ : k = (s.config.ptrs 1).length ∧ q' = q := by
        have hlt : k < (s.config.ptrs 1 ++ [q]).length := (List.getElem?_eq_some_iff.mp hq').1
        have hk' : k = (s.config.ptrs 1).length := by
          rw [List.length_append, List.length_singleton] at hlt
          omega
        subst hk'
        exact ⟨rfl, by simpa using hq'.symm⟩
      obtain ⟨hgen, -⟩ := hs.reserved (by omega)
      rw [hdict, List.lookup_cons_self, hgen, hptrs]
  · rw [h.ptrs, List.mem_append, List.mem_singleton]
    by_cases hne : q' = q
    · exact .inr hne
    · rw [hlookup q' hne] at hq'
      exact .inl (hs.keys q' hq')
  · rw [helems, List.mem_append, List.mem_singleton] at hd
    rcases hd with hd | rfl
    · exact hs.online d hd
    · exact (hs.unknown q h.not_mem).symm
  · rw [h.ptrs]
    exact List.mem_append_left _ hmem

/-- The other events move nothing. -/
theorem located_call {es : List (RegistryEvent ι)} {s t : Storage ι} {g : OnlineLog ι}
    {e : RegistryEvent ι} (he : ¬ e.Registers) (h : registryStep s e = .ok t)
    (hs : Located es s g) : Located (es ++ [e]) t (g.record s e t) := by
  have hconfig := registryStep_config he h
  have hptrs : t.config.ptrs 1 = s.config.ptrs 1 := congrArg (fun c => c.ptrs 1) hconfig
  have hlen : (t.deviceJoint 1).elems.length = (s.deviceJoint 1).elems.length := by
    have := congrArg List.length hptrs
    rwa [Storage.config, Storage.config, List.length_map, List.length_map] at this
  have hgen : (t.deviceJoint 1).generation = (s.deviceJoint 1).generation :=
    congrArg (fun c => c.generation 1) hconfig
  have hcap : (t.deviceJoint 1).capacity = (s.deviceJoint 1).capacity :=
    congrArg (fun c => c.capacity 1) hconfig
  have hdict : t.deviceDict = s.deviceDict := congrArg Config.deviceDict hconfig
  have hnodup : (t.config.ptrs 1).Nodup := hptrs ▸ hs.nodup
  refine
    { length_eq := ?_
      nodup := hptrs ▸ hs.nodup
      reserved := by rw [hlen, hgen, hcap]; exact hs.reserved
      moved := by rw [hlen, hgen]; exact hs.moved
      entry := by rw [hptrs, hdict]; exact hs.entry
      keys := by rw [hptrs, hdict]; exact hs.keys
      online := fun d hd => ?_
      unknown := fun q hq => ?_ }
  -- the monitor's pass records the flag of every device, the other events keep flags and record
  · rw [hlen, hs.length_eq, List.countP_append, List.countP_singleton,
      if_neg (by simpa using he), Nat.add_zero]
  · by_cases hupd : e = .call .updateToController
    · subst hupd
      show d.online = match (t.deviceJoint 1).elems.find? fun d' => d'.ptr = d.ptr with
        | some d => d.online
        | none => g d.ptr
      rw [find_device hnodup hd]
    · rw [OnlineLog.record_of_ne g s t hupd]
      cases e with
      | register q => exact absurd trivial he
      | call e =>
        have hmap := step_devices (f := fun d => (d.ptr, d.online)) h
          (by rintro p jointType id coeff rfl; exact he trivial) (.inl fun _ _ _ => rfl)
          (.inr fun heq => hupd (congrArg _ heq))
        have hmem : (d.ptr, d.online) ∈
            (s.deviceJoint 1).elems.map fun d => (d.ptr, d.online) :=
          hmap ▸ List.mem_map_of_mem hd
        obtain ⟨d', hd', heq⟩ := List.mem_map.mp hmem
        obtain ⟨hptr, honline⟩ := Prod.mk.inj heq
        rw [← honline, ← hptr]
        exact hs.online d' hd'
  · rw [hptrs] at hq
    by_cases hupd : e = .call .updateToController
    · subst hupd
      have hnone : (t.deviceJoint 1).elems.find? (fun d => d.ptr = q) = none :=
        find_device_eq_none fun hmem => hq (hptrs ▸ (hmem : q ∈ t.config.ptrs 1))
      show (match (t.deviceJoint 1).elems.find? fun d => d.ptr = q with
        | some d => d.online
        | none => g q) = false
      rw [hnone]
      exact hs.unknown q hq
    · rw [OnlineLog.record_of_ne g s t hupd]
      exact hs.unknown q hq

/-- The runs of the system with registrations of joints with ids from 1 to 11 on HCAN1, and
    the flags they have written. -/
abbrev DictRuns (part : ι → PartControl) (es : List (RegistryEvent ι))
    (x : Storage ι × OnlineLog ι) : Prop :=
  Run (Ghost OnlineLog.record (Guarded FinalIds (ofExcept registryStep)))
    (unregistered part, fun _ => false) es x

theorem located_of_run {part : ι → PartControl} {es : List (RegistryEvent ι)} {s : Storage ι}
    {g : OnlineLog ι} (h : DictRuns part es (s, g)) : Located es s g := by
  refine h.invariant_events (I := fun es x => Located es x.1 x.2) ?_ ?_
  · rintro es ⟨s, g⟩ e ⟨t, g'⟩ hs ⟨⟨hid, hstep⟩, hg⟩
    show Located (es ++ [e]) t g'
    rw [show g' = g.record s e t from hg]
    by_cases he : e.Registers
    · obtain ⟨q, hq⟩ := registeredOn1_of_step he hid hstep
      have hne : e ≠ .call .updateToController := by
        rintro rfl
        exact he
      rw [OnlineLog.record_of_ne g s t hne]
      exact located_register he hq hs
    · exact located_call he hstep hs
  · exact
      { length_eq := rfl
        nodup := .nil
        reserved := fun _ => ⟨rfl, rfl⟩
        moved := fun hlt => absurd hlt (Nat.not_lt_zero _)
        entry := fun k q _ hq => by cases hq
        keys := fun q hq => by cases hq
        online := fun d hd => by cases hd
        unknown := fun _ _ => rfl }

/-- In every reachable state the dictionary is coherent exactly when at most eight joints
    have been registered. -/
theorem coherent_iff {part : ι → PartControl} {es : List (RegistryEvent ι)} {s : Storage ι}
    {g : OnlineLog ι} (h : DictRuns part es (s, g)) :
    Coherent s g ↔ es.countP (·.Registers) ≤ 8 := by
  have hs := located_of_run h
  have hptrs : (s.config.ptrs 1).length = (s.deviceJoint 1).elems.length := List.length_map _
  rw [← hs.length_eq]
  constructor
  · intro hcoh
    by_contra hlt
    -- the first joint's entry still leads into the first storage
    have h0 : 0 < (s.config.ptrs 1).length := by omega
    have hentry := hs.entry 0 _ (Nat.zero_le _) (List.getElem?_eq_getElem h0)
    obtain ⟨k, d, hlookup, -⟩ := hcoh _ (List.getElem_mem h0)
    have hgen : (0 : ℕ) = (s.deviceJoint 1).generation :=
      congrArg DevicePtr.generation (Option.some.inj (hentry.symm.trans hlookup))
    exact absurd (hs.moved (by omega)) (by omega)
  · intro hle q hq
    obtain ⟨hgen, -⟩ := hs.reserved hle
    obtain ⟨k, hk, hkq⟩ := List.mem_iff_getElem.mp hq
    have hget : (s.config.ptrs 1)[k]? = some q := by rw [List.getElem?_eq_getElem hk, hkq]
    have hentry := hs.entry k q (by omega) hget
    obtain ⟨d, hd, hdq⟩ : ∃ d, (s.deviceJoint 1).elems[k]? = some d ∧ d.ptr = q := by
      have hmap : ((s.deviceJoint 1).elems.map (·.ptr))[k]? = some q := hget
      rw [List.getElem?_map] at hmap
      exact Option.map_eq_some_iff.mp hmap
    refine ⟨k, d, by rw [hentry, hgen], hd, hdq, ?_⟩
    have hfind : deviceDictFind s q = .ok d := by
      rw [deviceDictFind, hentry]
      simp only [hgen, if_true, hd]
    rw [getOnline, hfind, ← hdq, ← hs.online d (List.mem_of_getElem? hd)]
    rfl

/-- Two objects with six and three joints, with the ids 1 to 9. -/
def nineJoints (p : Bool) : PartControl where
  joint i := { id := UInt8.ofNat (i.val + if p then 7 else 1) }

/-- All nine of them are registered. -/
def nineRegistrations : List (RegistryEvent Bool) :=
  [.register (false, 0), .register (false, 1), .register (false, 2), .register (false, 3),
    .register (false, 4), .register (false, 5), .register (true, 0), .register (true, 1),
    .register (true, 2)]

/-- The dictionary has lost the first joint. -/
theorem nineRegistrations_lost :
    ∃ s g, DictRuns nineJoints nineRegistrations (s, g) ∧ ¬ Coherent s g ∧
      (false, 0) ∈ s.config.ptrs 1 ∧ getOnline s (false, 0) = .error .danglingStatus := by
  obtain ⟨⟨s, g⟩, hrun, hend⟩ := Run.of_check_ghost FinalIds OnlineLog.record registryStep
    (unregistered nineJoints, fun _ => false) nineRegistrations
    (fun x => (x.1.deviceDict.lookup (false, 0), (x.1.deviceJoint 1).generation,
      (x.1.config.ptrs 1).head?))
    (x := (some ⟨1, 0, 0⟩, 1, some (false, 0))) (by decide +kernel)
  simp only [Prod.mk.injEq] at hend
  obtain ⟨hlookup, hgen, hhead⟩ := hend
  have hmem : (false, 0) ∈ s.config.ptrs 1 := List.mem_of_head? hhead
  refine ⟨s, g, hrun, fun hcoh => ?_, hmem, ?_⟩
  · obtain ⟨k, d, hk, -⟩ := hcoh _ hmem
    have heq := congrArg DevicePtr.generation (Option.some.inj (hlookup.symm.trans hk))
    rw [hgen] at heq
    cases heq
  · rw [getOnline, deviceDictFind, hlookup]
    simp only [hgen]
    rfl

/-- After eight registrations the dictionary is coherent. -/
theorem eightRegistrations_coherent :
    ∃ s g, DictRuns nineJoints (nineRegistrations.take 8) (s, g) ∧ Coherent s g := by
  obtain ⟨⟨s, g⟩, hrun, -⟩ := Run.of_check_ghost FinalIds OnlineLog.record registryStep
    (unregistered nineJoints, fun _ => false) (nineRegistrations.take 8) (fun _ => ())
    (x := ()) (by decide +kernel)
  exact ⟨s, g, hrun, (coherent_iff hrun).mpr (by decide)⟩

end RmMicroControllers
