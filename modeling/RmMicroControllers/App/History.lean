import RmMicroControllers.App.System

/-!
# What really happened

The firmware keeps 32-bit time stamps. A `History` keeps what they stand for: the true time
since boot, the true time of the last frame of every device, and the target that each joint
last handed to the shared array. `Stamped` ties the two together along every run.

## Main results

- `stamped_of_run` — every time stamp is the true time of the last frame, or 0, modulo `2 ^ 32`
- `onlineSound_iff` — when an on-line flag can be trusted
-/

namespace RmMicroControllers

open Transition DeviceMonitor

variable {ι : Type}

/-- The events of a run, as far as the properties speak of them. -/
structure History (ι : Type) where
  now : ℕ := 0
  lastFrame : Fin 2 → JointPtr ι → Option ℕ := fun _ _ => none
  lastDbus : Option ℕ := none
  stored : JointPtr ι → CtrlInfo := fun _ => {}

/-- The device that takes a CAN frame. -/
def receiver (s : Storage ι) (hcan : Can) (stdId : UInt32) (rxData : CanData) :
    Option (Fin 2 × JointPtr ι) :=
  match index .deviceJoint 2 (canCastToNum hcan).toNat with
  | .ok bus => (jointUpdate s bus stdId rxData).1.map fun q => (bus, q)
  | .error _ => none

namespace History

/-- The frame of a device arrives now. -/
def stamp [DecidableEq ι] (g : History ι) (bus : Fin 2) (q : JointPtr ι) : History ι :=
  { g with
    lastFrame := Function.update g.lastFrame bus (Function.update (g.lastFrame bus) q g.now) }

/-- The targets of all joints of an object are stored. -/
def store [DecidableEq ι] (g : History ι) (s : Storage ι) (p : ι) : History ι :=
  { g with
    stored := fun q =>
      if q.1 = p ∧ q.2.val < (s.part p).jointCnt.toNat then (s.joint q).target else g.stored q }

/-- The history after one more event. -/
def record [DecidableEq ι] (s : Storage ι) (g : History ι) (e : Event ι) (_ : Storage ι) :
    History ι :=
  match e with
  | .tick => { g with now := g.now + 1 }
  | .canRx hcan stdId rxData =>
    match receiver s hcan stdId rxData with
    | some (bus, q) => g.stamp bus q
    | none => g
  | .dbusRx _ => { g with lastDbus := some g.now }
  | .updateTarget p => g.store s p
  | _ => g

end History

/-- A 32-bit stamp of a true time, 0 if there was none. -/
def stampOf (last : Option ℕ) : UInt32 := UInt32.ofNat (last.getD 0)

/-- The time stamps of the storage against the history. -/
structure Stamped (s : Storage ι) (g : History ι) : Prop where
  tick : s.tick = UInt32.ofNat g.now
  nodup : ∀ bus, ((s.deviceJoint bus).elems.map (·.ptr)).Nodup
  device : ∀ bus, ∀ d ∈ (s.deviceJoint bus).elems, d.tick = stampOf (g.lastFrame bus d.ptr)
  dbus : s.deviceDbus.tick = stampOf g.lastDbus
  past : ∀ bus q L, g.lastFrame bus q = some L →
    q ∈ (s.deviceJoint bus).elems.map (·.ptr) ∧ L ≤ g.now
  pastDbus : ∀ L, g.lastDbus = some L → L ≤ g.now

theorem stamped_boot (hcan : ι → Can) : Stamped (boot hcan) {} where
  tick := rfl
  nodup _ := .nil
  device bus d hd := by cases hd
  dbus := rfl
  past bus q L h := by cases h
  pastDbus L h := by cases h

/-- What keeps the clock, the stamps and the devices keeps the correspondence. -/
theorem Stamped.congr {s t : Storage ι} {g : History ι} (hs : Stamped s g)
    (htick : t.tick = s.tick)
    (hdev : ∀ bus, (t.deviceJoint bus).elems.map (fun d => (d.tick, d.ptr)) =
      (s.deviceJoint bus).elems.map fun d => (d.tick, d.ptr))
    (hdbus : t.deviceDbus.tick = s.deviceDbus.tick) : Stamped t g := by
  have hptr : ∀ bus, (t.deviceJoint bus).elems.map (·.ptr) =
      (s.deviceJoint bus).elems.map (·.ptr) := by
    intro bus
    have h := congrArg (List.map Prod.snd) (hdev bus)
    rwa [List.map_map, List.map_map] at h
  refine ⟨htick.trans hs.tick, fun bus => ?_, fun bus d hd => ?_, hdbus.trans hs.dbus,
    fun bus q L h => ?_, hs.pastDbus⟩
  · rw [hptr]
    exact hs.nodup bus
  · have hmem : (d.tick, d.ptr) ∈ (s.deviceJoint bus).elems.map fun d => (d.tick, d.ptr) :=
      hdev bus ▸ List.mem_map_of_mem hd
    obtain ⟨d', hd', heq⟩ := List.mem_map.mp hmem
    obtain ⟨h₁, h₂⟩ := Prod.mk.inj heq
    rw [← h₁, ← h₂]
    exact hs.device bus d' hd'
  · rw [hptr]
    exact hs.past bus q L h

section Step

variable [DecidableEq ι]

/-- A CAN frame stamps the device that takes it, and no other. -/
theorem stamped_canRx {s t : Storage ι} {g : History ι} {hcan : Can} {stdId : UInt32}
    {rxData : CanData} {r : Option (JointPtr ι)} (hs : Stamped s g)
    (h : canRxCallback s hcan stdId rxData = .ok (r, t)) :
    Stamped t (History.record s g (.canRx hcan stdId rxData) t) := by
  obtain ⟨bus, hbus, hupd⟩ := canRxCallback_eq_ok h
  have hreceiver : receiver s hcan stdId rxData = r.map fun q => (bus, q) := by
    rw [receiver, index_eq_ok.mpr hbus]
    exact congrArg (fun r => r.1.map fun q => (bus, q)) hupd
  obtain ⟨hr, rfl⟩ := Prod.mk.inj hupd
  have hmap := @jointUpdateLoop_eq_map ι s.joint s.tick stdId rxData _ _ (hs.nodup bus)
  rw [History.record, hreceiver]
  cases r with
  | none =>
    have hsame : (jointUpdateLoop s.joint s.tick stdId rxData (s.deviceJoint bus).elems).2 =
        (s.deviceJoint bus).elems := by
      rw [hmap, hr]
      simp
    refine hs.congr rfl (fun b => ?_) rfl
    by_cases hb : b = bus
    · subst hb
      simp [Storage.setElems, hsame]
    · simp [Storage.setElems, hb]
  | some q =>
    obtain ⟨hq, -⟩ := mem_of_jointUpdateLoop hr
    have hptrs : ∀ b, ((s.setElems bus (jointUpdateLoop s.joint s.tick stdId rxData
        (s.deviceJoint bus).elems).2).deviceJoint b).elems.map (·.ptr) =
        (s.deviceJoint b).elems.map (·.ptr) := jointUpdate_map s bus stdId fun _ _ => rfl
    refine ⟨hs.tick, fun b => ?_, fun b d hd => ?_, hs.dbus, fun b q' L hL => ?_, hs.pastDbus⟩
    · rw [hptrs]
      exact hs.nodup b
    · change d.tick = stampOf (Function.update g.lastFrame bus _ b d.ptr)
      by_cases hb : b = bus
      · subst hb
        simp only [Storage.setElems, Function.update_self, hmap, hr, List.mem_map] at hd
        obtain ⟨d', hd', rfl⟩ := hd
        rw [Function.update_self]
        by_cases hptr : q = d'.ptr
        · subst hptr
          rw [if_pos rfl, receiveFeedback_ptr, Function.update_self]
          exact hs.tick
        · have hne : ¬ some q = some d'.ptr := fun heq => hptr (Option.some.inj heq)
          rw [if_neg hne, Function.update_of_ne (Ne.symm hptr)]
          exact hs.device b d' hd'
      · rw [Function.update_of_ne hb]
        simp only [Storage.setElems, Function.update_of_ne hb] at hd
        exact hs.device b d hd
    · change Function.update g.lastFrame bus _ b q' = some L at hL
      rw [hptrs]
      by_cases hb : b = bus
      · subst hb
        rw [Function.update_self] at hL
        by_cases hq' : q' = q
        · subst hq'
          rw [Function.update_self] at hL
          obtain rfl := Option.some.inj hL
          exact ⟨hq, le_rfl⟩
        · rw [Function.update_of_ne hq'] at hL
          exact hs.past b q' L hL
      · rw [Function.update_of_ne hb] at hL
        exact hs.past b q' L hL

/-- A registration adds a device with stamp 0 that never had a frame. -/
theorem stamped_jointAdd {s t : Storage ι} {g : History ι} {p : ι} {i : Fin 6} {bus : Fin 2}
    {head : Fin 17} {slot group : Fin 16} {cmdGroup : Fin 4} {id : UInt8} {coeff : JointCoeff}
    (hs : Stamped s g)
    (h : PartControl.JointAdded s p i bus head slot group cmdGroup id coeff t) :
    Stamped t g := by
  have hnone : g.lastFrame bus (p, i) = none := by
    cases hlast : g.lastFrame bus (p, i) with
    | none => rfl
    | some L => exact absurd (hs.past bus (p, i) L hlast).1 h.not_mem_ptrs
  refine ⟨h.tick.trans hs.tick, h.nodup_ptrs hs.nodup, fun b d hd => ?_, ?_,
    fun b q L hL => ?_, hs.pastDbus⟩
  · by_cases hb : b = bus
    · subst hb
      rw [h.elems_self] at hd
      rcases List.mem_append.mp hd with hd | hd
      · exact hs.device b d hd
      · obtain rfl := List.mem_singleton.mp hd
        rw [hnone]
        rfl
    · rw [h.deviceJoint_ne hb] at hd
      exact hs.device b d hd
  · rw [h.deviceDbus]
    exact hs.dbus
  · obtain ⟨hmem, hle⟩ := hs.past b q L hL
    exact ⟨h.mem_ptrs.mpr (Or.inl hmem), hle⟩

theorem stamped_step {s t : Storage ι} {g : History ι} {e : Event ι} (hs : Stamped s g)
    (h : step s e = .ok t) : Stamped t (History.record s g e t) := by
  cases e with
  | tick =>
    obtain rfl := Fallible.pure_eq_ok.mp h
    refine ⟨?_, hs.nodup, hs.device, hs.dbus, fun bus q L hL => ?_, fun L hL => ?_⟩
    · change s.tick + 1 = UInt32.ofNat (g.now + 1)
      rw [hs.tick, UInt32.ofNat_add]
      rfl
    · exact ⟨(hs.past bus q L hL).1, Nat.le_succ_of_le (hs.past bus q L hL).2⟩
    · exact Nat.le_succ_of_le (hs.pastDbus L hL)
  | jointAdd p jointType id coeff =>
    obtain ⟨i, bus, head, slot, group, cmdGroup, hadd⟩ := jointAdded_of_step h
    exact stamped_jointAdd hs hadd
  | canRx hcan stdId rxData =>
    obtain ⟨⟨r, u⟩, hu, h⟩ := Fallible.bind_eq_ok.mp h
    obtain rfl := Fallible.pure_eq_ok.mp h
    exact stamped_canRx hs hu
  | dbusRx rxData =>
    obtain ⟨data, error, rfl⟩ := dbusUpdate_of_step h
    refine ⟨hs.tick, hs.nodup, hs.device, hs.tick, hs.past, fun L hL => ?_⟩
    obtain rfl := Option.some.inj hL
    exact le_rfl
  | updateToController =>
    have hpass := updateToController_pass h
    refine hs.congr hpass.tick (fun bus => ?_) ?_
    · rw [hpass.deviceJoint, List.map_map]
      rfl
    · rw [hpass.deviceDbus]
      rfl
  | control q pidCalc target =>
    obtain rfl := Fallible.pure_eq_ok.mp h
    exact hs.congr rfl (fun _ => rfl) rfl
  | updateTarget p =>
    have hs' : Stamped s (g.store s p) :=
      ⟨hs.tick, hs.nodup, hs.device, hs.dbus, hs.past, hs.pastDbus⟩
    change Stamped t (g.store s p)
    rw [updateTarget_frame h]
    exact hs'.congr rfl (fun _ => rfl) rfl
  | setCanCurrent =>
    obtain rfl := setCanCurrent_of_step h
    exact hs.congr rfl (fun _ => rfl) rfl

/-- The runs of the system with their histories. -/
abbrev HistoryRuns (hcan : ι → Can) (es : List (Event ι)) (x : Storage ι × History ι) : Prop :=
  Run (Ghost History.record (ofExcept step)) (boot hcan, {}) es x

theorem stamped_of_run {hcan : ι → Can} {es : List (Event ι)} {x : Storage ι × History ι}
    (h : HistoryRuns hcan es x) : Stamped x.1 x.2 :=
  h.invariant (I := fun x => Stamped x.1 x.2)
    (fun _ _ _ hs hstep => hstep.2 ▸ stamped_step hs hstep.1) (stamped_boot hcan)

end Step

/-! ### When an on-line flag can be trusted -/

section Online

/-- The age of a stamp that the firmware computes is the true age modulo `2 ^ 32`. -/
theorem age_toNat {now : ℕ} {last : Option ℕ} (h : ∀ L, last = some L → L ≤ now) :
    (UInt32.ofNat now - stampOf last).toNat = (now - last.getD 0) % 2 ^ 32 := by
  have hle : last.getD 0 ≤ now := by
    cases last with
    | none => exact Nat.zero_le _
    | some L => exact h L rfl
  rw [stampOf, UInt32.toNat_sub, UInt32.toNat_ofNat', UInt32.toNat_ofNat']
  omega

/-- A frame arrived within the last 30 ticks. -/
def Recent (now : ℕ) (last : Option ℕ) : Prop := ∃ L, last = some L ∧ now - L ≤ 30

/-- What an on-line flag is for: it says that a frame really arrived within the last 30
    ticks. -/
structure OnlineSound (s : Storage ι) (g : History ι) : Prop where
  joint : ∀ bus, ∀ d ∈ (s.deviceJoint bus).elems, d.online = true →
    Recent g.now (g.lastFrame bus d.ptr)
  dbus : s.deviceDbus.online = true → Recent g.now g.lastDbus

/-- A silence that the 32-bit age shows: counted from the last frame, or from boot where there
    was none, it does not come within 30 ticks above a multiple of `2 ^ 32`. -/
def SilenceShows (now : ℕ) (last : Option ℕ) : Prop :=
  ¬ Recent now last → 30 < (now - last.getD 0) % 2 ^ 32

variable [DecidableEq ι]

/-- After `update_to_controller` all on-line flags are sound exactly when the silence of every
    registered motor, and of the remote control, shows in its 32-bit age. -/
theorem onlineSound_iff {hcan : ι → Can} {es : List (Event ι)} {t : Storage ι} {g : History ι}
    (h : HistoryRuns hcan (es ++ [.updateToController]) (t, g)) :
    OnlineSound t g ↔
      (∀ bus, ∀ q ∈ t.config.ptrs bus, SilenceShows g.now (g.lastFrame bus q)) ∧
        SilenceShows g.now g.lastDbus := by
  obtain ⟨⟨s, g'⟩, hrun, hstep, hg⟩ := h.snoc_inv
  obtain rfl : g = g' := hg
  have hs : Stamped s g := stamped_of_run hrun
  have hpass := updateToController_pass hstep
  have hjudge : ∀ {π δ : Type} (d : DeviceStatus π δ) (last : Option ℕ),
      d.tick = stampOf last → (∀ L, last = some L → L ≤ g.now) →
      (((judge s.tick d).online = true → Recent g.now last) ↔ SilenceShows g.now last) := by
    intro π δ d last htick hpast
    rw [judge_online, hs.tick, htick, age_toNat hpast, ← not_lt]
    exact ⟨fun h => not_imp_comm.mp h, fun h => not_imp_comm.mp h⟩
  have hdbus : (t.deviceDbus.online = true → Recent g.now g.lastDbus) ↔
      SilenceShows g.now g.lastDbus := by
    rw [hpass.deviceDbus]
    exact hjudge s.deviceDbus g.lastDbus hs.dbus hs.pastDbus
  have hjoint : ∀ bus, ∀ d ∈ (s.deviceJoint bus).elems,
      (((judge s.tick d).online = true → Recent g.now (g.lastFrame bus d.ptr)) ↔
        SilenceShows g.now (g.lastFrame bus d.ptr)) := fun bus d hd =>
    hjudge d _ (hs.device bus d hd) fun L hL => (hs.past bus d.ptr L hL).2
  have helems : ∀ bus, (t.deviceJoint bus).elems =
      (s.deviceJoint bus).elems.map (judge s.tick) := by
    intro bus
    rw [hpass.deviceJoint]
  constructor
  · refine fun hsound => ⟨fun bus q hq => ?_, hdbus.mp hsound.dbus⟩
    change q ∈ (t.deviceJoint bus).elems.map (·.ptr) at hq
    rw [helems, List.map_map] at hq
    obtain ⟨d, hd, rfl⟩ := List.mem_map.mp hq
    exact (hjoint bus d hd).mp
      (hsound.joint bus (judge s.tick d) (helems bus ▸ List.mem_map_of_mem hd))
  · rintro ⟨hshows, hshowsDbus⟩
    refine ⟨fun bus d hd => ?_, hdbus.mpr hshowsDbus⟩
    have hq : d.ptr ∈ t.config.ptrs bus := List.mem_map_of_mem hd
    rw [helems] at hd
    obtain ⟨d', hd', rfl⟩ := List.mem_map.mp hd
    exact (hjoint bus d' hd').mpr (hshows bus d'.ptr hq)

/-- A motor is registered and the monitor runs in the tick of the boot. -/
def monitorAtBoot : List (Event Unit) :=
  [.jointAdd () .kRM3508 1 ⟨fun _ => {}, fun _ => 0, fun _ => 0⟩, .updateToController]

/-- Neither the motor nor the remote control has ever sent a frame, and both are on-line. -/
theorem monitorAtBoot_online :
    ∃ t g, HistoryRuns (fun _ : Unit => .hcan1) monitorAtBoot (t, g) ∧ ¬ OnlineSound t g ∧
      (t.deviceJoint 1).elems.map (·.online) = [true] ∧ g.lastFrame 1 ((), 0) = none ∧
      t.deviceDbus.online = true ∧ g.lastDbus = none := by
  obtain ⟨⟨t, g⟩, hrun, hend⟩ := Run.of_check_ghost (fun _ _ => True) History.record step
    (boot fun _ : Unit => .hcan1, {}) monitorAtBoot
    (fun x => ((x.1.deviceJoint 1).elems.map (·.online),
      x.2.lastFrame 1 ((), 0), x.1.deviceDbus.online, x.2.lastDbus))
    (x := ([true], none, true, none)) (by decide +kernel)
  simp only [Prod.mk.injEq] at hend
  obtain ⟨hjoint, hlast, hdbus, hlastDbus⟩ := hend
  have hrun' := hrun.mono fun _ _ _ h => (⟨h.1.2, h.2⟩ : Ghost _ (ofExcept step) _ _ _)
  refine ⟨t, g, hrun', fun hsound => ?_, hjoint, hlast, hdbus, hlastDbus⟩
  obtain ⟨L, hL, -⟩ := hsound.dbus hdbus
  rw [hlastDbus] at hL
  cases hL

/-- The motor and the remote control send a frame each before the monitor runs. -/
def monitorAfterFrames : List (Event Unit) :=
  [.jointAdd () .kRM3508 1 ⟨fun _ => {}, fun _ => 0, fun _ => 0⟩,
    .canRx .hcan1 0x201 (fun _ => 0), .dbusRx (fun _ => 0), .tick] ++ [.updateToController]

/-- Then both are rightly on-line. -/
theorem monitorAfterFrames_sound :
    ∃ t g, HistoryRuns (fun _ : Unit => .hcan1) monitorAfterFrames (t, g) ∧
      OnlineSound t g := by
  obtain ⟨⟨t, g⟩, hrun, hend⟩ := Run.of_check_ghost (fun _ _ => True) History.record step
    (boot fun _ : Unit => .hcan1, {}) monitorAfterFrames
    (fun x => (x.1.config.ptrs 0, x.1.config.ptrs 1,
      x.2.lastFrame 1 ((), 0), x.2.lastDbus, x.2.now))
    (x := ([], [((), 0)], some 0, some 0, 1)) (by decide +kernel)
  simp only [Prod.mk.injEq] at hend
  obtain ⟨h₀, h₁, hlast, hlastDbus, hnow⟩ := hend
  have hrun' := hrun.mono fun _ _ _ h => (⟨h.1.2, h.2⟩ : Ghost _ (ofExcept step) _ _ _)
  refine ⟨t, g, hrun', (onlineSound_iff hrun').mpr ⟨fun bus q hq hold => ?_, fun hold => ?_⟩⟩
  · obtain rfl | rfl : bus = 0 ∨ bus = 1 := by omega
    · rw [h₀] at hq
      cases hq
    · rw [h₁, List.mem_singleton] at hq
      subst hq
      exact absurd ⟨0, hlast, by omega⟩ hold
  · exact absurd ⟨0, hlastDbus, by omega⟩ hold

end Online

end RmMicroControllers
