import RmMicroControllers.App.History

/-!
# The monitor's task under interrupts

`update_to_controller` reads the tick counter and then the stamp of the device it judges.
Here each of the two reads is a step of its own, and the tick interrupt and the receive
interrupts may come between any two steps.

## Main results

- `updateToController_run` — without interrupts the steps make up `update_to_controller`
- `isOnline_iff` — when a device that keeps sending frames is judged on-line
-/

namespace RmMicroControllers

open Transition DeviceMonitor

variable {ι : Type}

/-- Where the monitor's task is. `judge` and `judgeDbus` hold the clock already read. -/
inductive MonitorPc where
  | idle
  | sampleDbus
  | judgeDbus (clock : UInt32)
  | sample (bus : Fin 2) (pos : ℕ)
  | judge (bus : Fin 2) (pos : ℕ) (clock : UInt32)
  deriving DecidableEq

/-- A step of the monitor's task, or an interrupt. -/
inductive MonitorEvent where
  | monitor
  | tick
  | canRx (hcan : Can) (stdId : UInt32) (rxData : CanData)
  | dbusRx (rxData : DbusFrame)

/-- The call that an interrupt makes. -/
def MonitorEvent.interrupt : MonitorEvent → Option (Event ι)
  | .monitor => none
  | .tick => some .tick
  | .canRx hcan stdId rxData => some (.canRx hcan stdId rxData)
  | .dbusRx rxData => some (.dbusRx rxData)

/-- The monitor's task and the storage it shares with the interrupts. -/
structure MonitorTask (ι : Type) where
  storage : Storage ι
  pc : MonitorPc

variable [DecidableEq ι]

/-- One step of the monitor's task. -/
def monitorStep (x : MonitorTask ι) : Except Fault (MonitorTask ι) :=
  let s := x.storage
  match x.pc with
  | .idle => return ⟨s, .sampleDbus⟩
  | .sampleDbus => return ⟨s, .judgeDbus s.tick⟩
  | .judgeDbus clock => return ⟨{ s with deviceDbus := judge clock s.deviceDbus }, .sample 0 0⟩
  | .sample bus pos =>
    if pos < (s.deviceJoint bus).elems.length then return ⟨s, .judge bus pos s.tick⟩
    else if bus = 0 then return ⟨s, .sample 1 0⟩
    else return ⟨s, .idle⟩
  | .judge bus pos clock =>
    match (s.deviceJoint bus).elems[pos]? with
    | none => .error .danglingStatus
    | some d => do
      let (d', t) ← updateDevice clock d s
      return ⟨t.setElems bus ((s.deviceJoint bus).elems.set pos d'), .sample bus (pos + 1)⟩

/-- One step of the task or one interrupt. -/
def microStep (x : MonitorTask ι) (e : MonitorEvent) : Except Fault (MonitorTask ι) :=
  match e.interrupt with
  | none => monitorStep x
  | some call => (step x.storage call).map fun s => ⟨s, x.pc⟩

/-! ### Without interrupts -/

section Sequential

omit [DecidableEq ι] in
theorem setElems_self (s : Storage ι) (bus : Fin 2) :
    s.setElems bus (s.deviceJoint bus).elems = s := by
  simp [Storage.setElems]

omit [DecidableEq ι] in
theorem setElems_setElems (s : Storage ι) (bus : Fin 2) (ds ds' : List (JointDevice ι)) :
    (s.setElems bus ds).setElems bus ds' = s.setElems bus ds' := by
  simp [Storage.setElems]

omit [DecidableEq ι] in
theorem setElems_elems (s : Storage ι) (bus : Fin 2) (ds : List (JointDevice ι)) :
    ((s.setElems bus ds).deviceJoint bus).elems = ds := by
  simp [Storage.setElems]

/-- A judgement does not look at the registry. -/
theorem updateDevice_setElems {clock : UInt32} {d d' : JointDevice ι} {s t : Storage ι}
    (h : updateDevice clock d s = .ok (d', t)) (bus : Fin 2) (ds : List (JointDevice ι)) :
    updateDevice clock d (s.setElems bus ds) = .ok (d', t.setElems bus ds) := by
  have hstore : ∀ e : JointDevice ι, storeFeedback e (s.setElems bus ds) =
      (storeFeedback e s).setElems bus ds := by
    intro e
    unfold storeFeedback
    split <;> rfl
  unfold updateDevice at h ⊢
  simp only [hstore]
  dsimp only at h
  split at h
  · next hedge =>
    obtain ⟨u, hu, h⟩ := Fallible.bind_eq_ok.mp h
    obtain ⟨b, group, hb, hgroup, rfl⟩ := PartControl.setOnlineCnt_eq_ok.mp hu
    have hcnt : PartControl.setOnlineCnt ((storeFeedback (judge clock d) s).setElems bus ds)
        ((storeFeedback (judge clock d) s).joint d.ptr).canNum
        ((storeFeedback (judge clock d) s).joint d.ptr).id
        (if (judge clock d).online then 1 else 255) = .ok _ :=
      PartControl.setOnlineCnt_eq_ok.mpr ⟨b, group, hb, hgroup, rfl⟩
    rw [if_pos hedge]
    simp only [Fallible.pure_eq_ok, Prod.mk.injEq] at h
    obtain ⟨rfl, rfl⟩ := h
    exact Fallible.bind_eq_ok.mpr ⟨_, hcnt, rfl⟩
  · next hedge =>
    simp only [Fallible.pure_eq_ok, Prod.mk.injEq] at h
    obtain ⟨rfl, rfl⟩ := h
    rw [if_neg hedge]
    rfl

/-- The task gets from one state to another without an interrupt. -/
def RunsAlone (x y : MonitorTask ι) : Prop :=
  ∃ n, Run (ofExcept microStep) x (List.replicate n .monitor) y

theorem RunsAlone.single {x y : MonitorTask ι} (h : monitorStep x = .ok y) : RunsAlone x y :=
  ⟨1, Run.single (e := MonitorEvent.monitor) h⟩

theorem RunsAlone.trans {x y z : MonitorTask ι} (h₁ : RunsAlone x y) (h₂ : RunsAlone y z) :
    RunsAlone x z := by
  obtain ⟨n, h₁⟩ := h₁
  obtain ⟨m, h₂⟩ := h₂
  exact ⟨n + m, by simpa [List.replicate_append_replicate] using h₁.append h₂⟩

/-- The loop over the devices of one bus, one device after the other. -/
theorem updateDevices_run {bus : Fin 2} {ds ds' : List (JointDevice ι)} {s t : Storage ι}
    (h : updateDevices ds s = .ok (ds', t)) (done : List (JointDevice ι)) :
    RunsAlone ⟨s.setElems bus (done ++ ds), .sample bus done.length⟩
      ⟨t.setElems bus (done ++ ds'), .sample bus (done ++ ds).length⟩ := by
  induction ds generalizing s ds' done with
  | nil =>
    simp only [updateDevices, Fallible.pure_eq_ok, Prod.mk.injEq] at h
    obtain ⟨rfl, rfl⟩ := h
    exact ⟨0, by simpa using Run.nil⟩
  | cons d ds ih =>
    obtain ⟨⟨d', u⟩, hd, h⟩ := Fallible.bind_eq_ok.mp h
    obtain ⟨⟨ds'', v⟩, hds, h⟩ := Fallible.bind_eq_ok.mp h
    simp only [Fallible.pure_eq_ok, Prod.mk.injEq] at h
    obtain ⟨rfl, rfl⟩ := h
    have hsample : monitorStep ⟨s.setElems bus (done ++ d :: ds), .sample bus done.length⟩ =
        .ok ⟨s.setElems bus (done ++ d :: ds), .judge bus done.length s.tick⟩ := by
      have hlt : done.length < (done ++ d :: ds).length := by simp
      simp only [monitorStep, setElems_elems, hlt, if_true]
      rfl
    have hjudge : monitorStep ⟨s.setElems bus (done ++ d :: ds), .judge bus done.length s.tick⟩ =
        .ok ⟨u.setElems bus ((done ++ [d']) ++ ds), .sample bus (done ++ [d']).length⟩ := by
      simp only [monitorStep, setElems_elems]
      rw [List.getElem?_append_right le_rfl, Nat.sub_self, List.getElem?_cons_zero]
      dsimp only
      rw [updateDevice_setElems hd bus, Fallible.ok_bind, setElems_setElems,
        List.set_append_right _ _ le_rfl]
      simp
    have hrest := ih hds (done ++ [d'])
    have htail : RunsAlone ⟨u.setElems bus ((done ++ [d']) ++ ds), .sample bus (done ++ [d']).length⟩
        ⟨v.setElems bus (done ++ d' :: ds''), .sample bus (done ++ d :: ds).length⟩ := by
      simpa using hrest
    exact (RunsAlone.single hsample).trans ((RunsAlone.single hjudge).trans htail)

theorem updateBus_run {bus : Fin 2} {s t : Storage ι} (h : updateBus s bus = .ok t) :
    RunsAlone ⟨s, .sample bus 0⟩ ⟨t, .sample bus (t.deviceJoint bus).elems.length⟩ := by
  obtain ⟨u, hu, hframe, rfl⟩ := updateBus_eq_ok h
  have hrun := (updateDevices_run hu [] : RunsAlone ⟨s.setElems bus _, _⟩ _)
  simp only [List.nil_append, List.length_nil, setElems_self] at hrun
  simpa [setElems_elems] using hrun

/-- Without interrupts the steps make up `update_to_controller`. -/
theorem updateToController_run {s t : Storage ι} (h : updateToController s = .ok t) :
    RunsAlone ⟨s, .idle⟩ ⟨t, .idle⟩ := by
  obtain ⟨u, hu, ht⟩ := updateToController_eq_ok h
  have hstart : RunsAlone ⟨s, .idle⟩
      ⟨{ s with deviceDbus := judge s.tick s.deviceDbus }, .sample 0 0⟩ :=
    ((RunsAlone.single rfl).trans (RunsAlone.single (y := ⟨s, .judgeDbus s.tick⟩) rfl)).trans
      (RunsAlone.single rfl)
  have hnext : ∀ (v : Storage ι) (bus : Fin 2) (pc : MonitorPc),
      pc = (if bus = 0 then .sample 1 0 else .idle) →
      RunsAlone ⟨v, .sample bus (v.deviceJoint bus).elems.length⟩ ⟨v, pc⟩ := by
    rintro v bus pc rfl
    apply RunsAlone.single
    simp only [monitorStep, lt_irrefl, if_false]
    split <;> rfl
  exact (hstart.trans (updateBus_run hu)).trans
    ((hnext u 0 _ rfl).trans ((updateBus_run ht).trans (hnext t 1 _ rfl)))

end Sequential

/-! ### With interrupts -/

section Interrupted

/-- A device that the monitor judges: a motor, or the remote control. -/
inductive Device (ι : Type) where
  | joint (bus : Fin 2) (q : JointPtr ι)
  | dbus

omit [DecidableEq ι] in
/-- The true time of the last frame of a device. -/
def History.last (g : History ι) : Device ι → Option ℕ
  | .joint bus q => g.lastFrame bus q
  | .dbus => g.lastDbus

omit [DecidableEq ι] in
/-- The on-line flag of a device. -/
def Storage.IsOnline (s : Storage ι) : Device ι → Prop
  | .joint bus q => ∀ d ∈ (s.deviceJoint bus).elems, d.ptr = q → d.online = true
  | .dbus => s.deviceDbus.online = true

omit [DecidableEq ι] in
/-- The clock that the task has read and not used yet. -/
def MonitorPc.clock : MonitorPc → Option UInt32
  | .judgeDbus clock => some clock
  | .judge _ _ clock => some clock
  | _ => none

omit [DecidableEq ι] in
/-- The next step of the task judges a device. -/
def MonitorTask.Judges (x : MonitorTask ι) : Device ι → Prop
  | .joint bus q => ∃ pos clock d, x.pc = .judge bus pos clock ∧
      (x.storage.deviceJoint bus).elems[pos]? = some d ∧ d.ptr = q
  | .dbus => ∃ clock, x.pc = .judgeDbus clock

/-- What really happened, with the true time at which the task last read the clock. -/
structure MonitorHistory (ι : Type) where
  history : History ι
  sampled : ℕ := 0

/-- The history after one more step. -/
def MonitorHistory.record (x : MonitorTask ι) (g : MonitorHistory ι) (e : MonitorEvent)
    (y : MonitorTask ι) : MonitorHistory ι :=
  match e.interrupt with
  | some call => { g with history := History.record x.storage g.history call y.storage }
  | none =>
    match x.pc with
    | .sampleDbus | .sample _ _ => { g with sampled := g.history.now }
    | _ => g

/-- The steps in which a device has sent a frame within the last 30 ticks. -/
abbrev LiveStep (dev : Device ι) (x : MonitorTask ι × MonitorHistory ι) (e : MonitorEvent)
    (y : MonitorTask ι × MonitorHistory ι) : Prop :=
  Guarded (fun x _ => Recent x.2.history.now (x.2.history.last dev))
    (Ghost MonitorHistory.record (ofExcept microStep)) x e y

/-- Time does not run backwards. -/
theorem History.record_now (s t : Storage ι) (g : History ι) (e : Event ι) :
    g.now ≤ (History.record s g e t).now := by
  cases e with
  | tick => exact Nat.le_succ _
  | canRx hcan stdId rxData =>
    unfold History.record
    dsimp only
    split <;> exact le_rfl
  | _ => exact le_rfl

/-- A later last frame replaces an earlier one. -/
theorem History.record_last {s t : Storage ι} {g : History ι} (hs : Stamped s g) (e : Event ι)
    {dev : Device ι} {F : ℕ} (h : g.last dev = some F) :
    ∃ F', (History.record s g e t).last dev = some F' ∧ F ≤ F' := by
  cases e with
  | canRx hcan stdId rxData =>
    unfold History.record
    dsimp only
    split
    · next bus q hq =>
      cases dev with
      | dbus => exact ⟨F, h, le_rfl⟩
      | joint b q' =>
        change ∃ F', Function.update g.lastFrame bus _ b q' = some F' ∧ F ≤ F'
        change g.lastFrame b q' = some F at h
        by_cases hb : b = bus
        · subst hb
          rw [Function.update_self]
          by_cases hq' : q' = q
          · subst hq'
            exact ⟨g.now, Function.update_self .., (hs.past b q' F h).2⟩
          · rw [Function.update_of_ne hq']
            exact ⟨F, h, le_rfl⟩
        · rw [Function.update_of_ne hb]
          exact ⟨F, h, le_rfl⟩
    · exact ⟨F, h, le_rfl⟩
  | dbusRx rxData =>
    cases dev with
    | dbus => exact ⟨g.now, rfl, hs.pastDbus F h⟩
    | joint bus q => exact ⟨F, h, le_rfl⟩
  | _ =>
    cases dev with
    | dbus => exact ⟨F, h, le_rfl⟩
    | joint bus q => exact ⟨F, h, le_rfl⟩

/-- What links the clock already read to the present: it is a true time of the past, and the
    last frame of a live device is at most 30 ticks older. -/
structure Sampled (dev : Device ι) (x : MonitorTask ι) (g : MonitorHistory ι) : Prop where
  stamped : Stamped x.storage g.history
  clock : ∀ clock, x.pc.clock = some clock →
    clock = UInt32.ofNat g.sampled ∧ g.sampled ≤ g.history.now ∧
      ∃ F, g.history.last dev = some F ∧ g.sampled ≤ F + 30

omit [DecidableEq ι] in
/-- Replacing an element by one with the same image keeps the image of the list. -/
theorem map_set_eq {α β : Type} {f : α → β} {l : List α} {pos : ℕ} {a a' : α}
    (ha : l[pos]? = some a) (hf : f a' = f a) : (l.set pos a').map f = l.map f := by
  refine List.ext_getElem? fun i => ?_
  rw [List.getElem?_map, List.getElem?_map, List.getElem?_set]
  by_cases hi : pos = i
  · subst hi
    obtain ⟨hlt, -⟩ := List.getElem?_eq_some_iff.mp ha
    rw [if_pos rfl, if_pos hlt, ha, Option.map_some, Option.map_some, hf]
  · rw [if_neg hi]

omit [DecidableEq ι] in
/-- Among elements with different keys, only the replaced one has its key. -/
theorem forall_mem_set_iff {α β : Type} {f : α → β} {P : α → Prop} {l : List α} {pos : ℕ}
    {a a' : α} (hnodup : (l.map f).Nodup) (ha : l[pos]? = some a) (hf : f a' = f a) :
    (∀ e ∈ l.set pos a', f e = f a → P e) ↔ P a' := by
  obtain ⟨hlt, hget⟩ := List.getElem?_eq_some_iff.mp ha
  constructor
  · exact fun hall => hall a' (List.mem_set hlt a') hf
  · intro hP e he hkey
    obtain ⟨i, hi, rfl⟩ := List.getElem_of_mem he
    rw [List.getElem_set] at hkey ⊢
    split at hkey
    · next heq => rwa [if_pos heq]
    · next hne =>
      rw [List.length_set] at hi
      have hsame : (l.map f)[i]? = (l.map f)[pos]? := by
        rw [List.getElem?_map, List.getElem?_map, ha, List.getElem?_eq_getElem hi,
          Option.map_some, Option.map_some, hkey]
      have hi' : i < (l.map f).length := by rwa [List.length_map]
      exact absurd ((List.getElem?_inj hi' hnodup).mp hsame).symm hne

/-- A step of the task judges one device, or at most the remote control. -/
theorem monitorStep_eq_ok {x y : MonitorTask ι} (h : monitorStep x = .ok y) :
    (∃ bus pos clock d d' t, x.pc = .judge bus pos clock ∧
      (x.storage.deviceJoint bus).elems[pos]? = some d ∧
      updateDevice clock d x.storage = .ok (d', t) ∧
      y.storage = t.setElems bus ((x.storage.deviceJoint bus).elems.set pos d')) ∨
    (∀ bus pos clock, x.pc ≠ .judge bus pos clock) ∧
      ∃ dbus, dbus.tick = x.storage.deviceDbus.tick ∧
        y.storage = { x.storage with deviceDbus := dbus } := by
  obtain ⟨s, pc⟩ := x
  cases pc with
  | idle | sampleDbus =>
    obtain rfl := Fallible.pure_eq_ok.mp h
    exact Or.inr ⟨by simp, s.deviceDbus, rfl, rfl⟩
  | judgeDbus clock =>
    obtain rfl := Fallible.pure_eq_ok.mp h
    exact Or.inr ⟨by simp, judge clock s.deviceDbus, rfl, rfl⟩
  | sample bus pos =>
    rw [monitorStep] at h
    dsimp only at h
    split at h
    · obtain rfl := Fallible.pure_eq_ok.mp h
      exact Or.inr ⟨by simp, s.deviceDbus, rfl, rfl⟩
    · split at h <;> obtain rfl := Fallible.pure_eq_ok.mp h <;>
        exact Or.inr ⟨by simp, s.deviceDbus, rfl, rfl⟩
  | judge bus pos clock =>
    rw [monitorStep] at h
    dsimp only at h
    split at h
    · cases h
    · next d hd =>
      obtain ⟨⟨d', t⟩, hdev, h⟩ := Fallible.bind_eq_ok.mp h
      obtain rfl := Fallible.pure_eq_ok.mp h
      exact Or.inl ⟨bus, pos, clock, d, d', t, rfl, hd, hdev, rfl⟩

/-- A monitor step keeps the stamps. -/
theorem stamped_monitorStep {x y : MonitorTask ι} {g : History ι} (hs : Stamped x.storage g)
    (h : monitorStep x = .ok y) : Stamped y.storage g := by
  obtain ⟨bus, pos, clock, d, d', t, -, hd, hdev, hy⟩ | ⟨-, dbus, hdbus, hy⟩ :=
    monitorStep_eq_ok h
  · have hframe := updateDevice_frame hdev
    obtain ⟨rfl, -⟩ := updateDevice_eq_ok hdev
    rw [hy]
    refine hs.congr hframe.tick (fun b => ?_) (congrArg DeviceStatus.tick hframe.deviceDbus)
    by_cases hb : b = bus
    · subst hb
      rw [setElems_elems]
      exact map_set_eq hd rfl
    · simp [Storage.setElems, hb, hframe.deviceJoint]
  · rw [hy]
    exact hs.congr rfl (fun _ => rfl) hdbus

theorem sampled_step {dev : Device ι} {x y : MonitorTask ι × MonitorHistory ι}
    {e : MonitorEvent} (hs : Sampled dev x.1 x.2) (h : LiveStep dev x e y) :
    Sampled dev y.1 y.2 := by
  obtain ⟨⟨L, hL, hrecent⟩, hstep, hg⟩ := h
  rw [hg]
  rw [Transition.ofExcept, microStep] at hstep
  rw [MonitorHistory.record]
  cases hcall : e.interrupt with
  | some call =>
    rw [hcall] at hstep
    dsimp only at hstep
    cases ht : step x.1.storage call with
    | error f => rw [ht] at hstep; cases hstep
    | ok t =>
      rw [ht] at hstep
      obtain hy := Except.ok.inj hstep
      rw [← hy]
      refine ⟨stamped_step hs.stamped ht, fun clock hclock => ?_⟩
      obtain ⟨hval, hle, F, hF, hage⟩ := hs.clock clock hclock
      obtain ⟨F', hF', hFF'⟩ := History.record_last (t := t) hs.stamped call hF
      exact ⟨hval, hle.trans (History.record_now _ t _ _), F', hF',
        hage.trans (Nat.add_le_add_right hFF' 30)⟩
  | none =>
    rw [hcall] at hstep
    dsimp only at hstep
    have hstamped := stamped_monitorStep hs.stamped hstep
    have htick := hs.stamped.tick
    -- a clock that has just been read is the present
    have hread : ∀ clock, some x.1.storage.tick = some clock →
        clock = UInt32.ofNat x.2.history.now ∧ x.2.history.now ≤ x.2.history.now ∧
          ∃ F, x.2.history.last dev = some F ∧ x.2.history.now ≤ F + 30 := by
      intro clock hclock
      exact ⟨(Option.some.inj hclock).symm.trans htick, le_rfl, L, hL, by omega⟩
    obtain ⟨⟨s, pc⟩, g⟩ := x
    cases pc with
    | idle =>
      obtain hy := Fallible.pure_eq_ok.mp hstep
      exact ⟨hstamped, fun clock hclock => by rw [← hy] at hclock; cases hclock⟩
    | sampleDbus =>
      obtain hy := Fallible.pure_eq_ok.mp hstep
      exact ⟨hstamped, fun clock hclock => hread clock (by rw [← hy] at hclock; exact hclock)⟩
    | judgeDbus clock' =>
      obtain hy := Fallible.pure_eq_ok.mp hstep
      exact ⟨hstamped, fun clock hclock => by rw [← hy] at hclock; cases hclock⟩
    | sample bus pos =>
      refine ⟨hstamped, fun clock hclock => ?_⟩
      rw [monitorStep] at hstep
      dsimp only at hstep
      split at hstep
      · obtain hy := Fallible.pure_eq_ok.mp hstep
        exact hread clock (by rw [← hy] at hclock; exact hclock)
      · split at hstep <;> obtain hy := Fallible.pure_eq_ok.mp hstep <;>
          rw [← hy] at hclock <;> cases hclock
    | judge bus pos clock' =>
      refine ⟨hstamped, fun clock hclock => ?_⟩
      rw [monitorStep] at hstep
      dsimp only at hstep
      split at hstep
      · cases hstep
      · obtain ⟨r, -, hstep⟩ := Fallible.bind_eq_ok.mp hstep
        obtain hy := Fallible.pure_eq_ok.mp hstep
        rw [← hy] at hclock
        cases hclock

/-- The runs of the task from the start of an update, with the interrupts that come meanwhile,
    in which a device keeps sending frames. -/
abbrev LiveRuns (dev : Device ι) (s : Storage ι) (g : History ι) (es : List MonitorEvent)
    (x : MonitorTask ι × MonitorHistory ι) : Prop :=
  Run (LiveStep dev) (⟨s, .idle⟩, ⟨g, 0⟩) es x

theorem sampled_of_run {dev : Device ι} {s : Storage ι} {g : History ι}
    {es : List MonitorEvent} {x : MonitorTask ι × MonitorHistory ι} (hs : Stamped s g)
    (h : LiveRuns dev s g es x) : Sampled dev x.1 x.2 :=
  h.invariant (I := fun x => Sampled dev x.1 x.2) (fun _ _ _ hs hstep => sampled_step hs hstep)
    ⟨hs, fun clock hclock => by cases hclock⟩

omit [DecidableEq ι] in
/-- A frame that overtakes the clock: it arrived in a later tick than the clock was read in,
    and the difference does not come within 30 ticks below a multiple of `2 ^ 32`. -/
def Overtaken (sampled : ℕ) (last : Option ℕ) : Prop :=
  ∃ F, last = some F ∧ sampled < F ∧
    0 < (F - sampled) % 2 ^ 32 ∧ (F - sampled) % 2 ^ 32 < 2 ^ 32 - 30

omit [DecidableEq ι] in
/-- The judgement of a live device. -/
theorem judge_live {π δ : Type} {d : DeviceStatus π δ} {clock : UInt32} {last : Option ℕ}
    {sampled F : ℕ} (htick : d.tick = stampOf last) (hclock : clock = UInt32.ofNat sampled)
    (hF : last = some F) (hage : sampled ≤ F + 30) :
    (judge clock d).online = true ↔ ¬ Overtaken sampled last := by
  have hover : Overtaken sampled last ↔ sampled < F ∧
      0 < (F - sampled) % 2 ^ 32 ∧ (F - sampled) % 2 ^ 32 < 2 ^ 32 - 30 := by
    constructor
    · rintro ⟨F', hF', h⟩
      rw [hF] at hF'
      obtain rfl := Option.some.inj hF'
      exact h
    · exact fun h => ⟨F, hF, h⟩
  rw [judge_online, hover, htick, hclock, hF, stampOf, UInt32.toNat_sub, UInt32.toNat_ofNat',
    UInt32.toNat_ofNat', Option.getD_some]
  omega

/-- The judgement of a device that keeps sending frames turns out on-line exactly when no
    frame of the device has overtaken the clock. -/
theorem isOnline_iff {hcan : ι → Can} {es₀ : List (Event ι)} {s : Storage ι} {g : History ι}
    (hboot : HistoryRuns hcan es₀ (s, g)) {dev : Device ι} {es : List MonitorEvent}
    {x y : MonitorTask ι × MonitorHistory ι} (hrun : LiveRuns dev s g es x)
    (hjudge : x.1.Judges dev) (hstep : LiveStep dev x .monitor y) :
    y.1.storage.IsOnline dev ↔ ¬ Overtaken x.2.sampled (x.2.history.last dev) := by
  have hs := sampled_of_run (stamped_of_run hboot) hrun
  obtain ⟨-, hstep, -⟩ := hstep
  change monitorStep x.1 = .ok y.1 at hstep
  cases dev with
  | dbus =>
    obtain ⟨clock, hpc⟩ := hjudge
    obtain ⟨hval, -, F, hF, hage⟩ := hs.clock clock (by rw [hpc]; rfl)
    simp only [monitorStep, hpc] at hstep
    rw [← Fallible.pure_eq_ok.mp hstep]
    exact judge_live hs.stamped.dbus hval hF hage
  | joint bus q =>
    obtain ⟨pos, clock, d, hpc, hd, rfl⟩ := hjudge
    obtain ⟨hval, -, F, hF, hage⟩ := hs.clock clock (by rw [hpc]; rfl)
    have hmem : d ∈ (x.1.storage.deviceJoint bus).elems := List.mem_of_getElem? hd
    simp only [monitorStep, hpc, hd] at hstep
    obtain ⟨⟨d', t⟩, hdev, hstep⟩ := Fallible.bind_eq_ok.mp hstep
    obtain ⟨rfl, -⟩ := updateDevice_eq_ok hdev
    rw [← Fallible.pure_eq_ok.mp hstep]
    refine Iff.trans ?_ (judge_live (hs.stamped.device bus d hmem) hval hF hage)
    change (∀ e ∈ ((t.setElems bus _).deviceJoint bus).elems, e.ptr = d.ptr → e.online = true) ↔ _
    rw [setElems_elems]
    exact forall_mem_set_iff (hs.stamped.nodup bus) hd rfl

omit [DecidableEq ι] in
instance (now : ℕ) : (last : Option ℕ) → Decidable (Recent now last)
  | none => .isFalse fun ⟨_, h, _⟩ => by cases h
  | some L => decidable_of_iff (now - L ≤ 30)
      ⟨fun h => ⟨L, rfl, h⟩, fun ⟨_, h₁, h₂⟩ => Option.some.inj h₁ ▸ h₂⟩

/-- A motor has answered and is on-line. -/
def motorOnline : Storage Unit × History Unit :=
  Run.lastState (fun _ _ => True) (ghostStep History.record step) (boot fun _ => .hcan1, {})
    [.jointAdd () .kRM3508 1 ⟨fun _ => {}, fun _ => 0, fun _ => 0⟩,
      .canRx .hcan1 0x201 (fun _ => 0), .updateToController]

theorem motorOnline_run : ∃ es, HistoryRuns (fun _ : Unit => .hcan1) es motorOnline :=
  ⟨_, (Run.run_lastState (by decide +kernel)).mono fun _ _ _ h => Run.ghost_of_ghostStep h.2⟩

/-- The motor's device. -/
def motor : Device Unit := .joint 1 ((), 0)

/-- Where the task gets from a state while the motor keeps sending frames. -/
def whileLive (x : MonitorTask Unit × MonitorHistory Unit) (es : List MonitorEvent) :
    MonitorTask Unit × MonitorHistory Unit :=
  Run.lastState (fun x _ => Recent x.2.history.now (x.2.history.last motor))
    (ghostStep MonitorHistory.record microStep) x es

/-- Where the task is after it has read the clock for the motor and the given interrupts have
    come. -/
def afterClock (interrupts : List MonitorEvent) : MonitorTask Unit × MonitorHistory Unit :=
  whileLive (⟨motorOnline.1, .idle⟩, ⟨motorOnline.2, 0⟩) (List.replicate 5 .monitor ++ interrupts)

theorem whileLive_run {x : MonitorTask Unit × MonitorHistory Unit} (es : List MonitorEvent)
    (h : (es.foldlM (Run.check (fun x _ => Recent x.2.history.now (x.2.history.last motor))
      (ghostStep MonitorHistory.record microStep)) x).isSome = true) :
    Run (LiveStep motor) x es (whileLive x es) :=
  (Run.run_lastState h).mono fun _ _ _ h => ⟨h.1, Run.ghost_of_ghostStep h.2⟩

theorem motor_judges {x : MonitorTask Unit × MonitorHistory Unit} (clock : UInt32)
    (hpc : x.1.pc = .judge 1 0 clock)
    (hptr : (x.1.storage.deviceJoint 1).elems.map (·.ptr) = [((), 0)]) : x.1.Judges motor := by
  obtain ⟨d, hd, hq⟩ := List.map_eq_singleton_iff.mp hptr
  exact ⟨0, clock, d, hpc, by rw [hd]; rfl, hq⟩

/-- The tick interrupt and then the motor's frame come between the two reads: the live motor
    is declared off-line. -/
theorem overtaken_offline :
    let x := afterClock [.tick, .canRx .hcan1 0x201 fun _ => 0]
    motorOnline.1.IsOnline motor ∧
      (∃ es, LiveRuns motor motorOnline.1 motorOnline.2 es x) ∧ x.1.Judges motor ∧
        ∃ y, LiveStep motor x .monitor y ∧ ¬ y.1.storage.IsOnline motor := by
  refine ⟨?_, ⟨_, whileLive_run _ (by decide +kernel)⟩,
    motor_judges (0) (by decide +kernel) (by decide +kernel),
    _, (whileLive_run [.monitor] (by decide +kernel)).single_inv, ?_⟩
  · change ∀ d ∈ (motorOnline.1.deviceJoint 1).elems, d.ptr = ((), 0) → d.online = true
    decide +kernel
  · change ¬ ∀ d ∈ ((whileLive (afterClock _) [.monitor]).1.storage.deviceJoint 1).elems,
      d.ptr = ((), 0) → d.online = true
    decide +kernel

/-- When the frame comes in the tick of the clock, the motor stays on-line. -/
theorem not_overtaken_online :
    ∃ y, LiveStep motor (afterClock [.canRx .hcan1 0x201 fun _ => 0]) .monitor y ∧
      y.1.storage.IsOnline motor := by
  obtain ⟨es, hboot⟩ := motorOnline_run
  have hstep := (whileLive_run (x := afterClock [.canRx .hcan1 0x201 fun _ => 0]) [.monitor]
    (by decide +kernel)).single_inv
  refine ⟨_, hstep, (isOnline_iff hboot (whileLive_run _ (by decide +kernel))
    (motor_judges (0) (by decide +kernel) (by decide +kernel)) hstep).mpr ?_⟩
  rintro ⟨F, hF, hlt, -⟩
  have hlast : (afterClock [.canRx .hcan1 0x201 fun _ => 0]).2.history.last motor = some 0 := by
    decide +kernel
  obtain rfl := Option.some.inj (hlast.symm.trans hF)
  exact Nat.not_lt_zero _ hlt

end Interrupted

end RmMicroControllers
