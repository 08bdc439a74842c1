import RmMicroControllers.App.MotorControl
import RmMicroControllers.App.Transmission

/-!
# What the robot puts on the bus

The six motors have ids 1 to 5 and 7 on HCAN1, so their commands fit into the frames 0x200 and
0x1FF. After any run a transmission hands over exactly these two frames, with the target that
every joint has at that moment and zero for the ids without a motor.

## Main results

- `mirrored_of_run` — the shared array is a copy of the targets of the joints
- `sent_of_run` — the frames of one transmission, after any run
- `sends_of_iteration` — one iteration of the motor task sends what its `update`s have computed
-/

namespace RmMicroControllers

open Transition DeviceMonitor PartControl

/-! ### What `update_target` is run on -/

namespace ChassisControl

theorem updateTarget_of_update {s t : Storage Controller} {c c' : ChassisControl}
    {conv : Conversion} (h : c.update conv s = .ok (c', t)) :
    ∃ u, u.jointTarget = s.jointTarget ∧ u.config = s.config ∧
      PartControl.updateTarget u .chassis = .ok t := by
  obtain ⟨i, _, h⟩ := Fallible.bind_eq_ok.mp h
  obtain ⟨s₁, hs₁, h⟩ := Fallible.bind_eq_ok.mp h
  obtain ⟨k, _, hs₁⟩ := Fallible.bind_eq_ok.mp hs₁
  obtain rfl := Fallible.pure_eq_ok.mp hs₁
  obtain ⟨t', ht', h⟩ := Fallible.bind_eq_ok.mp h
  obtain ⟨_, rfl⟩ := Prod.mk.inj (Fallible.pure_eq_ok.mp h)
  refine ⟨_, ?_, ?_, ht'⟩
  · rfl
  · rw [Storage.config_modifyJoint, Storage.config_modifyJoint]
    · exact fun j => j.setTargetSpeed_fixed _
    · exact fun j => j.commandCurrent_fixed _ _ _

end ChassisControl

namespace GimbalControl

theorem aim_frame {s t : Storage Controller} {g : GimbalControl} {conv : Conversion} {sub : UInt8}
    {channel : Fin 5} (h : aim conv g s sub channel = .ok t) :
    t.jointTarget = s.jointTarget ∧ t.config = s.config := by
  obtain ⟨i, _, h⟩ := Fallible.bind_eq_ok.mp h
  obtain ⟨k, _, h⟩ := Fallible.bind_eq_ok.mp h
  obtain rfl := Fallible.pure_eq_ok.mp h
  exact ⟨rfl, Storage.config_modifyJoint _ _ _ fun j => j.setTargetAngle_fixed _⟩

theorem holdAngle_fixed (conv : Conversion) (j : JointData) :
    (holdAngle conv j).fixed = j.fixed := by
  rw [holdAngle]
  rw [JointData.setTargetCurrent_fixed, JointData.commandCurrent_fixed,
    JointData.commandSpeed_fixed]

theorem updateJoint_frame {s t : Storage Controller} {conv : Conversion} {modeChanged : Bool}
    {i : ℕ} (h : updateJoint conv modeChanged s i = .ok t) :
    t.jointTarget = s.jointTarget ∧ t.config = s.config := by
  obtain ⟨k, _, h⟩ := Fallible.bind_eq_ok.mp h
  obtain ⟨online, _, h⟩ := Fallible.bind_eq_ok.mp h
  obtain ⟨online', _, h⟩ := Fallible.bind_eq_ok.mp h
  -- the reset, and then one of the two commands
  generalize hu : (if (!online || modeChanged) = true then
    s.modifyJoint (.gimbal, k) (·.resetPid) else s) = u at h
  have hreset : u.jointTarget = s.jointTarget ∧ u.config = s.config := by
    rw [← hu]
    split
    · exact ⟨rfl, Storage.config_modifyJoint _ _ _ fun j => j.resetPid_fixed⟩
    · exact ⟨rfl, rfl⟩
  rw [← hreset.1, ← hreset.2]
  split at h
  · obtain rfl := Fallible.pure_eq_ok.mp h
    exact ⟨rfl, Storage.config_modifyJoint _ _ _ fun j => holdAngle_fixed conv j⟩
  · obtain rfl := Fallible.pure_eq_ok.mp h
    exact ⟨rfl, Storage.config_modifyJoint _ _ _ fun j => j.setTargetCurrent_fixed _⟩

theorem updateTarget_of_update {s t : Storage Controller} {g g' : GimbalControl}
    {conv : Conversion} (h : g.update conv s = .ok (g', t)) :
    ∃ u, u.jointTarget = s.jointTarget ∧ u.config = s.config ∧
      PartControl.updateTarget u .gimbal = .ok t := by
  obtain ⟨⟨g₁, s₁⟩, hs₁, h⟩ := Fallible.bind_eq_ok.mp h
  obtain ⟨u, hu, h⟩ := Fallible.bind_eq_ok.mp h
  obtain ⟨t', ht', h⟩ := Fallible.bind_eq_ok.mp h
  obtain ⟨_, rfl⟩ := Prod.mk.inj (Fallible.pure_eq_ok.mp h)
  obtain ⟨s₂, hs₂, hs₁⟩ := Fallible.bind_eq_ok.mp hs₁
  obtain ⟨s₃, hs₃, hs₁⟩ := Fallible.bind_eq_ok.mp hs₁
  obtain ⟨_, rfl⟩ := Prod.mk.inj (Fallible.pure_eq_ok.mp hs₁)
  have hpitch := aim_frame hs₂
  have hyaw := aim_frame hs₃
  have hloop := Fallible.foldlM_invariant
    (I := fun u : Storage Controller => u.jointTarget = s.jointTarget ∧ u.config = s.config)
    (fun a i b ha hb => ?_) hu ⟨hyaw.1.trans hpitch.1, hyaw.2.trans hpitch.2⟩
  · exact ⟨u, hloop.1, hloop.2, ht'⟩
  · have hstep := updateJoint_frame hb
    exact ⟨hstep.1.trans ha.1, hstep.2.trans ha.2⟩

end GimbalControl

namespace ExtraControl

theorem updateJoint_frame {s t : Storage Controller} {conv : Conversion} {mode : ControllerMode}
    {modeChanged : Bool} {i : ℕ} (h : updateJoint conv mode modeChanged s i = .ok t) :
    t.jointTarget = s.jointTarget ∧ t.config = s.config := by
  obtain ⟨k, _, h⟩ := Fallible.bind_eq_ok.mp h
  obtain ⟨_, _, h⟩ := Fallible.bind_eq_ok.mp h
  obtain ⟨set, _, h⟩ := Fallible.bind_eq_ok.mp h
  obtain rfl := Fallible.pure_eq_ok.mp h
  refine ⟨?_, ?_⟩
  · split <;> rfl
  · rw [Storage.config_modifyJoint _ _ _ fun j => j.commandCurrent_fixed _ _ _]
    split
    · exact Storage.config_modifyJoint _ _ _ fun j => j.resetPid_fixed
    · rfl

theorem updateTarget_of_update {s t : Storage Controller} {c c' : ExtraControl}
    {conv : Conversion} (h : c.update conv s = .ok (c', t)) :
    ∃ u, u.jointTarget = s.jointTarget ∧ u.config = s.config ∧
      PartControl.updateTarget u .bullet = .ok t := by
  obtain ⟨u, hu, h⟩ := Fallible.bind_eq_ok.mp h
  obtain ⟨t', ht', h⟩ := Fallible.bind_eq_ok.mp h
  obtain ⟨_, rfl⟩ := Prod.mk.inj (Fallible.pure_eq_ok.mp h)
  have hloop := Fallible.foldlM_invariant
    (I := fun u : Storage Controller => u.jointTarget = s.jointTarget ∧ u.config = s.config)
    (fun a i b ha hb => ?_) hu ⟨rfl, rfl⟩
  · exact ⟨u, hloop.1, hloop.2, ht'⟩
  · have hstep := updateJoint_frame hb
    exact ⟨hstep.1.trans ha.1, hstep.2.trans ha.2⟩

end ExtraControl

namespace Robot

variable {conv : Conversion} {r t : Robot} {es : List RobotEvent}

theorem updateTarget_of_update {p : Controller} (h : r.update conv p = .ok t) :
    ∃ u, u.jointTarget = r.storage.jointTarget ∧ u.config = r.storage.config ∧
      PartControl.updateTarget u p = .ok t.storage := by
  cases p with
  | chassis =>
    obtain ⟨⟨c, s⟩, hs, h⟩ := Fallible.bind_eq_ok.mp h
    obtain rfl := Fallible.pure_eq_ok.mp h
    exact ChassisControl.updateTarget_of_update hs
  | gimbal =>
    obtain ⟨⟨g, s⟩, hs, h⟩ := Fallible.bind_eq_ok.mp h
    obtain rfl := Fallible.pure_eq_ok.mp h
    exact GimbalControl.updateTarget_of_update hs
  | bullet =>
    obtain ⟨⟨b, s⟩, hs, h⟩ := Fallible.bind_eq_ok.mp h
    obtain rfl := Fallible.pure_eq_ok.mp h
    exact ExtraControl.updateTarget_of_update hs

/-! ### The shared array -/

/-- The shared array is a copy of the targets of the joints. -/
structure Mirrored (s : Storage Controller) : Prop where
  target : ∀ q ∈ motors, s.jointTarget 1 (motorId q) = (s.joint q).target
  free : ∀ id, (∀ q ∈ motors, motorId q ≠ id) → s.jointTarget 1 id = {}

/-- An `update` stores nothing for an id without a motor. -/
theorem update_free {p : Controller} (hr : Ready r) (h : r.update conv p = .ok t) {id : Fin 16}
    (hid : ∀ q ∈ motors, motorId q ≠ id) :
    t.storage.jointTarget 1 id = r.storage.jointTarget 1 id := by
  obtain ⟨u, htarget, hconfig, hu⟩ := updateTarget_of_update h
  have hinst : Installed u := hr.installed.congr hconfig
  have hmem : ∀ i : Fin 6, i.val < (u.part p).jointCnt.toNat → (p, i) ∈ motors :=
    fun i hi => (hinst.registered p i).mpr hi
  have hmotor : ∀ i : Fin 6, i.val < (u.part p).jointCnt.toNat →
      (u.joint (p, i)).id.toNat = motorId (p, i) := fun i hi => hinst.id _ (hmem i hi)
  have hstored := PartControl.updateTarget_eq_ok (fun i j hi hj hij => ?_) hu
  · rw [hstored.other 1 id fun i hi heq => ?_, htarget]
    rw [hmotor i hi] at heq
    exact hid _ (hmem i hi) (Fin.ext heq)
  · have heq : motorId (p, i) = motorId (p, j) := by
      apply Fin.ext
      rw [← hmotor i hi, ← hmotor j hj, hij]
    exact congrArg Prod.snd (motorId_inj _ (hmem i hi) _ (hmem j hj) heq)

theorem mirrored_step {e : RobotEvent} (hr : Ready r) (hm : Mirrored r.storage)
    (h : r.step conv e = .ok t) : Mirrored t.storage := by
  rcases step_eq_ok h with ⟨p, rfl, hupd⟩ | ⟨e', he, hs, _⟩
  · obtain ⟨_, hupdated⟩ := update_eq_ok hr hupd
    refine ⟨fun q hq => ?_, fun id hid => (update_free hr hupd hid).trans (hm.free id hid)⟩
    rw [hupdated.target q hq]
    split
    · rfl
    · next hp => rw [hm.target q hq, hupdated.joint_other fun hself => hp hself.1]
  · have hframe := storageEvent_frame he hs
    have hjoint : ∀ q, (t.storage.joint q).target = (r.storage.joint q).target := by
      intro q
      obtain ⟨feedback, hq⟩ := hframe.joint q
      rw [hq]
    refine ⟨fun q hq => ?_, fun id hid => ?_⟩
    · rw [hframe.jointTarget, hm.target q hq, hjoint]
    · rw [hframe.jointTarget, hm.free id hid]

theorem mirrored_started : Mirrored started.storage :=
  ⟨fun q _ => by rw [jointTarget_started, (fresh_started q).2.2],
    fun id _ => jointTarget_started 1 id⟩

theorem mirrored_of_run (hrun : Runs conv es r) : Mirrored r.storage := by
  have hinv := hrun.invariant (I := fun r => Ready r ∧ Mirrored r.storage) ?_
    ⟨ready_started, mirrored_started⟩
  · exact hinv.2
  · exact fun r e t hr hstep => ⟨ready_step hr.1 hstep, mirrored_step hr.1 hr.2 hstep⟩

/-! ### The counters of the groups -/

/-- The table entries of a joint on HCAN1. -/
def OnHcan1 (s : Storage Controller) (q : JointPtr Controller) : Prop :=
  (s.joint q).canNum = 1 ∧
    (s.joint q).headFeedback = gCanHeadFeedback (motorId q).castSucc

/-- A registration of the six motors on HCAN1 has the shape of a one-bus system. -/
theorem oneBus_of_installed {s : Storage Controller} (hinst : Installed s)
    (hbus : ∀ q ∈ motors, OnHcan1 s q) : s.config.OneBus := by
  have hids : ∀ q ∈ motors, 1 ≤ (motorId q).val ∧ (motorId q).val ≤ 11 := by decide
  have hdistinct : (motors.map fun q =>
      gCanHeadFeedback (motorId q).castSucc).Nodup := by decide
  have hptrs : s.config.ptrs 1 = motors := hinst.ptrs 1
  refine
    { cnt_le := fun p => ?_
      idle := fun p hp => absurd (hinst.hcan p) hp
      onBus1 := fun p i hi => ?_
      registered := fun p i => ?_
      bus0 := hinst.ptrs 0
      distinct := ?_ }
  · change (s.part p).jointCnt.toNat ≤ 6
    rw [hinst.jointCnt]
    cases p <;> decide
  · have hq := (hinst.registered p i).mpr hi
    exact ⟨(motorId (p, i)).castSucc, hinst.id _ hq, (hids _ hq).1, (hids _ hq).2,
      (hbus _ hq).1, hinst.headTarget _ hq, (hbus _ hq).2⟩
  · rw [hptrs]
    exact hinst.registered p i
  · rw [hptrs]
    have hmap : (motors.map fun q => (s.config.fixed q).headFeedback) =
        motors.map fun q => gCanHeadFeedback (motorId q).castSucc :=
      List.map_congr_left fun q hq => (hbus q hq).2
    rw [hmap]
    exact hdistinct

theorem oneBus_started : started.storage.config.OneBus := by
  apply oneBus_of_installed installed_started
  unfold OnHcan1
  decide +kernel

/-- The registrations that the three `on_init` make. -/
def registrations : List (Event Controller) :=
  [.jointAdd .chassis .kRM3508 1 gRosParam.chassisJoint.coeff,
    .jointAdd .gimbal .kRM6020 3 gRosParam.pitchJoint.coeff,
    .jointAdd .gimbal .kRM6020 1 gRosParam.yawJoint.coeff,
    .jointAdd .bullet .kRM2006 2 (gJointDefault .kRM2006),
    .jointAdd .bullet .kRM3508 3 (gJointDefault .kRM3508),
    .jointAdd .bullet .kRM3508 4 (gJointDefault .kRM3508)]

theorem counted_started : Counted (fun _ => .hcan1) registrations started.storage :=
  ⟨oneBus_started, installed_started.hcan, by rw [CounterInvariant]; decide +kernel,
    by decide +kernel⟩

/-- The calls of the motor task keep the counters, and the others are events of the system. -/
theorem counted_robot_step {e : RobotEvent} (hr : Ready r)
    (hc : ∃ es, Counted (fun _ => .hcan1) es r.storage) (h : r.step conv e = .ok t) :
    ∃ es, Counted (fun _ => .hcan1) es t.storage := by
  obtain ⟨es, hc⟩ := hc
  rcases step_eq_ok h with ⟨p, rfl, hupd⟩ | ⟨e', he, hs, _⟩
  · obtain ⟨_, hupdated⟩ := update_eq_ok hr hupd
    have hconfig := hupdated.config (r.jointLaw_fixed conv p)
    have hdev : ∀ bus, (t.storage.deviceJoint bus).elems.map (fun d => (d.online, d.ptr)) =
        (r.storage.deviceJoint bus).elems.map fun d => (d.online, d.ptr) := by
      intro bus
      rw [hupdated.deviceJoint]
    have hcnt : t.storage.jointCmdGroupOnlineCnt = r.storage.jointCmdGroupOnlineCnt := by
      rw [hupdated.frame]
      rfl
    have hid : ∀ q, (t.storage.joint q).id = (r.storage.joint q).id := fun q =>
      congrArg JointData.Fixed.id (congrFun (congrArg Config.fixed hconfig) q)
    refine ⟨es, hconfig ▸ hc.oneBus, fun p => ?_, counterInvariant_congr hc.counters hconfig hdev
      hcnt, fun bus g => ?_⟩
    · exact (congrFun (congrArg Config.hcan hconfig) p).trans (hc.bus_eq p)
    · rw [(cnt_congr hdev hid bus g).1]
      exact hc.registered bus g
  · refine ⟨es ++ [e'], counted_step hc ?_ hs⟩
    cases e <;> cases he <;> trivial

theorem counted_of_robot_run (hrun : Runs conv es r) :
    ∃ es, Counted (fun _ => .hcan1) es r.storage := by
  have hinv := hrun.invariant
    (I := fun r => Ready r ∧ ∃ es, Counted (fun _ => .hcan1) es r.storage) ?_
    ⟨ready_started, _, counted_started⟩
  · exact hinv.2
  · exact fun r e t hr hstep => ⟨ready_step hr.1 hstep, counted_robot_step hr.1 hr.2 hstep⟩

/-- Exactly the first two groups of HCAN1 count as on-line, whatever is on-line. -/
theorem group_counts_iff (hrun : Runs conv es r) (bus : Fin 2) (g : Fin 16) :
    r.storage.jointCmdGroupOnlineCnt bus g ≠ 0 ↔ bus = 1 ∧ g.val < 2 := by
  obtain ⟨_, hc⟩ := counted_of_robot_run hrun
  have hinst := (ready_of_run hrun).installed
  have hptrs : r.storage.config.ptrs 1 = motors := hinst.ptrs 1
  rw [onlineCnt_ne_zero_iff hc, hptrs]
  apply and_congr_right
  intro _
  have hids : (∃ q ∈ motors, (r.storage.config.fixed q).id.toNat >>> 2 = g.val) ↔
      ∃ q ∈ motors, (motorId q).val >>> 2 = g.val := by
    constructor
    · rintro ⟨q, hq, hid⟩
      exact ⟨q, hq, (hinst.id q hq) ▸ hid⟩
    · rintro ⟨q, hq, hid⟩
      exact ⟨q, hq, (hinst.id q hq).symm ▸ hid⟩
  rw [hids]
  clear hids
  revert g
  decide

/-! ### The frames -/

/-- What a frame is for: a standard id, and the currents of four motors. -/
abbrev Command := UInt32 × (Fin 4 → Int16)

/-- A frame on HCAN1 that carries the four currents of a command, big-endian. -/
structure Carries (frame : CanFrame) (command : Command) : Prop where
  hcan : frame.hcan = .hcan1
  stdId : frame.stdId = command.1
  data : ∀ k : Fin 4, Encodes (frame.data ⟨2 * k.val, by omega⟩)
    (frame.data ⟨2 * k.val + 1, by omega⟩) (command.2 k)

/-- The target current of a joint. -/
def commandOf (r : Robot) (q : JointPtr Controller) : Int16 := (r.storage.joint q).target.current

/-- The commands of one transmission. The ids 5 to 7 are yaw, none and pitch; the last slot of
the second frame, which is for id 8, repeats the third bullet motor. -/
def commands (r : Robot) : List Command :=
  [(0x200, ![r.commandOf (.chassis, 0), r.commandOf (.bullet, 0), r.commandOf (.bullet, 1),
      r.commandOf (.bullet, 2)]),
    (0x1FF, ![r.commandOf (.gimbal, 1), 0, r.commandOf (.gimbal, 0), r.commandOf (.bullet, 2)])]

/-- The frame of a group carries the targets stored for the four ids of its slots. -/
theorem groupFrame_carries (s : Storage Controller) (j : Fin 4) :
    Carries (groupFrame s 1 j) (gCanHeadTarget ((slotId j 0).castLE (by decide)),
      fun k => (s.jointTarget 1 (slotId j k)).current) := by
  refine ⟨rfl, rfl, fun k => ?_⟩
  have henc := currentBytes_encodes (s.jointTarget 1 (slotId j k)).current
  revert henc
  match k with
  | 0 => exact id
  | 1 => exact id
  | 2 => exact id
  | 3 => exact id

theorem sentFrames_eq (hrun : Runs conv es r) :
    sentFrames r.storage = [groupFrame r.storage 1 0, groupFrame r.storage 1 1] := by
  have hon : ∀ j : Fin 4, j.val < 2 → groupFrames r.storage 1 j = [groupFrame r.storage 1 j] :=
    fun j hj => if_pos ((group_counts_iff hrun 1 _).mpr ⟨rfl, hj⟩)
  have hoff : ∀ (bus : Fin 2) (j : Fin 4), ¬(bus = 1 ∧ j.val < 2) →
      groupFrames r.storage bus j = [] :=
    fun bus j hno => if_neg fun hne => hno ((group_counts_iff hrun bus _).mp hne)
  have hfin : List.finRange 2 = [0, 1] ∧ List.finRange 4 = [0, 1, 2, 3] := ⟨rfl, rfl⟩
  rw [sentFrames, hfin.1, hfin.2]
  simp only [List.flatMap_cons, List.flatMap_nil, List.append_nil]
  rw [hoff 0 0 (by decide), hoff 0 1 (by decide), hoff 0 2 (by decide), hoff 0 3 (by decide),
    hon 0 (by decide), hon 1 (by decide), hoff 1 2 (by decide), hoff 1 3 (by decide)]
  rfl

/-- What a transmission hands over after any run. -/
theorem sent_of_run (hrun : Runs conv es r) :
    List.Forall₂ Carries (sentFrames r.storage) (commands r) := by
  have hm := mirrored_of_run hrun
  have hmotor : ∀ q ∈ motors, (r.storage.jointTarget 1 (motorId q)).current = r.commandOf q :=
    fun q hq => congrArg CtrlInfo.current (hm.target q hq)
  have hfree : (r.storage.jointTarget 1 6).current = 0 :=
    congrArg CtrlInfo.current (hm.free 6 (by decide))
  have hfirst : (fun k => (r.storage.jointTarget 1 (slotId 0 k)).current) =
      ![r.commandOf (.chassis, 0), r.commandOf (.bullet, 0), r.commandOf (.bullet, 1),
        r.commandOf (.bullet, 2)] := by
    funext k
    match k with
    | 0 => exact hmotor (.chassis, 0) (by decide)
    | 1 => exact hmotor (.bullet, 0) (by decide)
    | 2 => exact hmotor (.bullet, 1) (by decide)
    | 3 => exact hmotor (.bullet, 2) (by decide)
  have hsecond : (fun k => (r.storage.jointTarget 1 (slotId 1 k)).current) =
      ![r.commandOf (.gimbal, 1), 0, r.commandOf (.gimbal, 0), r.commandOf (.bullet, 2)] := by
    funext k
    match k with
    | 0 => exact hmotor (.gimbal, 1) (by decide)
    | 1 => exact hfree
    | 2 => exact hmotor (.gimbal, 0) (by decide)
    | 3 => exact hmotor (.bullet, 2) (by decide)
  rw [sentFrames_eq hrun, commands, ← hfirst, ← hsecond]
  exact .cons (groupFrame_carries r.storage 0) (.cons (groupFrame_carries r.storage 1) .nil)

/-! ### The traffic of a whole run -/

/-- The commands that every call of `set_can_current` so far stood for. -/
def recordSent (r : Robot) (sent : List Command) (e : RobotEvent) (_ : Robot) : List Command :=
  match e with
  | .setCanCurrent => sent ++ commands r
  | _ => sent

/-- The runs of the robot with the commands they have sent. -/
abbrev SentRuns (conv : Conversion) (es : List RobotEvent) (r : Robot) (sent : List Command) :
    Prop :=
  Run (Ghost recordSent (ofExcept (step conv))) (started, []) es (r, sent)

/-- Nothing but `set_can_current` transmits. -/
theorem canTx_step {e : RobotEvent} (hr : Ready r) (he : e ≠ .setCanCurrent)
    (h : r.step conv e = .ok t) : t.storage.canTx = r.storage.canTx := by
  rcases step_eq_ok h with ⟨p, rfl, hupd⟩ | ⟨e', he', hs, _⟩
  · exact (update_eq_ok hr hupd).2.canTx
  · cases e with
    | update p => cases he'
    | setCanCurrent => exact absurd rfl he
    | tick =>
      obtain rfl := Option.some.inj he'
      obtain hs := Fallible.pure_eq_ok.mp hs
      rw [← hs]
    | canRx hcan stdId rxData =>
      obtain rfl := Option.some.inj he'
      obtain ⟨bus, -, hs⟩ := jointUpdate_of_step hs
      rw [hs]
      rfl
    | dbusRx rxData =>
      obtain rfl := Option.some.inj he'
      obtain ⟨data, error, hs⟩ := dbusUpdate_of_step hs
      rw [hs]
    | updateToController =>
      obtain rfl := Option.some.inj he'
      exact (updateToController_pass hs).canTx

/-- A call of `set_can_current` appends its frames. -/
theorem canTx_sends (h : r.step conv .setCanCurrent = .ok t) :
    t.storage.canTx = r.storage.canTx ++ sentFrames r.storage := by
  rcases step_eq_ok h with ⟨p, hp, _⟩ | ⟨e, he, hs, _⟩
  · cases hp
  · obtain rfl := Option.some.inj he
    rw [setCanCurrent_of_step hs]
    rfl

/-- Every frame ever handed over carries the commands of its call, and every call hands over
its two frames. -/
theorem traffic_of_run {sent : List Command} (hrun : SentRuns conv es r sent) :
    List.Forall₂ Carries r.storage.canTx sent := by
  rw [SentRuns] at hrun
  generalize hs : started = s at hrun
  have hbase : Runs conv [] s ∧ List.Forall₂ Carries s.storage.canTx [] := by
    rw [← hs, canTx_started]
    exact ⟨Run.nil, .nil⟩
  have hinv := hrun.invariant_events
    (I := fun es x => Runs conv es x.1 ∧ List.Forall₂ Carries x.1.storage.canTx x.2) ?_ hbase
  · exact hinv.2
  · clear hrun hbase hs
    rintro es ⟨r, sent⟩ e ⟨t, sent'⟩ ⟨hr, htx⟩ ⟨hstep, hsent⟩
    obtain rfl : sent' = recordSent r sent e t := hsent
    refine ⟨hr.snoc hstep, ?_⟩
    by_cases he : e = .setCanCurrent
    · subst he
      rw [canTx_sends hstep]
      exact List.rel_append htx (sent_of_run hr)
    · have hsame : recordSent r sent e t = sent := by
        cases e with
        | setCanCurrent => exact absurd rfl he
        | _ => rfl
      rw [hsame, canTx_step (ready_of_run hr) he hstep]
      exact htx

/-- One iteration of the motor task. -/
theorem traffic_of_run_cycle : ∃ r sent, SentRuns .lowBits controlCycle r sent ∧ sent ≠ [] ∧
    List.Forall₂ Carries r.storage.canTx sent := by
  obtain ⟨⟨r, sent⟩, hrun, hend⟩ := Run.of_check_ghost (fun _ _ => True) recordSent
    (Robot.step .lowBits) (started, []) controlCycle (fun x => x.2.length) (x := 2)
    (by decide +kernel)
  have hsent : SentRuns .lowBits controlCycle r sent :=
    hrun.mono fun _ _ _ hs => ⟨hs.1.2, hs.2⟩
  refine ⟨r, sent, hsent, ?_, traffic_of_run hsent⟩
  rintro rfl
  cases hend

/-! ### One iteration of the motor task -/

/-- What stands before and after one of the calls of an iteration. -/
theorem iteration_split {e : RobotEvent} {es₁ es₂ : List RobotEvent} (h : Iteration es)
    (hcycle : controlCycle = es₁ ++ e :: es₂) :
    ∃ before after, es = before ++ e :: after ∧ before.filter isMotorCall = es₁ ∧
      after.filter isMotorCall = es₂ := by
  obtain ⟨before, rest, hes, hbefore, hrest⟩ :=
    List.filter_eq_append_iff.mp (h.trans hcycle)
  obtain ⟨gap, after, hsplit, hgap, _, hafter⟩ := List.filter_eq_cons_iff.mp hrest
  refine ⟨before ++ gap, after, ?_, ?_, hafter⟩
  · rw [hes, hsplit, List.append_assoc]
  · rw [List.filter_append, hbefore, List.filter_eq_nil_iff.mpr hgap, List.append_nil]

/-- The command of a joint changes in the `update` of its controller only. -/
theorem commandOf_step {e : RobotEvent} {q : JointPtr Controller} (hr : Ready r)
    (he : e ≠ .update q.1) (h : r.step conv e = .ok t) : t.commandOf q = r.commandOf q := by
  rcases step_eq_ok h with ⟨p, rfl, hupd⟩ | ⟨e', he', hs, _⟩
  · rw [commandOf, (update_eq_ok hr hupd).2.joint_other fun hself => he (hself.1 ▸ rfl), commandOf]
  · obtain ⟨feedback, hq⟩ := (storageEvent_frame he' hs).joint q
    rw [commandOf, hq, commandOf]

theorem commandOf_run {q : JointPtr Controller} (hr : Ready r) (hes : .update q.1 ∉ es)
    (h : Run (ofExcept (step conv)) r es t) : t.commandOf q = r.commandOf q :=
  h.frame (commandOf · q) (fun _ _ _ => ready_step)
    (fun _ _ _ hr he hstep => commandOf_step hr (fun heq => hes (heq ▸ he)) hstep) hr

theorem canTx_run (hr : Ready r) (hes : .setCanCurrent ∉ es)
    (h : Run (ofExcept (step conv)) r es t) : t.storage.canTx = r.storage.canTx :=
  h.frame (fun r => r.storage.canTx) (fun _ _ _ => ready_step)
    (fun _ _ _ hr he hstep => canTx_step hr (fun heq => hes (heq ▸ he)) hstep) hr

/-- The `update` of each controller comes once in an iteration. -/
theorem update_of_iteration (h : Iteration es) (p : Controller) :
    ∃ before after, es = before ++ .update p :: after ∧ .update p ∉ after := by
  obtain ⟨es₁, es₂, hcycle, hmem⟩ : ∃ es₁ es₂,
      controlCycle = es₁ ++ .update p :: es₂ ∧ .update p ∉ es₂ := by
    cases p with
    | chassis => exact ⟨[], _, rfl, by simp⟩
    | gimbal => exact ⟨[.update .chassis], _, rfl, by simp⟩
    | bullet => exact ⟨[.update .chassis, .update .gimbal], _, rfl, by simp⟩
  obtain ⟨before, after, hes, _, hafter⟩ := iteration_split h hcycle
  exact ⟨before, after, hes, fun hin => hmem (hafter ▸ List.mem_filter.mpr ⟨hin, rfl⟩)⟩

/-- One iteration hands over two frames, and the current of every motor is the one that the
`update` of its controller has computed in the same iteration. -/
theorem sends_of_iteration (hrun : Runs conv es r) {es' : List RobotEvent} (hes : Iteration es')
    (h : Run (ofExcept (step conv)) r es' t) :
    (∃ frames, t.storage.canTx = r.storage.canTx ++ frames ∧
      List.Forall₂ Carries frames (commands t)) ∧
    ∀ q ∈ motors, ∃ before after u, es' = before ++ .update q.1 :: after ∧
      Run (ofExcept (step conv)) r before u ∧
      t.commandOf q = (u.jointLaw conv q.1 q.2 (u.storage.joint q)).target.current := by
  have hr := ready_of_run hrun
  constructor
  · have hcycle : controlCycle =
        [.update .chassis, .update .gimbal, .update .bullet] ++ .setCanCurrent :: [] := rfl
    obtain ⟨before, after, rfl, hbefore, hafter⟩ := iteration_split hes hcycle
    obtain ⟨u, v, hu, hsend, ht⟩ := h.cons_inv
    have hsilent : .setCanCurrent ∉ before ++ after := fun hin => by
      have hin' := List.mem_filter.mpr ⟨hin, (rfl : isMotorCall .setCanCurrent = true)⟩
      rw [List.filter_append, hbefore, hafter] at hin'
      simp at hin'
    rw [List.mem_append, not_or] at hsilent
    have hready : Ready u := hu.invariant (fun _ _ _ => ready_step) hr
    have hsame : t.commandOf = u.commandOf := funext fun q => by
      have hkept : .update q.1 ∉ after := fun hin =>
        List.filter_eq_nil_iff.mp hafter _ hin rfl
      rw [commandOf_run (ready_step hready hsend) hkept ht, commandOf_step hready (by simp) hsend]
    refine ⟨sentFrames u.storage, ?_, ?_⟩
    · rw [canTx_run (ready_step hready hsend) hsilent.2 ht, canTx_sends hsend,
        canTx_run hr hsilent.1 hu]
    · rw [commands, hsame]
      exact sent_of_run (hrun.append hu)
  · intro q hq
    obtain ⟨before, after, rfl, hafter⟩ := update_of_iteration hes q.1
    obtain ⟨u, v, hu, hupd, ht⟩ := h.cons_inv
    have hready : Ready u := hu.invariant (fun _ _ _ => ready_step) hr
    have hstored := (update_eq_ok hready hupd).2.joint_self hq
    refine ⟨before, after, u, rfl, hu, ?_⟩
    rw [commandOf_run (ready_step hready hupd) hafter ht, commandOf, hstored]

end Robot

end RmMicroControllers
