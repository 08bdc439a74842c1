import RmMicroControllers.App.System

/-!
# The three controllers

The `PartControl` objects of the firmware, their parameters, and what `on_init` of all three
leaves behind: six motors on HCAN1. A loop of `update` over the joints of one object changes
every joint by itself, which `foldlM_modifyJoint` says once for all controllers.

## Main definitions

- `Controller` — names the three objects
- `gJointDefault`, `gRosParam` — the parameters
- `Installed` — the registration that `on_init` leaves, which no later call changes
- `Updated` — what one `update` does to the storage
-/

namespace RmMicroControllers

open DeviceMonitor

/-- `gChassis`, `gGimbal` and `gBulletMotor`. -/
inductive Controller where
  | chassis
  | gimbal
  | bullet
  deriving DecidableEq

/-- `gJointDefault`. -/
def gJointDefault : JointType → JointCoeff
  | .kRM3508 =>
    ⟨![{ kp := 3, ki := 1 / 100 }, {}], ![0, 8191], ![Int16.ofInt (-16384), 16384]⟩
  | .kRM2006 =>
    ⟨![{ kp := 3, ki := 1 / 100 }, {}], ![0, 8191], ![Int16.ofInt (-10000), 10000]⟩
  | .kRM6020 =>
    ⟨![{ kp := 350, ki := 1, kd := 20 }, { kp := 8 / 100 }], ![0, 8191],
      ![Int16.ofInt (-30000), 30000]⟩

/-- `PersistParam::Part::Joint`. -/
structure PersistJoint where
  id : UInt8
  type : JointType
  coeff : JointCoeff

/-! The firmware is built with gcc. There the designators `.coeff.pid[0]` and the like, which
follow `.coeff = gJointDefault[..]`, make the compiler drop the copied object, so every member of
`coeff` that has no designator of its own is zero. -/

namespace gRosParam

/-- `gRosParam.chassis.joint[0]`. -/
def chassisJoint : PersistJoint where
  id := 1
  type := .kRM3508
  coeff :=
    { pid := ![{ kp := 3, ki := 1 / 100, kd := 0, kiLimit := 200 }, {}]
      angleLimit := ![0, 0]
      currentLimit := ![0, 0] }

/-- `gRosParam.gimbal.joint[0]`, the pitch motor. -/
def pitchJoint : PersistJoint where
  id := 3
  type := .kRM6020
  coeff :=
    { pid := ![{ kp := 90, ki := 8 / 10, kd := 0 }, { kp := 1 / 10, ki := 25 / 1000000, kd := 0 }]
      angleLimit := ![0, 0]
      currentLimit := ![Int16.ofInt (-14000), 14000] }

/-- `gRosParam.gimbal.joint[1]`, the yaw motor. Its angle loop has no gains. -/
def yawJoint : PersistJoint where
  id := 1
  type := .kRM6020
  coeff :=
    { pid := ![{ kp := 240, ki := 5, kd := 0 }, {}]
      angleLimit := ![0, 0]
      currentLimit := ![Int16.ofInt (-14000), 14000] }

/-- `gRosParam.chassis.hcan`, `gRosParam.gimbal.hcan` and `gRosParam.hcan_bullet`. -/
def hcan : Controller → Can := fun _ => .hcan1

end gRosParam

/-- `hcan_ = hcan` of one object. -/
def Storage.setHcan (s : Storage Controller) (p : Controller) (hcan : Can) : Storage Controller :=
  s.modifyPart p fun pc => { pc with hcan := hcan }

/-- `get_mode_change`, with the function's own static `mode`. -/
def PartControl.getModeChange {M : Type} [DecidableEq M] (mode nowMode : M) : Bool × M :=
  if mode ≠ nowMode then (true, nowMode) else (false, mode)

@[simp]
theorem PartControl.getModeChange_snd {M : Type} [DecidableEq M] (mode nowMode : M) :
    (getModeChange mode nowMode).2 = nowMode := by
  rw [getModeChange]
  split
  · rfl
  · next h => exact not_not.mp h

@[simp]
theorem PartControl.getModeChange_fst {M : Type} [DecidableEq M] (mode nowMode : M) :
    (getModeChange mode nowMode).1 = decide (mode ≠ nowMode) := by
  by_cases h : mode = nowMode <;> simp [getModeChange, h]

/-! ### The fixed members of a joint -/

section Fixed

variable (conv : Conversion) (j : JointData) (get set : ℚ) (x : Int16)

@[simp] theorem JointData.setTargetAngle_fixed : (j.setTargetAngle x).fixed = j.fixed := rfl
@[simp] theorem JointData.setTargetSpeed_fixed : (j.setTargetSpeed x).fixed = j.fixed := rfl
@[simp] theorem JointData.setTargetCurrent_fixed : (j.setTargetCurrent x).fixed = j.fixed := rfl
@[simp] theorem JointData.resetPid_fixed : j.resetPid.fixed = j.fixed := rfl
@[simp] theorem JointData.commandCurrent_fixed :
    (j.commandCurrent conv get set).fixed = j.fixed := rfl
@[simp] theorem JointData.commandSpeed_fixed :
    (j.commandSpeed conv get set).fixed = j.fixed := rfl

end Fixed

/-! ### Loops over the joints of one object -/

section Loops

variable {ι : Type} [DecidableEq ι]

/-- Change the first `n` joints of one object, each by itself. -/
def Storage.mapJoints (s : Storage ι) (p : ι) (n : ℕ) (f : Fin 6 → JointData → JointData) :
    Storage ι :=
  s.modifyPart p fun pc =>
    { pc with joint := fun i => if i.val < n then f i (pc.joint i) else pc.joint i }

theorem Storage.mapJoints_zero (s : Storage ι) (p : ι) (f : Fin 6 → JointData → JointData) :
    s.mapJoints p 0 f = s := by
  simp [mapJoints, modifyPart]

theorem Storage.mapJoints_succ (s : Storage ι) (p : ι) (i : Fin 6)
    (f : Fin 6 → JointData → JointData) :
    (s.mapJoints p i f).modifyJoint (p, i) (f i) = s.mapJoints p (i + 1) f := by
  unfold mapJoints modifyJoint modifyPart
  simp only [Function.update_self, Function.update_idem]
  congr 2
  congr 1
  funext k
  by_cases h : k = i
  · subst h
    simp
  · have hv : k.val ≠ i.val := fun hv => h (Fin.ext hv)
    have hlt : k.val < i.val + 1 ↔ k.val < i.val := by omega
    simp only [Function.update_of_ne h, hlt]

theorem Storage.mapJoints_one (s : Storage ι) (p : ι) (f : Fin 6 → JointData → JointData) :
    s.mapJoints p 1 f = s.modifyJoint (p, 0) (f 0) := by
  have h := s.mapJoints_succ p 0 f
  rw [show ((0 : Fin 6) : ℕ) = 0 from rfl, s.mapJoints_zero] at h
  exact h.symm

theorem Storage.modifyJoint_modifyJoint (s : Storage ι) (q : JointPtr ι)
    (f g : JointData → JointData) :
    (s.modifyJoint q f).modifyJoint q g = s.modifyJoint q (g ∘ f) := by
  simp [modifyJoint, modifyPart]

theorem Storage.modifyJoint_congr {s : Storage ι} {q : JointPtr ι}
    {f g : JointData → JointData} (h : f (s.joint q) = g (s.joint q)) :
    s.modifyJoint q f = s.modifyJoint q g := by
  have h' : f ((s.part q.1).joint q.2) = g ((s.part q.1).joint q.2) := h
  simp only [modifyJoint, modifyPart, h']

theorem Storage.mapJoints_mapJoints (s : Storage ι) (p : ι) (n : ℕ)
    (f g : Fin 6 → JointData → JointData) :
    (s.mapJoints p n f).mapJoints p n g = s.mapJoints p n fun i => g i ∘ f i := by
  unfold mapJoints modifyPart
  simp only [Function.update_self, Function.update_idem]
  congr 2
  congr 1
  funext i
  by_cases h : i.val < n <;> simp [h]

theorem Storage.mapJoints_joint (s : Storage ι) (p : ι) (n : ℕ)
    (f : Fin 6 → JointData → JointData) (q : JointPtr ι) :
    (s.mapJoints p n f).joint q =
      if q.1 = p ∧ q.2.val < n then f q.2 (s.joint q) else s.joint q := by
  rw [mapJoints]
  rw [modifyPart_joint]
  by_cases hp : q.1 = p
  · subst hp
    by_cases hn : q.2.val < n <;> simp [hn, joint]
  · simp [hp]

/-- Changes that keep the members fixed by `joint_add` keep the configuration. -/
theorem Storage.config_mapJoints (s : Storage ι) (p : ι) (n : ℕ)
    {f : Fin 6 → JointData → JointData} (hf : ∀ i j, (f i j).fixed = j.fixed) :
    (s.mapJoints p n f).config = s.config := by
  have hfixed : ∀ q, ((s.mapJoints p n f).joint q).fixed = (s.joint q).fixed := by
    intro q
    rw [s.mapJoints_joint]
    split
    · exact hf _ _
    · rfl
  have hpart : ∀ {α : Type} (x : PartControl → α),
      (∀ pc joint, x { pc with joint := joint } = x pc) →
      ∀ p', x ((s.mapJoints p n f).part p') = x (s.part p') := by
    intro α x hx p'
    rw [mapJoints]
    rw [modifyPart_part]
    split
    · next hp => rw [hx, hp]
    · rfl
  have hhcan := hpart (·.hcan) fun _ _ => rfl
  have hcnt := hpart (·.jointCnt) fun _ _ => rfl
  have hptr := hpart (·.jointIdPtr) fun _ _ => rfl
  simp only [config, hfixed, hhcan, hcnt, hptr]
  rfl

/-- A loop whose body changes joint `i` of the object by `f i` has changed them all. -/
theorem foldlM_modifyJoint {s : Storage ι} {p : ι} {n : ℕ} {f : Fin 6 → JointData → JointData}
    {body : Storage ι → ℕ → Except Fault (Storage ι)} (hn : n ≤ 6)
    (hbody : ∀ (g : PartControl → PartControl) (i : Fin 6), i.val < n →
      body (s.modifyPart p g) i = .ok ((s.modifyPart p g).modifyJoint (p, i) (f i))) :
    (List.range n).foldlM body s = .ok (s.mapJoints p n f) := by
  induction n with
  | zero => rw [s.mapJoints_zero]; rfl
  | succ n ih =>
    have hprev := ih (by omega) fun g i hi => hbody g i (Nat.lt_succ_of_lt hi)
    have hlast := hbody
      (fun pc => { pc with joint := fun i => if i.val < n then f i (pc.joint i) else pc.joint i })
      ⟨n, by omega⟩ (Nat.lt_succ_self n)
    rw [List.range_succ, List.foldlM_append, hprev, Fallible.ok_bind,
      ← s.mapJoints_succ p ⟨n, by omega⟩ f]
    simp only [List.foldlM_cons, List.foldlM_nil, bind_pure]
    exact hlast

omit [DecidableEq ι] in
/-- `update_target` returns when the bus number and the ids are within the array. -/
theorem PartControl.updateTarget_returns {s : Storage ι} {p : ι}
    (hbus : (canCastToNum (s.part p).hcan).toNat < 2) (hcnt : (s.part p).jointCnt.toNat ≤ 6)
    (hid : ∀ i : Fin 6, i.val < (s.part p).jointCnt.toNat → (s.joint (p, i)).id.toNat < 16) :
    ∃ t, updateTarget s p = .ok t := by
  have hstep : ∀ u : Storage ι, ∀ i ∈ List.range (s.part p).jointCnt.toNat, u.part = s.part →
      ∃ v, (do
        let i ← index .joint 6 i
        setTarget u (u.part p).hcan (p, i)) = .ok v ∧ v.part = s.part := by
    intro u i hi hu
    have hlt := List.mem_range.mp hi
    have hjoint : u.joint = s.joint := by unfold Storage.joint; rw [hu]
    refine ⟨u.setJointTarget ⟨_, hbus⟩ ⟨_, hid ⟨i, by omega⟩ hlt⟩ (u.joint (p, ⟨i, by omega⟩)).target,
      ?_, hu⟩
    rw [index_of_lt .joint (by omega : i < 6), Fallible.ok_bind, hu]
    exact setTarget_eq_ok.mpr ⟨_, _, rfl, by rw [hjoint], rfl⟩
  obtain ⟨t, ht, -⟩ := Fallible.foldlM_exists hstep rfl
  exact ⟨t, ht⟩

omit [DecidableEq ι] in
/-- `update_target` leaves the rows of the other buses alone. -/
theorem PartControl.updateTarget_other {s t : Storage ι} {p : ι} {bus bus' : Fin 2}
    (hbus : (canCastToNum (s.part p).hcan).toNat = bus) (hne : bus' ≠ bus)
    (h : updateTarget s p = .ok t) : t.jointTarget bus' = s.jointTarget bus' := by
  have hinv : t.part = s.part ∧ t.jointTarget bus' = s.jointTarget bus' := by
    refine Fallible.foldlM_invariant
      (I := fun u : Storage ι => u.part = s.part ∧ u.jointTarget bus' = s.jointTarget bus')
      ?_ h ⟨rfl, rfl⟩
    rintro u i v ⟨hpart, htarget⟩ hv
    obtain ⟨k, -, hv⟩ := Fallible.bind_eq_ok.mp hv
    obtain ⟨b, id, hb, -, rfl⟩ := setTarget_eq_ok.mp hv
    rw [hpart, hbus] at hb
    refine ⟨hpart, ?_⟩
    rw [← htarget]
    exact Function.update_of_ne (fun heq => hne (heq.trans (Fin.ext hb.symm))) _ _
  exact hinv.2

end Loops

/-! ### The registration -/

/-- The number of joints of each controller. -/
def jointCount : Controller → UInt8
  | .chassis => 1
  | .gimbal => 2
  | .bullet => 3

/-- The registered joints in the order of registration. -/
def motors : List (JointPtr Controller) :=
  [(.chassis, 0), (.gimbal, 0), (.gimbal, 1), (.bullet, 0), (.bullet, 1), (.bullet, 2)]

/-- The id of each registered joint. -/
def motorId : JointPtr Controller → Fin 16
  | (.chassis, _) => 1
  | (.gimbal, i) => if i = 0 then 7 else 5
  | (.bullet, i) => if i = 0 then 2 else if i = 1 then 3 else 4

/-- The coefficients of each registered joint. -/
def motorCoeff : JointPtr Controller → JointCoeff
  | (.chassis, _) => gRosParam.chassisJoint.coeff
  | (.gimbal, i) => if i = 0 then gRosParam.pitchJoint.coeff else gRosParam.yawJoint.coeff
  | (.bullet, i) => if i = 0 then gJointDefault .kRM2006 else gJointDefault .kRM3508

/-- The registration that the three `on_init` leave. -/
structure Installed (s : Storage Controller) : Prop where
  hcan : ∀ p, (s.part p).hcan = .hcan1
  jointCnt : ∀ p, (s.part p).jointCnt = jointCount p
  coeff : ∀ q ∈ motors, (s.joint q).coeff = motorCoeff q
  id : ∀ q ∈ motors, (s.joint q).id.toNat = motorId q
  headTarget : ∀ q ∈ motors,
    (s.joint q).headTarget = gCanHeadTarget ((motorId q).castLE (by decide))
  ptrs : ∀ bus, (s.deviceJoint bus).elems.map (·.ptr) = if bus = 1 then motors else []
  dict : ∀ q ∈ motors,
    s.deviceDict.lookup q = some ⟨1, (s.deviceJoint 1).generation, motors.idxOf q⟩

theorem mem_motors_iff (q : JointPtr Controller) :
    q ∈ motors ↔ q.2.val < (jointCount q.1).toNat := by
  obtain ⟨p, i⟩ := q
  revert i
  cases p <;> decide

/-- The registration depends on the configuration only. -/
theorem Installed.congr {s t : Storage Controller} (hs : Installed s)
    (h : t.config = s.config) : Installed t := by
  have hfixed : ∀ q, (t.joint q).fixed = (s.joint q).fixed := congrFun (congrArg Config.fixed h)
  have hgen := congrFun (congrArg Config.generation h) 1
  have hdict : t.deviceDict = s.deviceDict := congrArg Config.deviceDict h
  refine ⟨fun p => ?_, fun p => ?_, fun q hq => ?_, fun q hq => ?_, fun q hq => ?_, fun bus => ?_,
    fun q hq => ?_⟩
  · exact (congrFun (congrArg Config.hcan h) p).trans (hs.hcan p)
  · exact (congrFun (congrArg Config.jointCnt h) p).trans (hs.jointCnt p)
  · exact (congrArg JointData.Fixed.coeff (hfixed q)).trans (hs.coeff q hq)
  · exact (congrArg (fun x => (JointData.Fixed.id x).toNat) (hfixed q)).trans (hs.id q hq)
  · exact (congrArg JointData.Fixed.headTarget (hfixed q)).trans (hs.headTarget q hq)
  · exact (congrFun (congrArg Config.ptrs h) bus).trans (hs.ptrs bus)
  · rw [hdict, hs.dict q hq]
    exact congrArg (fun g => some (DevicePtr.mk 1 g _)) hgen.symm

theorem Installed.registered {s : Storage Controller} (hs : Installed s) (p : Controller)
    (i : Fin 6) : (p, i) ∈ motors ↔ i.val < (s.part p).jointCnt.toNat := by
  rw [mem_motors_iff, hs.jointCnt]

/-- The registered joints have different ids. -/
theorem motorId_inj : ∀ q ∈ motors, ∀ q' ∈ motors, motorId q = motorId q' → q = q' := by
  decide

/-- `get_online` finds the device of every registered joint. -/
theorem Installed.getOnline_eq {s : Storage Controller} (hs : Installed s)
    {q : JointPtr Controller} (hq : q ∈ motors) :
    ∃ d ∈ (s.deviceJoint 1).elems, d.ptr = q ∧ getOnline s q = .ok d.online := by
  have hptrs : (s.deviceJoint 1).elems.map (·.ptr) = motors := hs.ptrs 1
  have hget : motors[motors.idxOf q]? = some q := List.getElem?_idxOf hq
  rw [← hptrs, List.getElem?_map] at hget
  obtain ⟨d, hd, hdq⟩ := Option.map_eq_some_iff.mp hget
  refine ⟨d, List.mem_of_getElem? hd, hdq, ?_⟩
  have hfind : deviceDictFind s q = .ok d := by
    rw [deviceDictFind]
    rw [hs.dict q hq]
    rw [hptrs] at hd
    simp only [if_true, hd]
  rw [getOnline, hfind]
  rfl

/-- Whether `get_online` answers that a joint is on-line. -/
def isOnline (s : Storage Controller) (q : JointPtr Controller) : Bool :=
  (getOnline s q).toOption.getD false

theorem Installed.getOnline {s : Storage Controller} (hs : Installed s)
    {q : JointPtr Controller} (hq : q ∈ motors) : getOnline s q = .ok (isOnline s q) := by
  obtain ⟨d, -, -, hd⟩ := hs.getOnline_eq hq
  rw [isOnline, hd]
  rfl

/-! ### One cycle of one controller -/

/-- What an `update` has done: every joint of the object has changed by itself, and the shared
    array holds its new targets. -/
structure Updated (s : Storage Controller) (p : Controller) (f : Fin 6 → JointData → JointData)
    (t : Storage Controller) : Prop where
  frame : t = { s.mapJoints p (jointCount p).toNat f with jointTarget := t.jointTarget }
  target : ∀ q ∈ motors, t.jointTarget 1 (motorId q) =
    if q.1 = p then (t.joint q).target else s.jointTarget 1 (motorId q)
  idle : t.jointTarget 0 = s.jointTarget 0

namespace Updated

variable {s t : Storage Controller} {p : Controller} {f : Fin 6 → JointData → JointData}

theorem joint_self (h : Updated s p f t) {i : Fin 6} (hi : (p, i) ∈ motors) :
    t.joint (p, i) = f i (s.joint (p, i)) := by
  have hjoint : t.joint (p, i) = (s.mapJoints p (jointCount p).toNat f).joint (p, i) := by
    rw [h.frame]
    rfl
  rw [hjoint, Storage.mapJoints_joint]
  exact if_pos ⟨rfl, (mem_motors_iff (p, i)).mp hi⟩

theorem joint_other (h : Updated s p f t) {q : JointPtr Controller}
    (hq : ¬ (q.1 = p ∧ q ∈ motors)) : t.joint q = s.joint q := by
  have hjoint : t.joint q = (s.mapJoints p (jointCount p).toNat f).joint q := by
    rw [h.frame]
    rfl
  rw [hjoint, Storage.mapJoints_joint]
  refine if_neg fun hlt => hq ⟨hlt.1, (mem_motors_iff q).mpr ?_⟩
  rw [hlt.1]
  exact hlt.2

theorem deviceJoint (h : Updated s p f t) : t.deviceJoint = s.deviceJoint := by
  rw [h.frame]
  rfl

theorem deviceDbus (h : Updated s p f t) : t.deviceDbus = s.deviceDbus := by
  rw [h.frame]
  rfl

theorem canTx (h : Updated s p f t) : t.canTx = s.canTx := by
  rw [h.frame]
  rfl

theorem config (h : Updated s p f t) (hf : ∀ i j, (f i j).fixed = j.fixed) :
    t.config = s.config := by
  rw [h.frame]
  exact s.config_mapJoints p _ hf

end Updated

/-- `update_target` after the joints of an object have changed. -/
theorem Installed.updateTarget {s : Storage Controller} (hs : Installed s) {p : Controller}
    {f : Fin 6 → JointData → JointData} (hf : ∀ i j, (f i j).fixed = j.fixed) :
    ∃ t, PartControl.updateTarget (s.mapJoints p (jointCount p).toNat f) p = .ok t ∧
      Updated s p f t := by
  generalize hu : s.mapJoints p (jointCount p).toNat f = u
  have hinst : Installed u := hs.congr (hu ▸ s.config_mapJoints p _ hf)
  have hbus : (canCastToNum (u.part p).hcan).toNat = (1 : Fin 2) := by rw [hinst.hcan]; rfl
  have hid : ∀ i : Fin 6, i.val < (u.part p).jointCnt.toNat →
      (u.joint (p, i)).id.toNat = motorId (p, i) :=
    fun i hi => hinst.id _ ((hinst.registered p i).mpr hi)
  have hcnt : (u.part p).jointCnt.toNat ≤ 6 := by
    rw [hinst.jointCnt]
    cases p <;> decide
  obtain ⟨t, ht⟩ := PartControl.updateTarget_returns (by rw [hbus]; decide) hcnt fun i hi => by
    rw [hid i hi]
    exact (motorId (p, i)).isLt
  have hstored := PartControl.updateTarget_eq_ok (fun i j hi hj hij => ?_) ht
  · have hpart : t.part = u.part := by rw [hstored.frame]
    have hjoint : t.joint = u.joint := by unfold Storage.joint; rw [hpart]
    refine ⟨t, ht, by rw [hu]; exact hstored.frame, fun q hq => ?_, ?_⟩
    split
    · next hp =>
      subst hp
      have hi := (hinst.registered q.1 q.2).mp hq
      rw [hjoint]
      exact hstored.stored q.2 hi 1 (motorId q) hbus (hid q.2 hi)
    · next hp =>
      rw [hstored.other 1 (motorId q) fun i hi heq => hp ?_]
      · rw [← hu]
        rfl
      · have hmem := (hinst.registered p i).mpr hi
        rw [hid i hi] at heq
        rw [motorId_inj q hq _ hmem (Fin.ext heq.symm)]
    · rw [PartControl.updateTarget_other hbus (by decide) ht, ← hu]
      rfl
  · have h₁ := (hinst.registered p i).mpr hi
    have h₂ := (hinst.registered p j).mpr hj
    have heq : motorId (p, i) = motorId (p, j) := by
      apply Fin.ext
      rw [← hid i hi, ← hid j hj, hij]
    exact congrArg Prod.snd (motorId_inj _ h₁ _ h₂ heq)

end RmMicroControllers
