import Mathlib.Tactic.FinCases
import RmMicroControllers.App.DeviceMonitor

/-!
# Part controllers

`PartControl`: the registration of joints, the array of targets that all controllers share,
and the transmission of one CAN frame for each command group with an online joint.
-/

namespace RmMicroControllers

variable {ι : Type}

/-- `motor >> 8` and `motor`, both stored in a `uint8_t`. -/
def currentBytes (motor : Int16) : UInt8 × UInt8 :=
  (UInt8.ofInt (motor.toInt >>> (8 : ℕ)), UInt8.ofInt motor.toInt)

/-- `transimitionCanTx`, repeated until the peripheral accepts the frame. -/
def transimitionCanTx (s : Storage ι) (hcan : Can) (stdId : UInt32)
    (motor1 motor2 motor3 motor4 : Int16) : Storage ι :=
  let (h1, l1) := currentBytes motor1
  let (h2, l2) := currentBytes motor2
  let (h3, l3) := currentBytes motor3
  let (h4, l4) := currentBytes motor4
  { s with canTx := s.canTx ++ [⟨hcan, stdId, ![h1, l1, h2, l2, h3, l3, h4, l4]⟩] }

namespace PartControl

open DeviceMonitor

/-- `set_online_cnt`: `cnt_change` is a `uint8_t`, so 255 counts down by one. -/
def setOnlineCnt (s : Storage ι) (canNum id cntChange : UInt8) : Except Fault (Storage ι) := do
  let bus ← index .jointCmdGroupOnlineCnt 2 canNum.toNat
  let group ← index .jointCmdGroupOnlineCnt 16 (id.toNat >>> 2)
  return s.addOnlineCnt bus group cntChange

/-- The id a joint ends up with: GM6020 motors count from 5. -/
def finalId (jointType : JointType) (id : UInt8) : UInt8 :=
  if jointType = .kRM6020 then id + 4 else id

variable [DecidableEq ι]

/-- `joint_add`. The result is the position of the joint in `joint_`. -/
def jointAdd (s : Storage ι) (p : ι) (jointType : JointType) (id : UInt8) (coeff : JointCoeff) :
    Except Fault (UInt8 × Storage ι) := do
  let id := finalId jointType id
  let hcan := (s.part p).hcan
  let cnt := (s.part p).jointCnt
  let slot ← index .jointIdPtr 16 id.toNat
  if ((s.part p).jointIdPtr slot).isSome then
    .error .errorHandler
  else
    let i ← index .joint 6 cnt.toNat
    let s := s.modifyPart p fun pc =>
      { pc with
        jointIdPtr := Function.update pc.jointIdPtr slot (some i)
        joint := Function.update pc.joint i
          { coeff := coeff, canNum := canCastToNum hcan, id := id } }
    let s ← registerAndInit s hcan (p, i)
    let group ← index .jointCmdGroupCnt 4 (id.toNat >>> 2)
    let s := s.modifyPart p fun pc =>
      { pc with
        jointCmdGroupCnt :=
          Function.update pc.jointCmdGroupCnt group (pc.jointCmdGroupCnt group + 1) }
    let s ← setOnlineCnt s (canCastToNum hcan) id 1
    return (cnt, s.modifyPart p fun pc => { pc with jointCnt := pc.jointCnt + 1 })

omit [DecidableEq ι] in
/-- `set_target`. -/
def setTarget (s : Storage ι) (hcan : Can) (q : JointPtr ι) : Except Fault (Storage ι) := do
  let bus ← index .jointTarget 2 (canCastToNum hcan).toNat
  let id ← index .jointTarget 16 (s.joint q).id.toNat
  return s.setJointTarget bus id (s.joint q).target

/-- `update_target`: the targets of all joints of one object. -/
def updateTarget (s : Storage ι) (p : ι) : Except Fault (Storage ι) :=
  (List.range (s.part p).jointCnt.toNat).foldlM (fun s i => do
    let i ← index .joint 6 i
    setTarget s (s.part p).hcan (p, i)) s

/-- `get_target_current`. -/
def getTargetCurrent (s : Storage ι) (canNum id : ℕ) : Except Fault Int16 := do
  let bus ← index .jointTarget 2 canNum
  let id ← index .jointTarget 16 id
  return (s.jointTarget bus id).current

/-- The body of the loops of `set_can_current`: send the frame of group `j` of bus `i` unless
    the group counts as off-line. -/
def sendGroup (s : Storage ι) (i j : ℕ) : Except Fault (Storage ι) := do
  let bus ← index .jointCmdGroupOnlineCnt 2 i
  let group ← index .jointCmdGroupOnlineCnt 16 j
  if s.jointCmdGroupOnlineCnt bus group ≠ 0 then
    let head ← index .canHead 17 (j <<< 2 ||| 1)
    let motor1 ← getTargetCurrent s i (j <<< 2 ||| 1)
    let motor2 ← getTargetCurrent s i (j <<< 2 ||| 2)
    let motor3 ← getTargetCurrent s i (j <<< 2 ||| 3)
    let motor4 ← getTargetCurrent s i (j <<< 2 ||| 4)
    return transimitionCanTx s (numCastToCan (UInt8.ofNat i)) (gCanHeadTarget head)
      motor1 motor2 motor3 motor4
  else
    return s

/-- `set_can_current`. -/
def setCanCurrent (s : Storage ι) : Except Fault (Storage ι) :=
  (List.range 2).foldlM (fun s i => (List.range 4).foldlM (fun s j => sendGroup s i j) s) s

/-! ### What a call that returns has done -/

omit [DecidableEq ι] in
theorem setOnlineCnt_eq_ok {s t : Storage ι} {canNum id change : UInt8} :
    setOnlineCnt s canNum id change = .ok t ↔
      ∃ (bus : Fin 2) (group : Fin 16), canNum.toNat = bus ∧ id.toNat >>> 2 = group ∧
        t = s.addOnlineCnt bus group change := by
  rw [setOnlineCnt]
  constructor
  · intro h
    obtain ⟨bus, hbus, h⟩ := Fallible.bind_eq_ok.mp h
    obtain ⟨group, hgroup, h⟩ := Fallible.bind_eq_ok.mp h
    exact ⟨bus, group, index_eq_ok.mp hbus, index_eq_ok.mp hgroup,
      (Fallible.pure_eq_ok.mp h).symm⟩
  · rintro ⟨bus, group, hbus, hgroup, rfl⟩
    rw [index_eq_ok.mpr hbus, index_eq_ok.mpr hgroup]
    rfl

omit [DecidableEq ι] in
theorem setTarget_eq_ok {s t : Storage ι} {hcan : Can} {q : JointPtr ι} :
    setTarget s hcan q = .ok t ↔
      ∃ (bus : Fin 2) (id : Fin 16), (canCastToNum hcan).toNat = bus ∧
        (s.joint q).id.toNat = id ∧ t = s.setJointTarget bus id (s.joint q).target := by
  rw [setTarget]
  constructor
  · intro h
    obtain ⟨bus, hbus, h⟩ := Fallible.bind_eq_ok.mp h
    obtain ⟨id, hid, h⟩ := Fallible.bind_eq_ok.mp h
    exact ⟨bus, id, index_eq_ok.mp hbus, index_eq_ok.mp hid, (Fallible.pure_eq_ok.mp h).symm⟩
  · rintro ⟨bus, id, hbus, hid, rfl⟩
    rw [index_eq_ok.mpr hbus, index_eq_ok.mpr hid]
    rfl

/-- The joint that `joint_add` stores, with its two ids looked up. -/
def newJoint (coeff : JointCoeff) (canNum id : UInt8) (head : Fin 17) : JointData :=
  withHeads head { coeff := coeff, canNum := canNum, id := id }

/-- What `joint_add` does to the storage when it returns: joint `i` of object `p` is new, its
    device is the last one of `bus`, and its group counts one more. -/
structure JointAdded (s : Storage ι) (p : ι) (i : Fin 6) (bus : Fin 2) (head : Fin 17)
    (slot group : Fin 16) (cmdGroup : Fin 4) (id : UInt8) (coeff : JointCoeff)
    (t : Storage ι) : Prop where
  cnt_eq : (s.part p).jointCnt.toNat = i
  bus_eq : (canCastToNum (s.part p).hcan).toNat = bus
  head_eq : id.toNat = head
  slot_eq : id.toNat = slot
  group_eq : id.toNat >>> 2 = group
  slot_free : (s.part p).jointIdPtr slot = none
  not_taken : ∀ d ∈ (s.deviceJoint bus).elems,
    d.ptr ≠ (p, i) ∧ (s.joint d.ptr).headFeedback ≠ gCanHeadFeedback head
  part : t.part = Function.update s.part p
    { s.part p with
      jointCnt := (s.part p).jointCnt + 1
      jointCmdGroupCnt := Function.update (s.part p).jointCmdGroupCnt cmdGroup
        ((s.part p).jointCmdGroupCnt cmdGroup + 1)
      joint := Function.update (s.part p).joint i
        (newJoint coeff (canCastToNum (s.part p).hcan) id head)
      jointIdPtr := Function.update (s.part p).jointIdPtr slot (some i) }
  deviceJoint : t.deviceJoint = Function.update s.deviceJoint bus
    ((s.deviceJoint bus).pushBack { cmdErrorDuration := 10, ptr := (p, i), data := {} })
  deviceDict : t.deviceDict = dictInsert s.deviceDict (p, i)
    ⟨bus, (s.deviceJoint bus).generation, (s.deviceJoint bus).elems.length⟩
  onlineCnt : t.jointCmdGroupOnlineCnt = (s.addOnlineCnt bus group 1).jointCmdGroupOnlineCnt
  tick : t.tick = s.tick
  deviceDbus : t.deviceDbus = s.deviceDbus
  jointTarget : t.jointTarget = s.jointTarget
  canTx : t.canTx = s.canTx

theorem jointAdd_eq_ok {s t : Storage ι} {p : ι} {jointType : JointType} {id k : UInt8}
    {coeff : JointCoeff} (h : jointAdd s p jointType id coeff = .ok (k, t)) :
    ∃ i bus head slot group cmdGroup,
      JointAdded s p i bus head slot group cmdGroup (finalId jointType id) coeff t ∧
        k = (s.part p).jointCnt := by
  rw [jointAdd] at h
  generalize finalId jointType id = id at h ⊢
  obtain ⟨slot, hslot, h⟩ := Fallible.bind_eq_ok.mp h
  rw [index_eq_ok] at hslot
  split at h
  · cases h
  next hfree =>
  obtain ⟨i, hi, h⟩ := Fallible.bind_eq_ok.mp h
  obtain ⟨u, hreg, h⟩ := Fallible.bind_eq_ok.mp h
  obtain ⟨cmdGroup, hcmd, h⟩ := Fallible.bind_eq_ok.mp h
  obtain ⟨v, hcnt, h⟩ := Fallible.bind_eq_ok.mp h
  rw [index_eq_ok] at hi hcmd
  obtain ⟨bus', group, hbus', hgroup, rfl⟩ := setOnlineCnt_eq_ok.mp hcnt
  obtain ⟨head, bus, hhead, hbus, htaken, rfl⟩ := registerAndInit_eq_ok hreg
  -- the counter and the vector are indexed by the same bus
  have hbb : bus' = bus := Fin.ext (hbus'.symm.trans hbus)
  subst hbb
  simp only [Fallible.pure_eq_ok, Prod.mk.injEq] at h
  obtain ⟨rfl, rfl⟩ := h
  have hid : id.toNat = head := by simpa [Storage.joint, Storage.modifyPart] using hhead
  refine ⟨i, bus', head, slot, group, cmdGroup, ?_, rfl⟩
  exact
    { cnt_eq := hi
      bus_eq := hbus
      head_eq := hid
      slot_eq := hslot
      group_eq := hgroup
      slot_free := by simpa using hfree
      not_taken := fun d hd => by
        have hne := List.any_eq_false.mp htaken d hd
        have hptr : d.ptr ≠ (p, i) := fun heq => hne (by rw [heq]; exact beq_self_eq_true _)
        refine ⟨hptr, ?_⟩
        rw [Storage.modifyJoint_of_ne _ _ _ hptr, Storage.modifyJoint_self,
          Storage.modifyPart_joint_of_ne _ _ hptr fun k hk => Function.update_of_ne hk _ _] at hne
        simpa [withHeads] using hne
      part := by
        simp [Storage.addOnlineCnt, Storage.modifyPart, Storage.modifyJoint, newJoint,
          deviceDictAdd]
      deviceJoint := rfl
      deviceDict := rfl
      onlineCnt := rfl
      tick := rfl
      deviceDbus := rfl
      jointTarget := rfl
      canTx := rfl }

namespace JointAdded

variable {s t : Storage ι} {p : ι} {i : Fin 6} {bus : Fin 2} {head : Fin 17}
  {slot group : Fin 16} {cmdGroup : Fin 4} {id : UInt8} {coeff : JointCoeff}

theorem joint_self (h : JointAdded s p i bus head slot group cmdGroup id coeff t) :
    t.joint (p, i) = newJoint coeff (canCastToNum (s.part p).hcan) id head := by
  simp [Storage.joint, h.part]

theorem joint_ne (h : JointAdded s p i bus head slot group cmdGroup id coeff t)
    {q : JointPtr ι} (hq : q ≠ (p, i)) : t.joint q = s.joint q := by
  by_cases hp : q.1 = p
  · have hi : q.2 ≠ i := fun hi => hq (Prod.ext hp hi)
    simp [Storage.joint, h.part, hp, hi]
  · simp [Storage.joint, h.part, hp]

theorem hcan (h : JointAdded s p i bus head slot group cmdGroup id coeff t) (p' : ι) :
    (t.part p').hcan = (s.part p').hcan := by
  by_cases hp : p' = p <;> simp [h.part, hp]

theorem jointCnt_self (h : JointAdded s p i bus head slot group cmdGroup id coeff t) :
    (t.part p).jointCnt = (s.part p).jointCnt + 1 := by
  simp [h.part]

theorem jointCnt_ne (h : JointAdded s p i bus head slot group cmdGroup id coeff t) {p' : ι}
    (hp : p' ≠ p) : (t.part p').jointCnt = (s.part p').jointCnt := by
  simp [h.part, hp]

theorem elems_self (h : JointAdded s p i bus head slot group cmdGroup id coeff t) :
    (t.deviceJoint bus).elems =
      (s.deviceJoint bus).elems ++ [{ cmdErrorDuration := 10, ptr := (p, i), data := {} }] := by
  simp [h.deviceJoint]

theorem deviceJoint_ne (h : JointAdded s p i bus head slot group cmdGroup id coeff t)
    {b : Fin 2} (hb : b ≠ bus) : t.deviceJoint b = s.deviceJoint b := by
  simp [h.deviceJoint, hb]

end JointAdded

/-! ### The targets that `update_target` stores -/

section Targets

omit [DecidableEq ι]

/-- `update_target` changes nothing but the array of targets. -/
structure TargetsStored (s : Storage ι) (p : ι) (n : ℕ) (t : Storage ι) : Prop where
  frame : t = { s with jointTarget := t.jointTarget }
  stored : ∀ i : Fin 6, i.val < n → ∀ (bus : Fin 2) (id : Fin 16),
    (canCastToNum (s.part p).hcan).toNat = bus → (s.joint (p, i)).id.toNat = id →
    t.jointTarget bus id = (s.joint (p, i)).target
  other : ∀ (bus : Fin 2) (id : Fin 16),
    (∀ i : Fin 6, i.val < n → (s.joint (p, i)).id.toNat ≠ id) →
    t.jointTarget bus id = s.jointTarget bus id

/-- The loop of `update_target` over the first `n` joints, which have different ids. -/
theorem targetsStored_of_foldlM {s t : Storage ι} {p : ι} {n : ℕ}
    (hinj : ∀ i j : Fin 6, i.val < n → j.val < n →
      (s.joint (p, i)).id = (s.joint (p, j)).id → i = j)
    (h : (List.range n).foldlM (fun s i => do
      let i ← index .joint 6 i
      setTarget s (s.part p).hcan (p, i)) s = .ok t) : TargetsStored s p n t := by
  induction n generalizing t with
  | zero =>
    obtain rfl := Fallible.pure_eq_ok.mp h
    exact ⟨rfl, fun i hi => absurd hi (Nat.not_lt_zero _), fun _ _ _ => rfl⟩
  | succ n ih =>
    -- the last joint is stored after the others, in a slot that none of them has
    rw [List.range_succ, List.foldlM_append] at h
    obtain ⟨u, hu, h⟩ := Fallible.bind_eq_ok.mp h
    have hprev := ih (fun i j hi hj => hinj i j (by omega) (by omega)) hu
    simp only [List.foldlM_cons, List.foldlM_nil, bind_pure] at h
    obtain ⟨k, hk, h⟩ := Fallible.bind_eq_ok.mp h
    rw [index_eq_ok] at hk
    obtain ⟨bus, id, hbus, hid, rfl⟩ := setTarget_eq_ok.mp h
    have hjoint : u.joint = s.joint := by rw [hprev.frame]; rfl
    have hpart : u.part = s.part := by rw [hprev.frame]
    rw [hjoint] at hid
    rw [hpart] at hbus
    refine ⟨?_, ?_, ?_⟩
    · rw [hprev.frame]; rfl
    · intro i hi bus' id' hbus' hid'
      obtain rfl : bus' = bus := Fin.ext (hbus'.symm.trans hbus)
      by_cases hik : i = k
      · subst hik
        obtain rfl : id' = id := Fin.ext (hid'.symm.trans hid)
        simp [Storage.setJointTarget, hjoint]
      · have hne : id' ≠ id := fun heq => hik (hinj i k hi (by omega)
          (UInt8.toNat_inj.mp (by rw [hid', hid, heq])))
        have hin : i.val < n := by
          have : i.val ≠ k.val := fun hv => hik (Fin.ext hv)
          omega
        simpa [Storage.setJointTarget, hne] using hprev.stored i hin bus' id' hbus' hid'
    · intro bus' id' hfree
      have hne : id' ≠ id := fun heq => hfree k (by omega) (by rw [hid, heq])
      have hkeep := hprev.other bus' id' fun i hi => hfree i (by omega)
      by_cases hb : bus' = bus
      · subst hb; simpa [Storage.setJointTarget, hne] using hkeep
      · simpa [Storage.setJointTarget, hb] using hkeep

theorem updateTarget_eq_ok {s t : Storage ι} {p : ι}
    (hinj : ∀ i j : Fin 6, i.val < (s.part p).jointCnt.toNat →
      j.val < (s.part p).jointCnt.toNat → (s.joint (p, i)).id = (s.joint (p, j)).id → i = j)
    (h : updateTarget s p = .ok t) : TargetsStored s p (s.part p).jointCnt.toNat t :=
  targetsStored_of_foldlM hinj h

end Targets

/-! ### The frames of one transmission -/

section Transmission

omit [DecidableEq ι]

/-- The id whose target goes into slot `k` of the frame of group `j`. -/
def slotId (j k : Fin 4) : Fin 16 :=
  ⟨j.val <<< 2 ||| (k.val + 1), by fin_cases j <;> fin_cases k <;> decide⟩

/-- The four targets of a group, as the eight bytes of its frame. -/
def groupData (s : Storage ι) (bus : Fin 2) (j : Fin 4) : Fin 8 → UInt8 :=
  let b (k : Fin 4) := currentBytes (s.jointTarget bus (slotId j k)).current
  ![(b 0).1, (b 0).2, (b 1).1, (b 1).2, (b 2).1, (b 2).2, (b 3).1, (b 3).2]

/-- The frame of group `j` of bus `bus`. -/
def groupFrame (s : Storage ι) (bus : Fin 2) (j : Fin 4) : CanFrame where
  hcan := numCastToCan (UInt8.ofNat bus)
  stdId := gCanHeadTarget ((slotId j 0).castLE (by decide))
  data := groupData s bus j

/-- The frame of a group, if the group counts as on-line. -/
def groupFrames (s : Storage ι) (bus : Fin 2) (j : Fin 4) : List CanFrame :=
  if s.jointCmdGroupOnlineCnt bus (j.castLE (by decide)) ≠ 0 then [groupFrame s bus j] else []

/-- The frames that one `set_can_current` sends, in order. -/
def sentFrames (s : Storage ι) : List CanFrame :=
  (List.finRange 2).flatMap fun bus => (List.finRange 4).flatMap fun j => groupFrames s bus j

/-- Append to the transmitted frames. -/
def appendTx (s : Storage ι) (frames : List CanFrame) : Storage ι :=
  { s with canTx := s.canTx ++ frames }

theorem sendGroup_eq (s : Storage ι) (bus : Fin 2) (j : Fin 4) :
    sendGroup s bus j = .ok (appendTx s (groupFrames s bus j)) := by
  have hempty : appendTx s [] = s := by simp [appendTx]
  by_cases h : s.jointCmdGroupOnlineCnt bus (j.castLE (by decide)) = 0
  · have hframes : groupFrames s bus j = [] := if_neg (not_not.mpr h)
    rw [hframes, hempty]
    fin_cases bus <;> fin_cases j <;> exact if_neg (not_not.mpr h)
  · have hframes : groupFrames s bus j = [groupFrame s bus j] := if_pos h
    rw [hframes]
    fin_cases bus <;> fin_cases j <;> exact if_pos h

/-- One call of `set_can_current` sends `sentFrames` and changes nothing else. -/
theorem setCanCurrent_eq (s : Storage ι) : setCanCurrent s = .ok (appendTx s (sentFrames s)) := by
  have hcat : ∀ xs ys, appendTx (appendTx s xs) ys = appendTx s (xs ++ ys) := by
    simp [appendTx]
  have hgroup : ∀ xs (bus : Fin 2) (j : Fin 4),
      sendGroup (appendTx s xs) bus j = .ok (appendTx s (xs ++ groupFrames s bus j)) := by
    intro xs bus j
    rw [sendGroup_eq, hcat]
    rfl
  have hbus : ∀ xs (bus : Fin 2),
      (List.range 4).foldlM (fun s j => sendGroup s bus j) (appendTx s xs) =
        .ok (appendTx s (xs ++ groupFrames s bus 0 ++ groupFrames s bus 1 ++
          groupFrames s bus 2 ++ groupFrames s bus 3)) := by
    intro xs bus
    have hrange : List.range 4 =
        [((0 : Fin 4) : ℕ), ((1 : Fin 4) : ℕ), ((2 : Fin 4) : ℕ), ((3 : Fin 4) : ℕ)] := rfl
    rw [hrange]
    simp only [List.foldlM_cons, List.foldlM_nil, hgroup, Fallible.ok_bind]
    rfl
  have hrange : List.range 2 = [((0 : Fin 2) : ℕ), ((1 : Fin 2) : ℕ)] := rfl
  have hstart : s = appendTx s [] := by simp [appendTx]
  rw [setCanCurrent]
  rw [hrange]
  nth_rewrite 1 [hstart]
  simp only [List.foldlM_cons, List.foldlM_nil, hbus, Fallible.ok_bind, List.nil_append]
  have hfin : List.finRange 2 = [0, 1] ∧ List.finRange 4 = [0, 1, 2, 3] := ⟨rfl, rfl⟩
  rw [Fallible.pure_eq_ok]
  simp [sentFrames, hfin]

/-- A frame is sent exactly for the groups whose counter is not zero. -/
theorem mem_sentFrames {s : Storage ι} {frame : CanFrame} :
    frame ∈ sentFrames s ↔ ∃ (bus : Fin 2) (j : Fin 4),
      s.jointCmdGroupOnlineCnt bus (j.castLE (by decide)) ≠ 0 ∧ frame = groupFrame s bus j := by
  have hmem : ∀ (bus : Fin 2) (j : Fin 4), frame ∈ groupFrames s bus j ↔
      s.jointCmdGroupOnlineCnt bus (j.castLE (by decide)) ≠ 0 ∧ frame = groupFrame s bus j := by
    intro bus j
    rw [groupFrames]
    split <;> simp_all
  simp [sentFrames, List.mem_flatMap, hmem]

end Transmission

end PartControl

end RmMicroControllers
