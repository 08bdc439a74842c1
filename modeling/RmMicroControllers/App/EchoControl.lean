import RmMicroControllers.App.MotorControl

/-!
# What the buzzer tells

`echoControl` runs beside all other tasks. In every round of its loop it looks at one device
after the other and beeps the id of each that is off-line, and then sounds one or two long tones
for the remote control. Between two looks anything may happen, so every look has a state of its
own.

## Main definitions

- `echoRound` — one round of the loop, over the states that its looks find
- `hear` — what a listener makes of the calls

## Main results

- `heard_of_round` — a listener learns which motors were off-line when they were looked at
-/

namespace RmMicroControllers

open Transition PartControl DeviceMonitor

/-- The calls of `echoControl` that can be heard, seen or waited for. -/
inductive EchoCall where
  | buzzerTrigger (psc pwm : UInt16)
  | pwmStop
  | writePin (set : Bool)
  | osDelay (ticks : UInt32)
  deriving DecidableEq

/-- What `echoControl` has done: its calls, and how often it has looked at the devices. -/
structure Echo where
  calls : List EchoCall := []
  looks : ℕ := 0

namespace Echo

/-- Some calls, one after the other. -/
def emit (x : Echo) (calls : List EchoCall) : Echo := { x with calls := x.calls ++ calls }

/-- A look at the devices. -/
def looked (x : Echo) : Echo := { x with looks := x.looks + 1 }

end Echo

/-- The calls before the loop. -/
def echoStart : Echo :=
  ({} : Echo).emit [.buzzerTrigger 50 900, .osDelay 200, .buzzerTrigger 50 50, .osDelay 200,
    .pwmStop]

/-- The calls that start the report of a device. -/
def deviceBeep : List EchoCall := [.buzzerTrigger 10 50, .osDelay 200, .pwmStop]

/-- The calls of one round of the loop over `i`. -/
def idBeep : List EchoCall :=
  [.buzzerTrigger 20 70, .writePin true, .osDelay 100, .pwmStop, .writePin false, .osDelay 200]

section Task

variable {ι : Type} (world : ℕ → Storage ι)

/-- The loop over `i`, with at most `n` more looks at the id. -/
def echoId (q : JointPtr ι) : ℕ → ℕ → Echo → Echo
  | 0, _, x => x
  | n + 1, i, x =>
    if i ≤ ((world x.looks).joint q).id.toNat then echoId q n (i + 1) (x.looked.emit idBeep)
    else x.looked

/-- The body of the loop over the devices. -/
def echoDevice (bus : Fin 2) (k : ℕ) (x : Echo) : Echo :=
  match ((world x.looks).deviceJoint bus).elems[k]? with
  | none => x
  | some device =>
    if !device.online then echoId world device.ptr 256 1 (x.looked.emit deviceBeep)
    else x.looked

/-- The loop over the `n` devices from position `k` on. -/
def echoDevices (bus : Fin 2) : ℕ → ℕ → Echo → Echo
  | 0, _, x => x
  | n + 1, k, x => echoDevices bus n (k + 1) (echoDevice world bus k x)

/-- The loop over the devices of one bus. -/
def echoBus (bus : Fin 2) (x : Echo) : Echo :=
  echoDevices world bus ((world x.looks).deviceJoint bus).elems.length 0 x

/-- The tones for the remote control. -/
def echoTones (x : Echo) : Echo :=
  let x := x.emit [.buzzerTrigger 20 70, .osDelay 400]
  let x := if !(world x.looks).deviceDbus.online then
      x.looked.emit [.pwmStop, .osDelay 100, .buzzerTrigger 20 70, .osDelay 400]
    else x.looked
  x.emit [.pwmStop]

/-- The report of the remote control. `error` is looked at only after `online` was found set. -/
def echoDbus (x : Echo) : Echo :=
  if !(world x.looks).deviceDbus.online then echoTones world x.looked
  else if (world (x.looks + 1)).deviceDbus.error ≠ .kNormal then
    echoTones world x.looked.looked
  else x.looked.looked

/-- One round of the loop of `echoControl`. -/
def echoRound (x : Echo) : Echo :=
  (echoDbus world (echoBus world 1 (echoBus world 0 x))).emit [.osDelay 5000]

/-- `echoControl`, up to the end of its `n`-th round. -/
def echoControl (n : ℕ) : Echo := (echoRound world)^[n] echoStart

end Task

/-! ### The listener -/

/-- What a listener has counted: the short beeps of each device so far, the newest device
first, and the long tones. -/
structure Heard where
  ids : List ℕ := []
  tones : ℕ := 0

/-- A higher beep announces a device, every flash counts for its id, and a long tone is for the
remote control. -/
def hear (h : Heard) : EchoCall → Heard
  | .buzzerTrigger psc _ => if psc = 10 then { h with ids := 0 :: h.ids } else h
  | .writePin true => { h with ids := h.ids.modifyHead (· + 1) }
  | .osDelay ticks => if ticks = 400 then { h with tones := h.tones + 1 } else h
  | _ => h

/-- What a listener makes of some calls. -/
def listen (calls : List EchoCall) : Heard := calls.foldl hear {}

/-- The tones for the remote control, from the looks at it that begin with `look`. -/
def tonesFor {ι : Type} (world : ℕ → Storage ι) (look : ℕ) : ℕ :=
  let tones (k : ℕ) := if !(world k).deviceDbus.online then 2 else 1
  if !(world look).deviceDbus.online then tones (look + 1)
  else if (world (look + 1)).deviceDbus.error ≠ .kNormal then tones (look + 2)
  else 0

/-- The ids of the motors that were off-line, each in the state of its own look, the last one
first. -/
def offlineIds (world : ℕ → Storage Controller) (seen : List (JointPtr Controller × ℕ)) :
    List ℕ :=
  ((seen.filter fun a => !isOnline (world a.2) a.1).map fun a => (motorId a.1).val).reverse

/-! ### One device -/

/-- The device at a position is the one of the motor there, and shows what `get_online`
answers. -/
theorem Installed.device {s : Storage Controller} (hs : Installed s) {k : ℕ}
    {q : JointPtr Controller} (hk : motors[k]? = some q) :
    ∃ d, (s.deviceJoint 1).elems[k]? = some d ∧ d.ptr = q ∧ d.online = isOnline s q := by
  have hptrs : (s.deviceJoint 1).elems.map (·.ptr) = motors := hs.ptrs 1
  have hnodup : ((s.deviceJoint 1).elems.map (·.ptr)).Nodup := hptrs ▸ (by decide)
  obtain ⟨d, hd, hdq⟩ := Option.map_eq_some_iff.mp
    ((List.getElem?_map ▸ hptrs ▸ hk : ((s.deviceJoint 1).elems[k]?).map (·.ptr) = some q))
  obtain ⟨d', hd', hdq', honline⟩ := hs.getOnline_eq (List.mem_of_getElem? hk)
  obtain rfl := List.inj_on_of_nodup_map hnodup (List.mem_of_getElem? hd) hd'
    (hdq.trans hdq'.symm)
  refine ⟨d, hd, hdq, ?_⟩
  rw [isOnline, honline]
  rfl

section Round

variable {world : ℕ → Storage Controller}

/-- The loop over `i` beeps the id of the motor. -/
theorem echoId_eq (hworld : ∀ k, Installed (world k)) {q : JointPtr Controller}
    (hq : q ∈ motors) (n i : ℕ) (x : Echo) (hi : i ≤ motorId q + 1) (hn : motorId q + 1 < n + i) :
    echoId world q n i x =
      ⟨x.calls ++ (List.replicate (motorId q + 1 - i) idBeep).flatten,
        x.looks + (motorId q + 2 - i)⟩ := by
  induction n generalizing i x with
  | zero => omega
  | succ n ih =>
    rw [echoId, (hworld x.looks).id q hq]
    by_cases hle : i ≤ motorId q
    · rw [if_pos hle, ih _ _ (by omega) (by omega)]
      have hcount : (motorId q : ℕ) + 1 - i = (motorId q + 1 - (i + 1)) + 1 := by omega
      rw [hcount, List.replicate_succ, List.flatten_cons, ← List.append_assoc]
      simp only [Echo.emit, Echo.looked, Echo.mk.injEq, true_and]
      omega
    · have hlast : i = motorId q + 1 := by omega
      rw [if_neg hle, hlast, Nat.sub_self, List.replicate_zero, List.flatten_nil, List.append_nil,
        Echo.looked, Echo.mk.injEq]
      exact ⟨rfl, by omega⟩

theorem hear_idBeeps (n a : ℕ) (ids : List ℕ) (tones : ℕ) :
    (List.replicate n idBeep).flatten.foldl hear ⟨a :: ids, tones⟩ = ⟨(a + n) :: ids, tones⟩ := by
  induction n generalizing a with
  | zero => rfl
  | succ n ih =>
    have hone : idBeep.foldl hear ⟨a :: ids, tones⟩ = ⟨(a + 1) :: ids, tones⟩ := rfl
    rw [List.replicate_succ, List.flatten_cons, List.foldl_append, hone, ih]
    congr 2
    omega

/-- What a part of a round, from `x` to `y`, tells about the motors it looks at. -/
structure Tells (world : ℕ → Storage Controller) (x y : Echo)
    (seen : List (JointPtr Controller × ℕ)) : Prop where
  looks : x.looks ≤ y.looks
  order : seen.Pairwise fun a b => a.2 < b.2
  during : ∀ a ∈ seen, x.looks ≤ a.2 ∧ a.2 < y.looks
  heard : ∃ calls, y.calls = x.calls ++ calls ∧
    ∀ h, calls.foldl hear h = { h with ids := offlineIds world seen ++ h.ids }

theorem Tells.refl (x : Echo) : Tells world x x [] :=
  ⟨le_rfl, .nil, fun a ha => absurd ha List.not_mem_nil, [], by simp, fun h => rfl⟩

theorem Tells.trans {x y z : Echo} {seen seen' : List (JointPtr Controller × ℕ)}
    (h : Tells world x y seen) (h' : Tells world y z seen') :
    Tells world x z (seen ++ seen') := by
  obtain ⟨calls, hcalls, hhear⟩ := h.heard
  obtain ⟨calls', hcalls', hhear'⟩ := h'.heard
  refine ⟨h.looks.trans h'.looks, ?_, ?_, calls ++ calls', ?_, ?_⟩
  · rw [List.pairwise_append]
    exact ⟨h.order, h'.order, fun a ha b hb => (h.during a ha).2.trans_le (h'.during b hb).1⟩
  · intro a ha
    rcases List.mem_append.mp ha with ha | ha
    · exact ⟨(h.during a ha).1, (h.during a ha).2.trans_le h'.looks⟩
    · exact ⟨h.looks.trans (h'.during a ha).1, (h'.during a ha).2⟩
  · rw [hcalls', hcalls, List.append_assoc]
  · intro g
    rw [List.foldl_append, hhear, hhear']
    simp [offlineIds]

/-- One device is reported exactly when it is off-line at the first look. -/
theorem tells_device (hworld : ∀ k, Installed (world k)) {k : ℕ} {q : JointPtr Controller}
    (hk : motors[k]? = some q) (x : Echo) :
    Tells world x (echoDevice world 1 k x) [(q, x.looks)] := by
  obtain ⟨d, hd, hdq, honline⟩ := (hworld x.looks).device hk
  have hbound : (motorId q : ℕ) < 16 := (motorId q).isLt
  rw [echoDevice, hd]
  simp only [honline, hdq]
  cases hon : isOnline (world x.looks) q with
  | true =>
    refine ⟨Nat.le_succ _, List.pairwise_singleton _ _, ?_, [], (List.append_nil _).symm, ?_⟩
    · intro a ha
      obtain rfl := List.mem_singleton.mp ha
      exact ⟨le_rfl, Nat.lt_succ_self _⟩
    · intro h
      simp [offlineIds, hon]
  | false =>
    have hq := List.mem_of_getElem? hk
    rw [Bool.not_false, if_pos rfl, echoId_eq hworld hq _ _ _ (by omega) (by omega)]
    refine ⟨?_, List.pairwise_singleton _ _, ?_,
      deviceBeep ++ (List.replicate (motorId q) idBeep).flatten, ?_, ?_⟩
    · simp only [Echo.emit, Echo.looked]
      omega
    · intro a ha
      obtain rfl := List.mem_singleton.mp ha
      simp only [Echo.emit, Echo.looked]
      omega
    · simp [Echo.emit, Echo.looked]
    · intro h
      have hbeep : deviceBeep.foldl hear h = ⟨0 :: h.ids, h.tones⟩ := rfl
      rw [List.foldl_append, hbeep, hear_idBeeps, Nat.zero_add]
      simp [offlineIds, hon]

/-- The loop over the devices looks at the motors in the order of registration. -/
theorem tells_devices (hworld : ∀ k, Installed (world k)) (n k : ℕ)
    (hlen : k + n = motors.length) (x : Echo) :
    ∃ seen, seen.map (·.1) = motors.drop k ∧
      Tells world x (echoDevices world 1 n k x) seen := by
  induction n generalizing k x with
  | zero =>
    refine ⟨[], ?_, .refl x⟩
    rw [List.drop_eq_nil_of_le (by omega)]
    rfl
  | succ n ih =>
    have hlt : k < motors.length := by omega
    obtain ⟨seen, hseen, htells⟩ := ih (k + 1) (by omega) (echoDevice world 1 k x)
    have hone := tells_device hworld (List.getElem?_eq_getElem hlt) x
    refine ⟨_, ?_, hone.trans htells⟩
    rw [List.map_append, hseen, List.drop_eq_getElem_cons hlt]
    rfl

theorem tells_buses (hworld : ∀ k, Installed (world k)) (x : Echo) :
    ∃ seen, seen.map (·.1) = motors ∧
      Tells world x (echoBus world 1 (echoBus world 0 x)) seen := by
  have hnone : (((world x.looks).deviceJoint 0).elems.map (·.ptr)).length = 0 := by
    rw [(hworld x.looks).ptrs 0]
    rfl
  have hmotors : (((world x.looks).deviceJoint 1).elems.map (·.ptr)).length = motors.length := by
    rw [(hworld x.looks).ptrs 1]
    rfl
  rw [List.length_map] at hnone hmotors
  have hfirst : echoBus world 0 x = x := by
    rw [echoBus, hnone]
    rfl
  rw [hfirst, echoBus, hmotors]
  exact tells_devices hworld motors.length 0 (Nat.zero_add _) x

/-- Two tones are sounded if the receiver is off-line at the next look, and one otherwise. -/
theorem echoTones_eq (x : Echo) : ∃ calls, (echoTones world x).calls = x.calls ++ calls ∧
    x.looks < (echoTones world x).looks ∧
    ∀ h, calls.foldl hear h =
      { h with tones := h.tones + if !(world x.looks).deviceDbus.online then 2 else 1 } := by
  rw [echoTones]
  cases hon : (world x.looks).deviceDbus.online with
  | true =>
    refine ⟨[.buzzerTrigger 20 70, .osDelay 400, .pwmStop], ?_, ?_, fun h => rfl⟩
    · simp [Echo.emit, Echo.looked, hon]
    · simp [Echo.emit, Echo.looked, hon]
  | false =>
    refine ⟨[.buzzerTrigger 20 70, .osDelay 400, .pwmStop, .osDelay 100, .buzzerTrigger 20 70,
      .osDelay 400, .pwmStop], ?_, ?_, fun h => rfl⟩
    · simp [Echo.emit, Echo.looked, hon]
    · simp [Echo.emit, Echo.looked, hon]

/-- The tones follow the looks at the remote control. -/
theorem echoDbus_eq (x : Echo) : ∃ calls, (echoDbus world x).calls = x.calls ++ calls ∧
    x.looks < (echoDbus world x).looks ∧
    ∀ h, calls.foldl hear h = { h with tones := h.tones + tonesFor world x.looks } := by
  rw [echoDbus, tonesFor]
  split
  · obtain ⟨calls, hcalls, hlooks, hhear⟩ := @echoTones_eq world x.looked
    exact ⟨calls, hcalls, (Nat.lt_succ_self _).trans hlooks, hhear⟩
  · by_cases herror : (world (x.looks + 1)).deviceDbus.error ≠ .kNormal
    · rw [if_pos herror, if_pos herror]
      obtain ⟨calls, hcalls, hlooks, hhear⟩ := @echoTones_eq world x.looked.looked
      exact ⟨calls, hcalls, (Nat.lt_add_of_pos_right Nat.two_pos).trans hlooks, hhear⟩
    · rw [if_neg herror, if_neg herror]
      exact ⟨[], (List.append_nil _).symm, Nat.lt_add_of_pos_right Nat.two_pos, fun h => rfl⟩

/-- While the robot runs, a listener to any round hears the ids of exactly the motors that were
off-line when the round looked at them, in the order of registration, and then how the remote
control was. -/
theorem heard_of_round {conv : Conversion}
    (hworld : ∀ k, ∃ es r, Robot.Runs conv es r ∧ r.storage = world k) (n : ℕ) :
    ∃ seen look calls,
      (echoControl world (n + 1)).calls = (echoControl world n).calls ++ calls ∧
      seen.map (·.1) = motors ∧ seen.Pairwise (fun a b => a.2 < b.2) ∧
      (∀ a ∈ seen, (echoControl world n).looks ≤ a.2 ∧ a.2 < look) ∧
      look < (echoControl world (n + 1)).looks ∧
      listen calls = ⟨offlineIds world seen, tonesFor world look⟩ := by
  have hinstalled : ∀ k, Installed (world k) := by
    intro k
    obtain ⟨es, r, hrun, hk⟩ := hworld k
    exact hk ▸ (Robot.ready_of_run hrun).installed
  have hround : echoControl world (n + 1) = echoRound world (echoControl world n) :=
    Function.iterate_succ_apply' _ _ _
  generalize echoControl world n = x at hround
  obtain ⟨seen, hseen, htells⟩ := tells_buses hinstalled x
  obtain ⟨calls, hcalls, hhear⟩ := htells.heard
  obtain ⟨tones, htones, hlook, hhear'⟩ := @echoDbus_eq world
    (echoBus world 1 (echoBus world 0 x))
  refine ⟨seen, _, calls ++ tones ++ [.osDelay 5000], ?_, hseen, htells.order, htells.during, ?_,
    ?_⟩
  · rw [hround, echoRound, Echo.emit, htones, hcalls]
    simp only [List.append_assoc]
  · rw [hround]
    exact hlook
  · rw [listen, List.foldl_append, List.foldl_append, hhear, hhear']
    change Heard.mk (offlineIds world seen ++ []) (0 + _) = _
    rw [List.append_nil, Nat.zero_add]

end Round

/-- The first round when nothing has answered yet. -/
theorem heard_of_round_started : ∃ seen look calls,
    (echoControl (fun _ => started.storage) 1).calls =
      (echoControl (fun _ => started.storage) 0).calls ++ calls ∧
    seen.map (·.1) = motors ∧ seen.Pairwise (fun a b => a.2 < b.2) ∧
    (∀ a ∈ seen, (echoControl (fun _ => started.storage) 0).looks ≤ a.2 ∧ a.2 < look) ∧
    look < (echoControl (fun _ => started.storage) 1).looks ∧
    listen calls = ⟨offlineIds (fun _ => started.storage) seen,
      tonesFor (fun _ => started.storage) look⟩ :=
  @heard_of_round _ .lowBits (fun _ => ⟨[], started, .nil, rfl⟩) 0

end RmMicroControllers
