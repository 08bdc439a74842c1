import RmMicroControllers.App.ChassisControl
import RmMicroControllers.App.ExtraControl
import RmMicroControllers.App.GimbalControl

/-!
# The motor task

`motorControl` registers the joints of all controllers and then updates one controller after
the other. Between its calls any interrupt and the monitor's task may run, so a run of the
robot is any list of such calls after `on_init`.

## Main definitions

- `Robot`, `Robot.step` — the storage with the three controllers, and what one call does
- `started` — what the three `on_init` leave
-/

namespace RmMicroControllers

open Transition DeviceMonitor PartControl

/-- The static storage with the members of the three controllers. -/
structure Robot where
  storage : Storage Controller
  chassis : ChassisControl := {}
  gimbal : GimbalControl := {}
  bullet : ExtraControl := {}

/-- The calls of a run: interrupts, the monitor's task, and the calls of the motor task. -/
inductive RobotEvent where
  | tick
  | canRx (hcan : Can) (stdId : UInt32) (rxData : CanData)
  | dbusRx (rxData : DbusFrame)
  | updateToController
  | update (p : Controller)
  | setCanCurrent

namespace Robot

/-- A call that knows nothing of the controllers. -/
def onStorage (r : Robot) (e : Event Controller) : Except Fault Robot := do
  return { r with storage := ← RmMicroControllers.step r.storage e }

/-- The `update` of one controller. -/
def update (conv : Conversion) (r : Robot) : Controller → Except Fault Robot
  | .chassis => do
    let (c, s) ← r.chassis.update conv r.storage
    return { r with chassis := c, storage := s }
  | .gimbal => do
    let (g, s) ← r.gimbal.update conv r.storage
    return { r with gimbal := g, storage := s }
  | .bullet => do
    let (b, s) ← r.bullet.update conv r.storage
    return { r with bullet := b, storage := s }

/-- What one call does. -/
def step (conv : Conversion) (r : Robot) : RobotEvent → Except Fault Robot
  | .tick => r.onStorage .tick
  | .canRx hcan stdId rxData => r.onStorage (.canRx hcan stdId rxData)
  | .dbusRx rxData => r.onStorage (.dbusRx rxData)
  | .updateToController => r.onStorage .updateToController
  | .update p => r.update conv p
  | .setCanCurrent => r.onStorage .setCanCurrent

/-- The calls of one iteration of the loop of `motorControl`. -/
def controlCycle : List RobotEvent :=
  [.update .chassis, .update .gimbal, .update .bullet, .setCanCurrent]

/-- The calls that the motor task itself makes. -/
def isMotorCall : RobotEvent → Bool
  | .update _ => true
  | .setCanCurrent => true
  | _ => false

/-- One iteration of the loop, with anything that interrupts and the monitor's task do between
its calls. -/
def Iteration (es : List RobotEvent) : Prop := es.filter isMotorCall = controlCycle

end Robot

/-- What `motorControl` does before its loop. -/
def motorInit : Except Fault Robot := do
  let s := boot fun _ => .other
  let (chassis, s) ← ChassisControl.onInit {} s
  let (gimbal, s) ← GimbalControl.onInit {} s
  let (bullet, s) ← ExtraControl.onInit {} s
  return { storage := s, chassis := chassis, gimbal := gimbal, bullet := bullet }

/-- The robot when the loop of `motorControl` starts. -/
def started : Robot := motorInit.toOption.getD { storage := boot fun _ => .other }

/-- The runs of the robot. -/
abbrev Robot.Runs (conv : Conversion) (es : List RobotEvent) (r : Robot) : Prop :=
  Run (ofExcept (Robot.step conv)) started es r

/-- A frame of the remote control with centred sticks and both switches at 1: the left one in
    the OFF position, the right one starting the bullet motors. -/
def centredFrame : DbusFrame :=
  ![0, 4, 32, 0, 1, 88, 0, 0, 0, 0, 0, 0, 0, 0, 0, 0, 0, 4]

/-! ### What `on_init` leaves -/

theorem motorInit_eq : motorInit = .ok started := by
  have h : motorInit.toOption.isSome = true := by decide +kernel
  rw [started]
  cases hinit : motorInit with
  | error f => rw [hinit] at h; cases h
  | ok r => rfl

theorem JointCoeff.ext_of {a b : JointCoeff} (hpid : ∀ k, a.pid k = b.pid k)
    (hangle : ∀ k, a.angleLimit k = b.angleLimit k)
    (hcurrent : ∀ k, a.currentLimit k = b.currentLimit k) : a = b := by
  cases a
  cases b
  simp only [JointCoeff.mk.injEq]
  exact ⟨funext hpid, funext hangle, funext hcurrent⟩

/-- The registration of the started robot. -/
theorem installed_started : Installed started.storage := by
  have hids : ∀ q ∈ motors, (started.storage.joint q).id.toNat = motorId q ∧
      (started.storage.joint q).headTarget = gCanHeadTarget ((motorId q).castLE (by decide)) := by
    decide +kernel
  have hcoeff : ∀ q ∈ motors,
      (∀ k, (started.storage.joint q).coeff.pid k = (motorCoeff q).pid k) ∧
      (∀ k, (started.storage.joint q).coeff.angleLimit k = (motorCoeff q).angleLimit k) ∧
      (∀ k, (started.storage.joint q).coeff.currentLimit k = (motorCoeff q).currentLimit k) := by
    decide +kernel
  have hptrs : ∀ bus, (started.storage.deviceJoint bus).elems.map (·.ptr) =
      if bus = 1 then motors else [] := by
    decide +kernel
  have hdict : ∀ q ∈ motors, started.storage.deviceDict.lookup q =
      some ⟨1, (started.storage.deviceJoint 1).generation, motors.idxOf q⟩ := by
    decide +kernel
  refine ⟨fun p => ?_, fun p => ?_, fun q hq => ?_, fun q hq => (hids q hq).1,
    fun q hq => (hids q hq).2, hptrs, hdict⟩
  · cases p <;> decide +kernel
  · cases p <;> decide +kernel
  · obtain ⟨hpid, hangle, hcurrent⟩ := hcoeff q hq
    exact JointCoeff.ext_of hpid hangle hcurrent

/-- Nothing has been measured or commanded yet. -/
theorem fresh_started (q : JointPtr Controller) :
    (∀ k, (started.storage.joint q).pidCalc k = {}) ∧
      (∀ k, (started.storage.joint q).feedback k = {}) ∧
      (started.storage.joint q).target = {} := by
  obtain ⟨p, i⟩ := q
  revert i
  cases p <;> decide +kernel

theorem jointTarget_started : ∀ bus id, started.storage.jointTarget bus id = {} := by
  decide +kernel

theorem canTx_started : started.storage.canTx = [] := by decide +kernel

/-- The speed loops of all motors have an integral part, no derivative part and no limit. -/
theorem motorCoeff_speed : ∀ q ∈ motors, ((motorCoeff q).pid 0).ki ≠ 0 ∧
    ((motorCoeff q).pid 0).kd = 0 ∧ ((motorCoeff q).pid 0).kLimit = 0 ∧
      0 ≤ ((motorCoeff q).pid 0).kiLimit := by
  decide +kernel

/-! ### One call of a robot that is ready -/

/-- The storage event of a call that is no `update`. -/
def RobotEvent.storageEvent : RobotEvent → Option (Event Controller)
  | .tick => some .tick
  | .canRx hcan stdId rxData => some (.canRx hcan stdId rxData)
  | .dbusRx rxData => some (.dbusRx rxData)
  | .updateToController => some .updateToController
  | .update _ => none
  | .setCanCurrent => some .setCanCurrent

theorem RobotEvent.storageEvent_ne_jointAdd {e : RobotEvent} {e' : Event Controller}
    (h : RobotEvent.storageEvent e = some e') (p : Controller) (jointType : JointType)
    (id : UInt8) (coeff : JointCoeff) : e' ≠ .jointAdd p jointType id coeff := by
  rintro rfl
  cases e <;> simp [RobotEvent.storageEvent] at h

namespace Robot

/-- The registration, and the numbers under which the controllers know their joints. -/
structure Ready (r : Robot) : Prop where
  installed : Installed r.storage
  singleSub : r.chassis.singleSub = 0
  pitchSub : r.gimbal.pitchSub = 0
  yawSub : r.gimbal.yawSub = 1

theorem ready_started : Ready started :=
  ⟨installed_started, by decide +kernel, by decide +kernel, by decide +kernel⟩

/-- What the `update` of a controller does to its joints. -/
def jointLaw (conv : Conversion) (r : Robot) : Controller → Fin 6 → JointData → JointData
  | .chassis => fun _ => ChassisControl.jointLaw conv r.storage
  | .gimbal => GimbalControl.jointLaw conv r.gimbal r.storage
  | .bullet => ExtraControl.jointLaw conv r.bullet r.storage

/-- What the `update` of a controller does to its own members. -/
def withMembers (r : Robot) : Controller → Robot
  | .chassis => { r with chassis := { r.chassis with lastMode := r.chassis.mode } }
  | .gimbal =>
    { r with
      gimbal := (r.gimbal.withMode r.storage).updateCalibration r.storage
        (r.gimbal.modeChanged r.storage) }
  | .bullet => { r with bullet := r.bullet.withMode r.storage }

theorem jointLaw_fixed (conv : Conversion) (r : Robot) (p : Controller) (i : Fin 6)
    (j : JointData) : (r.jointLaw conv p i j).fixed = j.fixed := by
  cases p with
  | chassis => exact ChassisControl.jointLaw_fixed conv r.storage j
  | gimbal => exact GimbalControl.jointLaw_fixed conv r.gimbal r.storage i j
  | bullet => exact ExtraControl.jointLaw_fixed conv r.bullet r.storage i j

/-- The `update` of a controller always returns, and this is all it does. -/
theorem update_eq {r : Robot} (hr : Ready r) (conv : Conversion) (p : Controller) :
    ∃ t, r.update conv p = .ok { r.withMembers p with storage := t } ∧
      Updated r.storage p (r.jointLaw conv p) t := by
  cases p with
  | chassis =>
    obtain ⟨t, ht, hupd⟩ := ChassisControl.update_eq hr.installed hr.singleSub conv
    exact ⟨t, by rw [update, ht]; rfl, hupd⟩
  | gimbal =>
    obtain ⟨t, ht, hupd⟩ := GimbalControl.update_eq hr.installed hr.pitchSub hr.yawSub conv
    exact ⟨t, by rw [update, ht]; rfl, hupd⟩
  | bullet =>
    obtain ⟨t, ht, hupd⟩ := ExtraControl.update_eq hr.installed r.bullet conv
    exact ⟨t, by rw [update, ht]; rfl, hupd⟩

theorem update_eq_ok {r t : Robot} (hr : Ready r) {conv : Conversion} {p : Controller}
    (h : r.update conv p = .ok t) :
    t = { r.withMembers p with storage := t.storage } ∧
      Updated r.storage p (r.jointLaw conv p) t.storage := by
  obtain ⟨u, hu, hupd⟩ := r.update_eq hr conv p
  obtain rfl := Except.ok.inj (hu.symm.trans h)
  exact ⟨rfl, hupd⟩

/-- A call is the `update` of a controller or knows nothing of the controllers. -/
theorem step_eq_ok {conv : Conversion} {r t : Robot} {e : RobotEvent}
    (h : r.step conv e = .ok t) :
    (∃ p, e = .update p ∧ r.update conv p = .ok t) ∨
      ∃ e', RobotEvent.storageEvent e = some e' ∧
        RmMicroControllers.step r.storage e' = .ok t.storage ∧
        t = { r with storage := t.storage } := by
  have honStorage : ∀ e', r.onStorage e' = .ok t →
      RmMicroControllers.step r.storage e' = .ok t.storage ∧
        t = { r with storage := t.storage } := by
    intro e' h
    obtain ⟨s, hs, h⟩ := Fallible.bind_eq_ok.mp h
    obtain rfl := Fallible.pure_eq_ok.mp h
    exact ⟨hs, rfl⟩
  cases e with
  | update p => exact .inl ⟨p, rfl, h⟩
  | tick => exact .inr ⟨_, rfl, honStorage _ h⟩
  | canRx hcan stdId rxData => exact .inr ⟨_, rfl, honStorage _ h⟩
  | dbusRx rxData => exact .inr ⟨_, rfl, honStorage _ h⟩
  | updateToController => exact .inr ⟨_, rfl, honStorage _ h⟩
  | setCanCurrent => exact .inr ⟨_, rfl, honStorage _ h⟩

/-- What interrupts, the monitor's task and a transmission do to the storage. -/
structure StorageFrame (s t : Storage Controller) : Prop where
  joint : ∀ q, ∃ feedback, t.joint q = { s.joint q with feedback := feedback }
  jointTarget : t.jointTarget = s.jointTarget
  canTx : ∃ frames, t.canTx = s.canTx ++ frames ∧ ∀ f ∈ frames, f ∈ PartControl.sentFrames s
  dbus : t.deviceDbus.data = s.deviceDbus.data ∨
    ∃ rxData, t.deviceDbus.data = (dbusUpdate s rxData).2.deviceDbus.data

theorem storageEvent_frame {e : RobotEvent} {e' : Event Controller} {s t : Storage Controller}
    (he : e.storageEvent = some e') (h : RmMicroControllers.step s e' = .ok t) :
    StorageFrame s t := by
  have hsame : ∀ {u : Storage Controller}, u.canTx = s.canTx → ∃ frames,
      u.canTx = s.canTx ++ frames ∧ ∀ f ∈ frames, f ∈ PartControl.sentFrames s :=
    fun hu => ⟨[], by rw [hu, List.append_nil], fun f hf => by cases hf⟩
  cases e with
  | tick =>
    obtain rfl := Option.some.inj he
    obtain rfl := Fallible.pure_eq_ok.mp h
    exact ⟨fun q => ⟨_, rfl⟩, rfl, hsame rfl, .inl rfl⟩
  | canRx hcan stdId rxData =>
    obtain rfl := Option.some.inj he
    obtain ⟨bus, -, rfl⟩ := jointUpdate_of_step h
    exact ⟨fun q => ⟨_, rfl⟩, rfl, hsame rfl, .inl rfl⟩
  | dbusRx rxData =>
    obtain rfl := Option.some.inj he
    obtain rfl := Fallible.pure_eq_ok.mp h
    obtain ⟨data, error, hs⟩ := dbusUpdate_eq s rxData
    exact ⟨fun q => ⟨(s.joint q).feedback, by rw [hs]; rfl⟩, by rw [hs], hsame (by rw [hs]),
      .inr ⟨rxData, rfl⟩⟩
  | updateToController =>
    obtain rfl := Option.some.inj he
    have hpass := updateToController_pass h
    exact ⟨hpass.joint, hpass.jointTarget, hsame hpass.canTx, .inl (by rw [hpass.deviceDbus]; rfl)⟩
  | update p => cases he
  | setCanCurrent =>
    obtain rfl := Option.some.inj he
    obtain rfl := setCanCurrent_of_step h
    exact ⟨fun q => ⟨_, rfl⟩, rfl, ⟨_, rfl, fun f hf => hf⟩, .inl rfl⟩

/-- No call changes the registration. -/
theorem ready_step {conv : Conversion} {r t : Robot} {e : RobotEvent} (hr : Ready r)
    (h : r.step conv e = .ok t) : Ready t := by
  rcases step_eq_ok h with ⟨p, rfl, hupd⟩ | ⟨e', he, hs, ht⟩
  · obtain ⟨ht, hupd⟩ := update_eq_ok hr hupd
    have hinst := hr.installed.congr (hupd.config (r.jointLaw_fixed conv p))
    rw [ht]
    cases p with
    | chassis => exact ⟨hinst, hr.singleSub, hr.pitchSub, hr.yawSub⟩
    | gimbal =>
      refine ⟨hinst, hr.singleSub, ?_, ?_⟩
      · exact (GimbalControl.updateCalibration_subs _ _ _).1.trans hr.pitchSub
      · exact (GimbalControl.updateCalibration_subs _ _ _).2.trans hr.yawSub
    | bullet => exact ⟨hinst, hr.singleSub, hr.pitchSub, hr.yawSub⟩
  · have hconfig := step_config hs (RobotEvent.storageEvent_ne_jointAdd he)
    rw [ht]
    exact ⟨hr.installed.congr hconfig, hr.singleSub, hr.pitchSub, hr.yawSub⟩

theorem ready_of_run {conv : Conversion} {es : List RobotEvent} {r : Robot}
    (h : Runs conv es r) : Ready r :=
  h.invariant (fun _ _ _ => ready_step) ready_started

end Robot

end RmMicroControllers
