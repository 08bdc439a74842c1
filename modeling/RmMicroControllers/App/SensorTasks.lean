import RmMicroControllers.App.SensorUnit
import RmMicroControllers.Devices.Ist8310

/-!
# The sensor tasks and their interrupts

`defaultTask` starts two tasks of one shape: initialise a device until that succeeds, and then
wait for a notification and serve it, again and again. `HAL_GPIO_EXTI_Callback` notifies the task
that a pin belongs to, as soon as the handle of the task is stored. Interrupts, the two tasks and
`defaultTask` run in any order.

## Main results

- `served_of_events` — what every task has done for its interrupts, in any order of events
-/

namespace RmMicroControllers

/-- How a sensor task initialises its device, and what it does for a notification. -/
structure SensorDriver (δ : Type) where
  init : δ → UInt8 × δ
  pass : δ → δ

/-- A sensor task: its device, whether its first loop has ended, whether its handle is stored,
and its notification value. -/
structure SensorTask (δ : Type) where
  device : δ
  ready : Bool := false
  handle : Bool := false
  notified : UInt32 := 0

namespace SensorTask

variable {δ : Type}

/-- The condition `handle != NULL` and `vTaskNotifyGiveFromISR`. -/
def notify (t : SensorTask δ) : SensorTask δ :=
  if t.handle then { t with notified := t.notified + 1 } else t

/-- The next piece of a task: an attempt to initialise, or, once `ulTaskNotifyTake` returns, a
pass of the second loop. -/
def advance (d : SensorDriver δ) (t : SensorTask δ) : SensorTask δ :=
  if t.ready then
    if t.notified = 0 then t
    else { t with notified := t.notified - 1, device := d.pass t.device }
  else
    let (error, device) := d.init t.device
    { t with device := device, ready := error = 0 }

end SensorTask

/-- The tasks by the variables that hold their handles: `imu_cmps_handle`, which runs
`sensorPeriodical`, and `imu_handle_2`, which runs `sensorExternInterrupt`. -/
inductive SensorName where
  | imuCmps
  | imu2
  deriving DecidableEq

namespace SensorName

/-- `CMPS_INT_Pin` and `ACCEL_INT_Pin`. -/
def pin : SensorName → UInt16
  | .imuCmps => 0x0008
  | .imu2 => 0x0010

/-- What a task works on: the bus of the magnetometer, or the one of the IMU with the heater. -/
abbrev Device : SensorName → Type
  | .imuCmps => Ist8310.Bus
  | .imu2 => Bmi088.Sent × Heater

end SensorName

/-- `GYRO_INT_Pin`. -/
def gyroIntPin : UInt16 := 0x0020

/-- What happens to the tasks: `osThreadNew` returns, a pin interrupts, a task runs. -/
inductive SensorEvent where
  | created (w : SensorName)
  | exti (pin : UInt16)
  | advance (w : SensorName)

/-- What has happened to a task: interrupts since its handle was stored, attempts to initialise,
and passes of its second loop. -/
structure Tally where
  interrupts : ℕ := 0
  attempts : ℕ := 0
  passes : ℕ := 0

/-- The tasks, with a tally of each. -/
structure Sensors where
  task : (w : SensorName) → SensorTask w.Device
  tally : SensorName → Tally := fun _ => {}

section Tasks

variable (magnetometer imu : ℕ → UInt8) (conv : UnsignedConversion)

/-- `sensorPeriodical` and `sensorExternInterrupt`. -/
def sensorDriver : (w : SensorName) → SensorDriver w.Device
  | .imuCmps =>
    { init := fun bus => (Ist8310.deviceIst8310Init magnetometer).run bus
      pass := fun bus => ((Ist8310.deviceIst8310ReadMagnitude magnetometer).run bus).2 }
  | .imu2 =>
    { init := fun s =>
        let (error, sent) := (Bmi088.deviceBmi088Init imu).run s.1
        (error, (sent, s.2))
      pass := externInterrupt imu conv }

/-- What the tasks start with. -/
def sensorDevice : (w : SensorName) → w.Device
  | .imuCmps => {}
  | .imu2 => ([], {})

namespace Sensors

/-- Before `osThreadNew`. -/
def boot : Sensors := { task := fun w => { device := sensorDevice w } }

/-- Notify a task, and count the interrupt if the task exists. -/
def notify (x : Sensors) (w : SensorName) : Sensors where
  task := Function.update x.task w (x.task w).notify
  tally := if (x.task w).handle then
      Function.update x.tally w
        { x.tally w with interrupts := (x.tally w).interrupts + 1 }
    else x.tally

/-- `HAL_GPIO_EXTI_Callback`. -/
def extiCallback (x : Sensors) (pin : UInt16) : Sensors :=
  if pin = SensorName.imu2.pin then x.notify .imu2
  else if pin = gyroIntPin then x
  else if pin = SensorName.imuCmps.pin then x.notify .imuCmps
  else x

/-- What one piece of a task counts for. -/
def count {δ : Type} (t : SensorTask δ) (n : Tally) : Tally :=
  if t.ready then if t.notified = 0 then n else { n with passes := n.passes + 1 }
  else { n with attempts := n.attempts + 1 }

/-- What one event does. -/
def step (x : Sensors) : SensorEvent → Sensors
  | .created w =>
    { x with task := Function.update x.task w { x.task w with handle := true } }
  | .exti pin => x.extiCallback pin
  | .advance w =>
    { task := Function.update x.task w
        ((x.task w).advance (sensorDriver magnetometer imu conv w))
      tally := Function.update x.tally w (count (x.task w) (x.tally w)) }

/-- The tasks after some events. -/
def after (es : List SensorEvent) : Sensors := es.foldl (step magnetometer imu conv) boot

end Sensors

end Tasks

/-! ### One task -/

section Served

variable {δ : Type} (d : SensorDriver δ) (device : δ)

/-- What the `k`-th attempt to initialise returns. -/
def initError (k : ℕ) : UInt8 := (d.init ((fun s => (d.init s).2)^[k] device)).1

/-- What a task has done for its interrupts: all attempts but the last one have failed, the last
one decides whether it is ready, and every interrupt since its handle was stored is pending or
has led to one pass. -/
structure Served (t : SensorTask δ) (n : Tally) : Prop where
  device_eq : t.device = d.pass^[n.passes] ((fun s => (d.init s).2)^[n.attempts] device)
  error : ∀ k < n.attempts, initError d device k = 0 ↔ t.ready = true ∧ k + 1 = n.attempts
  idle : t.ready = false → n.passes = 0
  unborn : t.handle = false → n.interrupts = 0
  pending : n.interrupts < 4294967296 → n.passes + t.notified.toNat = n.interrupts

variable {d device} {t : SensorTask δ} {n : Tally}

/-- An interrupt is counted with its notification, once the handle is stored. -/
theorem Served.notify (h : Served d device t n) :
    Served d device t.notify
      (if t.handle then { n with interrupts := n.interrupts + 1 } else n) := by
  rw [SensorTask.notify]
  cases hhandle : t.handle with
  | false => exact h
  | true =>
    refine ⟨h.device_eq, h.error, h.idle, fun hno => ?_, fun hlt => ?_⟩
    · cases hno
    · have hlt' : n.interrupts + 1 < 4294967296 := hlt
      have hsum := h.pending (by omega)
      have hone : (1 : UInt32).toNat = 1 := rfl
      simp only [if_true, UInt32.toNat_add, hone]
      omega

/-- A task that is ready takes one notification for one pass, and another one initialises. -/
theorem Served.advance (h : Served d device t n) :
    Served d device (t.advance d) (Sensors.count t n) := by
  rw [SensorTask.advance, Sensors.count]
  cases hready : t.ready with
  | true =>
    by_cases hzero : t.notified = 0
    · rw [if_pos rfl, if_pos hzero, if_pos rfl, if_pos hzero]
      exact h
    · rw [if_pos rfl, if_neg hzero, if_pos rfl, if_neg hzero]
      have herror := h.error
      rw [hready] at herror
      refine ⟨?_, herror, fun hno => ?_, h.unborn, fun hlt => ?_⟩
      · rw [Function.iterate_succ_apply', ← h.device_eq]
      · cases hno
      · have hsum := h.pending hlt
        have hpos : 0 < t.notified.toNat := by
          rw [Nat.pos_iff_ne_zero]
          exact fun hz => hzero (UInt32.toNat_inj.mp hz)
        have hle : (1 : UInt32) ≤ t.notified := UInt32.le_iff_toNat_le.mpr hpos
        have hone : (1 : UInt32).toNat = 1 := rfl
        simp only [UInt32.toNat_sub_of_le _ _ hle, hone]
        omega
  | false =>
    have hpasses := h.idle hready
    have hdevice : t.device = (fun s => (d.init s).2)^[n.attempts] device := by
      rw [h.device_eq, hpasses]
      rfl
    have hcode : initError d device n.attempts = (d.init t.device).1 := by
      rw [initError, ← hdevice]
    refine ⟨?_, fun k hk => ?_, fun _ => hpasses, h.unborn, h.pending⟩
    · rw [if_neg (by decide), if_neg (by decide), hpasses, Function.iterate_succ_apply', ← hdevice]
      rfl
    · rw [if_neg (by decide)] at hk ⊢
      rcases Nat.lt_succ_iff_lt_or_eq.mp hk with hk | rfl
      · -- an earlier attempt, which failed
        have hearlier := h.error k hk
        rw [hready] at hearlier
        exact iff_of_false (fun hz => absurd (hearlier.mp hz).1 (by decide)) fun heq => by
          have : k + 1 = n.attempts + 1 := heq.2
          omega
      · rw [hcode]
        exact ⟨fun hz => ⟨decide_eq_true hz, rfl⟩, fun heq => of_decide_eq_true heq.1⟩

end Served

/-! ### All tasks -/

section Tasks

variable (magnetometer imu : ℕ → UInt8) (conv : UnsignedConversion)

/-- Every task has done what its tally says. -/
def AllServed (x : Sensors) : Prop :=
  ∀ w, Served (sensorDriver magnetometer imu conv w) (sensorDevice w) (x.task w) (x.tally w)

variable {magnetometer imu conv}

/-- What one task does leaves the others as they are. -/
theorem AllServed.update {x : Sensors} (h : AllServed magnetometer imu conv x) (w : SensorName)
    {t : SensorTask w.Device} {n : Tally}
    (ht : Served (sensorDriver magnetometer imu conv w) (sensorDevice w) t n) :
    AllServed magnetometer imu conv
      ⟨Function.update x.task w t, Function.update x.tally w n⟩ := by
  intro v
  by_cases hv : v = w
  · subst hv
    simp only [Function.update_self]
    exact ht
  · simp only [Function.update_of_ne hv]
    exact h v

theorem AllServed.notify {x : Sensors} (h : AllServed magnetometer imu conv x)
    (w : SensorName) : AllServed magnetometer imu conv (x.notify w) := by
  have hone := h.update w (h w).notify
  rw [Sensors.notify]
  split
  · next hhandle =>
    rw [if_pos hhandle] at hone
    exact hone
  · next hhandle =>
    rw [if_neg hhandle, Function.update_eq_self] at hone
    exact hone

/-- Every event keeps the tallies of all tasks. -/
theorem AllServed.step {x : Sensors} (h : AllServed magnetometer imu conv x) (e : SensorEvent) :
    AllServed magnetometer imu conv (x.step magnetometer imu conv e) := by
  cases e with
  | created w =>
    have hone := h.update w (t := { x.task w with handle := true }) (n := x.tally w)
      ⟨(h w).device_eq, (h w).error, (h w).idle, fun hno => Bool.noConfusion hno, (h w).pending⟩
    rw [Function.update_eq_self] at hone
    exact hone
  | exti pin =>
    change AllServed magnetometer imu conv (x.extiCallback pin)
    rw [Sensors.extiCallback]
    split
    · exact h.notify .imu2
    · split
      · exact h
      · split
        · exact h.notify .imuCmps
        · exact h
  | advance w => exact h.update w (h w).advance

variable (magnetometer imu conv)

theorem allServed_boot : AllServed magnetometer imu conv Sensors.boot := fun _ =>
  ⟨rfl, fun _ hk => absurd hk (Nat.not_lt_zero _), fun _ => rfl, fun _ => rfl, fun _ => rfl⟩

/-- The tallies hold after any events from the start. -/
theorem allServed_after (es : List SensorEvent) :
    AllServed magnetometer imu conv (Sensors.after magnetometer imu conv es) := by
  induction es using List.reverseRecOn with
  | nil => exact allServed_boot magnetometer imu conv
  | append_singleton es e ih =>
    rw [Sensors.after, List.foldl_append]
    exact ih.step e

/-- Initialising the IMU does not touch the heater. -/
theorem heater_init (k : ℕ) (s : SensorName.imu2.Device) :
    ((fun s => ((sensorDriver magnetometer imu conv .imu2).init s).2)^[k] s).2 = s.2 := by
  induction k with
  | zero => rfl
  | succ k ih =>
    rw [Function.iterate_succ_apply']
    exact ih

/-- In whatever order interrupts, the tasks and `defaultTask` run, both tasks initialise until
that succeeds and then serve every interrupt once: it is pending, or has led to one pass. So the
heater has run over one temperature for each pass, the first one right after initialisation. -/
theorem served_of_events (es : List SensorEvent) :
    AllServed magnetometer imu conv (Sensors.after magnetometer imu conv es) ∧
      ∃ p, ((Sensors.after magnetometer imu conv es).task .imu2).device.2 =
        heats conv {} ((List.range
          ((Sensors.after magnetometer imu conv es).tally .imu2).passes).map (rawAt imu p)) := by
  have hall := allServed_after magnetometer imu conv es
  refine ⟨hall, ?_⟩
  have hdevice := (hall .imu2).device_eq
  have hpass := @externInterrupts_heater imu conv
    ((Sensors.after magnetometer imu conv es).tally .imu2).passes
    ((fun s => ((sensorDriver magnetometer imu conv .imu2).init s).2)^[
      ((Sensors.after magnetometer imu conv es).tally .imu2).attempts] (sensorDevice .imu2))
  rw [heater_init] at hpass
  exact ⟨_, (congrArg Prod.snd hdevice).trans hpass⟩

end Tasks

end RmMicroControllers
