import RmMicroControllers.App.Buses
import RmMicroControllers.App.CommandBus

/-!
# The robot never stops

A call fails where an index leaves its array, where `freertosErrorHandler` is reached or where a
status has moved. None of this happens on the robot's own bus, in whatever order the interrupts,
the monitor's task and the motor task run. Only a frame from another bus stops it.

## Main results

- `step_ok_iff` — which calls return, after any run
- `runs_iff` — which sequences of calls are runs
-/

namespace RmMicroControllers

open Transition DeviceMonitor PartControl Fallible

/-! ### The monitor's task -/

section Monitor

variable {ι : Type} [DecidableEq ι]

/-- An access outside the on-line counters. -/
def OutsideCounters (e : Fault) : Prop := ∃ i, e = .outOfBounds .jointCmdGroupOnlineCnt i

omit [DecidableEq ι] in
theorem outsideCounters_setOnlineCnt (s : Storage ι) (canNum id change : UInt8) :
    ErrorsIn OutsideCounters (setOnlineCnt s canNum id change) := by
  have hindex : ∀ n i, ErrorsIn OutsideCounters (index .jointCmdGroupOnlineCnt n i) := by
    intro n i
    rw [index]
    split
    · exact .ok _
    · exact errorsIn_error.mpr ⟨i, rfl⟩
  exact (hindex _ _).bind fun _ _ => (hindex _ _).bind fun _ _ => .pure _

theorem outsideCounters_updateDevices (ds : List (JointDevice ι)) (s : Storage ι) :
    ErrorsIn OutsideCounters (updateDevices ds s) := by
  induction ds generalizing s with
  | nil => exact .pure _
  | cons d ds ih =>
    have hone : ErrorsIn OutsideCounters (updateDevice s.tick d s) := by
      rw [updateDevice]
      split
      · exact (outsideCounters_setOnlineCnt _ _ _ _).bind fun _ _ => .pure _
      · exact .pure _
    exact hone.bind fun _ _ => (ih _).bind fun _ _ => .pure _

/-- Only the counters can be missed, and with one bus they are not. -/
theorem updateToController_ok {s : Storage ι} (hc : s.config.OneBus) :
    ∃ t, updateToController s = .ok t := by
  cases h : updateToController s with
  | ok t => exact ⟨t, rfl⟩
  | error e =>
    have hcounters : ErrorsIn OutsideCounters (updateToController s) := by
      refine ErrorsIn.foldlM (I := fun _ => True) (fun u bus _ _ => ⟨?_, fun _ _ => trivial⟩)
        trivial
      exact (outsideCounters_updateDevices _ _).bind fun _ _ => .pure _
    obtain ⟨i, rfl⟩ := hcounters e h
    exact absurd rfl (inArrays_updateToController hc _ h).2.2

end Monitor

namespace Robot

variable {conv : Conversion} {r t : Robot} {es : List RobotEvent}

/-- A call that is not for a frame from another bus than HCAN1. -/
def OnHcan1Only : RobotEvent → Prop
  | .canRx hcan _ _ => hcan = .hcan1
  | _ => True

theorem onStorage_ok_iff (r : Robot) (e : Event Controller) :
    (∃ t, r.onStorage e = .ok t) ↔ ∃ s, RmMicroControllers.step r.storage e = .ok s := by
  constructor
  · rintro ⟨t, ht⟩
    obtain ⟨s, hs, _⟩ := bind_eq_ok.mp ht
    exact ⟨s, hs⟩
  · rintro ⟨s, hs⟩
    exact ⟨{ r with storage := s }, by rw [onStorage, hs]; rfl⟩

theorem canRx_ok_iff (s : Storage Controller) (hcan : Can) (stdId : UInt32) (rxData : CanData) :
    (∃ t, RmMicroControllers.step s (.canRx hcan stdId rxData) = .ok t) ↔ hcan = .hcan1 := by
  constructor
  · rintro ⟨t, ht⟩
    cases hcan with
    | hcan1 => rfl
    | hcan2 => cases ht
    | other => cases ht
  · rintro rfl
    exact ⟨_, rfl⟩

/-- After any run, every call returns but the callback for a frame from another bus. -/
theorem step_ok_iff (hrun : Runs conv es r) (e : RobotEvent) :
    (∃ t, r.step conv e = .ok t) ↔ OnHcan1Only e := by
  have hr := ready_of_run hrun
  cases e with
  | tick => exact iff_of_true ((r.onStorage_ok_iff _).mpr ⟨_, rfl⟩) trivial
  | canRx hcan stdId rxData =>
    exact (r.onStorage_ok_iff _).trans (canRx_ok_iff r.storage hcan stdId rxData)
  | dbusRx rxData => exact iff_of_true ((r.onStorage_ok_iff _).mpr ⟨_, rfl⟩) trivial
  | updateToController =>
    obtain ⟨_, hc⟩ := counted_of_robot_run hrun
    exact iff_of_true ((r.onStorage_ok_iff _).mpr (updateToController_ok hc.oneBus)) trivial
  | update p =>
    obtain ⟨t, ht, _⟩ := r.update_eq hr conv p
    exact iff_of_true ⟨_, ht⟩ trivial
  | setCanCurrent =>
    exact iff_of_true ((r.onStorage_ok_iff _).mpr ⟨_, setCanCurrent_eq r.storage⟩) trivial

end Robot

end RmMicroControllers
