import Mathlib.Data.Fin.Tuple.Basic
import Mathlib.Data.Fin.VecNotation
import Mathlib.Data.Fintype.Basic
import RmMicroControllers.Library.Fallible
import RmMicroControllers.Library.Truncation

/-!
# Joint data

The records of `pid.h` and `joint_struct.h`, with the fields that the control path reads or
writes. A `double` is an exact rational; the fixed-width integers are Lean's own.

## Main definitions

- `Conversion` — what the target does with a `double` converted to `int16_t`
- `CtrlInfo`, `JointCoeff`, `JointData` — one motor, its coefficients and its last feedback
-/

namespace RmMicroControllers

open Truncation (truncate)

/-- The integers that an `int16_t` can hold. -/
def FitsInt16 (z : ℤ) : Prop := -32768 ≤ z ∧ z ≤ 32767

instance (z : ℤ) : Decidable (FitsInt16 z) := inferInstanceAs (Decidable (_ ∧ _))

theorem FitsInt16.toInt (x : Int16) : FitsInt16 x.toInt := by
  have h₁ := x.le_toInt
  have h₂ := x.toInt_lt
  exact ⟨h₁, by omega⟩

/-- The conversion of a `double` to `int16_t`. The language fixes its result when the
    truncated value fits and leaves every other conversion undefined, so nothing is assumed
    about those. -/
structure Conversion where
  toInt16 : ℚ → Int16
  toInt16_of_fits : ∀ x, FitsInt16 (truncate x) → (toInt16 x).toInt = truncate x

theorem Conversion.toInt16_zero (conv : Conversion) : conv.toInt16 0 = 0 := by
  have hfit := conv.toInt16_of_fits 0 (by simp [FitsInt16])
  exact Int16.toInt_inj.mp (hfit.trans (by simp))

/-- The conversion that keeps the low sixteen bits of the truncated value. -/
def Conversion.lowBits : Conversion where
  toInt16 x := Int16.ofInt (truncate x)
  toInt16_of_fits x hx := by
    obtain ⟨h₁, h₂⟩ := hx
    rw [Int16.toInt_ofInt]
    exact Int.bmod_eq_of_le (by simpa using h₁) (by simp only [Int16.size]; omega)

/-- `PidCoeff`. A limit of 0 means no limit; `frequency` is reserved and nothing reads it. -/
structure PidCoeff where
  kp : ℚ := 0
  ki : ℚ := 0
  kd : ℚ := 0
  kiLimit : ℚ := 0
  kLimit : ℚ := 0
  deriving DecidableEq

/-- `PidInfo`, less the `tick` array that nothing reads. -/
structure PidInfo where
  feed : ℚ := 0
  cmd : ℚ := 0
  error : Fin 3 → ℚ := fun _ => 0
  pOut : ℚ := 0
  iOut : ℚ := 0
  dOut : ℚ := 0
  out : ℚ := 0
  deriving DecidableEq

/-- `JointData::CtrlInfo`: what a motor reports, and what it is told. -/
structure CtrlInfo where
  angle : Int16 := 0
  speed : Int16 := 0
  current : Int16 := 0
  temperature : Int8 := 0
  deriving DecidableEq

/-- `JointCoeff`, less the unit conversion factors and the speed limits that nothing reads. -/
structure JointCoeff where
  pid : Fin 2 → PidCoeff
  angleLimit : Fin 2 → Int16
  currentLimit : Fin 2 → Int16
  deriving DecidableEq

/-- `JointData`: one motor of a controller. -/
structure JointData where
  coeff : JointCoeff := ⟨fun _ => {}, fun _ => 0, fun _ => 0⟩
  canNum : UInt8 := 0
  id : UInt8 := 0
  headTarget : UInt32 := 0
  headFeedback : UInt32 := 0
  pidCalc : Fin 2 → PidInfo := fun _ => {}
  feedback : Fin 5 → CtrlInfo := fun _ => {}
  target : CtrlInfo := {}
  deriving DecidableEq

/-- `JointType`. -/
inductive JointType where
  | kRM3508
  | kRM2006
  | kRM6020
  deriving DecidableEq

namespace JointData

/-- `PartControl::get_mean_speed`: the sum is an `int`, which five `int16_t` cannot
    overflow. -/
def getMeanSpeed (j : JointData) : ℚ :=
  ((j.feedback 0).speed.toInt + (j.feedback 1).speed.toInt + (j.feedback 2).speed.toInt +
    (j.feedback 3).speed.toInt + (j.feedback 4).speed.toInt : ℤ) / 5

/-- The two `memmove`s of `DeviceMonitor::update_to_controller`: the oldest of the five
    snapshots is dropped and the newest put in front. -/
def pushFeedback (j : JointData) (info : CtrlInfo) : JointData :=
  { j with feedback := Fin.cons info fun k => j.feedback k.castSucc }

/-- `target.angle = angle`. -/
def setTargetAngle (j : JointData) (angle : Int16) : JointData :=
  { j with target.angle := angle }

/-- `target.speed = speed`. -/
def setTargetSpeed (j : JointData) (speed : Int16) : JointData :=
  { j with target.speed := speed }

/-- `target.current = current`. -/
def setTargetCurrent (j : JointData) (current : Int16) : JointData :=
  { j with target.current := current }

@[simp] theorem pushFeedback_coeff (j : JointData) (info : CtrlInfo) :
    (j.pushFeedback info).coeff = j.coeff := rfl

@[simp] theorem pushFeedback_canNum (j : JointData) (info : CtrlInfo) :
    (j.pushFeedback info).canNum = j.canNum := rfl

@[simp] theorem pushFeedback_id (j : JointData) (info : CtrlInfo) :
    (j.pushFeedback info).id = j.id := rfl

@[simp] theorem pushFeedback_headTarget (j : JointData) (info : CtrlInfo) :
    (j.pushFeedback info).headTarget = j.headTarget := rfl

@[simp] theorem pushFeedback_headFeedback (j : JointData) (info : CtrlInfo) :
    (j.pushFeedback info).headFeedback = j.headFeedback := rfl

@[simp] theorem pushFeedback_pidCalc (j : JointData) (info : CtrlInfo) :
    (j.pushFeedback info).pidCalc = j.pidCalc := rfl

@[simp] theorem pushFeedback_target (j : JointData) (info : CtrlInfo) :
    (j.pushFeedback info).target = j.target := rfl

end JointData

end RmMicroControllers
