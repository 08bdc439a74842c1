import RmMicroControllers.Devices.Bmi088SelfTest

/-!
# What BMI088 initialisation reports

The two `init` functions find the code of the step at which they stop, and return it through
`bool`: of every code there remains 1.

## Main results

- `initCode_run` — an `init` as written succeeds or returns the code of its step
- `deviceBmi088Init_reports_iff` — when the result is 0, and when it is the code of the step
-/

namespace RmMicroControllers

namespace Bmi088

section Runs

variable (answers : ℕ → UInt8)

/-! ### The two `init` functions -/

/-- What an `init` whose bytes start at `p` looks for: the identity, and every register. -/
def Configured (chip : Chip) (chipIdValue : UInt8) (rows : List RegDataError) (p : ℕ) : Prop :=
  Identifies answers chip chipIdValue p ∧ AllReadBack answers chip rows (p + identifyLength chip)

/-- The code of the step at which an `init` stops. -/
inductive InitError (chip : Chip) (chipIdValue : UInt8) (rows : List RegDataError) (p : ℕ) :
    UInt8 → Prop where
  | noSensor : ¬ Identifies answers chip chipIdValue p →
      InitError chip chipIdValue rows p noSensor
  | mismatch (i : ℕ) (row : RegDataError) : Identifies answers chip chipIdValue p →
      FirstMismatch answers chip rows (p + identifyLength chip) i row →
      InitError chip chipIdValue rows p row.error

variable {answers} {chip : Chip} {chipIdValue : UInt8} {rows : List RegDataError} {p : ℕ}

theorem Configured.not_initError {error : UInt8} (h : Configured answers chip chipIdValue rows p) :
    ¬ InitError answers chip chipIdValue rows p error := by
  intro herror
  cases herror with
  | noSensor hid => exact hid h.1
  | mismatch i row _ hfirst => exact h.2.not_firstMismatch hfirst

theorem InitError.unique {error error' : UInt8}
    (h : InitError answers chip chipIdValue rows p error)
    (h' : InitError answers chip chipIdValue rows p error') : error = error' := by
  cases h with
  | noSensor hid =>
    cases h' with
    | noSensor _ => rfl
    | mismatch _ _ hid' _ => exact absurd hid' hid
  | mismatch i row hid hfirst =>
    cases h' with
    | noSensor hid' => exact absurd hid hid'
    | mismatch j r _ hfirst' => rw [(hfirst.unique hfirst').2]

theorem InitError.ne_noError {error : UInt8} (hrows : ∀ row ∈ rows, row.error ≠ noError)
    (h : InitError answers chip chipIdValue rows p error) : error ≠ noError := by
  cases h with
  | noSensor _ => decide
  | mismatch i row _ hfirst => exact hrows row (List.mem_of_getElem? hfirst.getElem_eq)

variable (answers chip chipIdValue rows) in
/-- An `init` as written: it succeeds, or returns the code of the step at which it stops. -/
theorem initCode_run (chipId softreset softresetValue : UInt8) (sent : Sent) :
    (Configured answers chip chipIdValue rows sent.length ∧
      ((initCode answers chip chipId chipIdValue softreset softresetValue rows).run sent).1 =
        noError) ∨
    InitError answers chip chipIdValue rows sent.length
      ((initCode answers chip chipId chipIdValue softreset softresetValue rows).run sent).1 := by
  simp only [initCode, StateT.run_bind, resetAndIdentify_run, pure_bind]
  by_cases hid : answers (sent.length + 4 * readOffset chip + 5) = chipIdValue
  · have hlen : (sent ++ identifyFrame chip chipId softreset softresetValue).length =
        sent.length + identifyLength chip := by simp
    rw [if_neg (not_not.mpr hid)]
    obtain ⟨hall, hrun⟩ | ⟨i, row, hfirst, hrun⟩ := configure_run answers chip rows
      (sent ++ identifyFrame chip chipId softreset softresetValue)
    · rw [hlen] at hall
      exact Or.inl ⟨⟨hid, hall⟩, by rw [hrun]; rfl⟩
    · rw [hlen] at hfirst
      rw [hrun]
      exact Or.inr (.mismatch i row hid hfirst)
  · rw [if_pos hid]
    exact Or.inr (.noSensor hid)

theorem initCode_eq_noError_iff (hrows : ∀ row ∈ rows, row.error ≠ noError)
    (chipId softreset softresetValue : UInt8) (sent : Sent) :
    ((initCode answers chip chipId chipIdValue softreset softresetValue rows).run sent).1 =
      noError ↔ Configured answers chip chipIdValue rows sent.length := by
  obtain ⟨hconf, hcode⟩ | herror := initCode_run answers chip chipIdValue rows
    chipId softreset softresetValue sent
  · exact iff_of_true hcode hconf
  · exact iff_of_false (herror.ne_noError hrows) (fun hconf => hconf.not_initError herror)

theorem configured_or_initError :
    Configured answers chip chipIdValue rows p ∨
      ∃ error, InitError answers chip chipIdValue rows p error := by
  have hrun := initCode_run answers chip chipIdValue rows 0 0 0 (List.replicate p (chip, 0))
  rw [List.length_replicate] at hrun
  obtain ⟨hconf, -⟩ | herror := hrun
  · exact Or.inl hconf
  · exact Or.inr ⟨_, herror⟩

/-- Of the accelerometer's codes only that of the first register survives the conversion. -/
theorem accelInitError_one_iff {p : ℕ} :
    InitError answers .accel accChipIdValue accelRegs p 1 ↔
      Identifies answers .accel accChipIdValue p ∧
        ¬ ReadsBack answers .accel ⟨accPwrCtrl, accEnableAccOn, accPwrCtrlError⟩
          (p + identifyLength .accel) := by
  constructor
  · intro h
    generalize herror : (1 : UInt8) = error at h
    cases h with
    | noSensor _ => exact absurd herror (by decide)
    | mismatch i row hid hfirst =>
      have hzero : ∀ i < 6, ∀ row ∈ accelRegs[i]?, 1 = row.error → i = 0 := by decide
      have hi : i < 6 := (List.getElem?_eq_some_iff.mp hfirst.getElem_eq).1
      obtain rfl := hzero i hi row hfirst.getElem_eq herror
      obtain rfl := Option.some.inj hfirst.getElem_eq
      exact ⟨hid, hfirst.mismatch⟩
  · rintro ⟨hid, hrow⟩
    exact .mismatch 0 _ hid (.zero hrow)

/-- None of the gyroscope's codes survives it. -/
theorem not_gyroInitError_one {p : ℕ} :
    ¬ InitError answers .gyro gyroChipIdValue gyroRegs p 1 := by
  intro h
  generalize herror : (1 : UInt8) = error at h
  cases h with
  | noSensor _ => exact absurd herror (by decide)
  | mismatch i row _ hfirst =>
    have hne : ∀ row ∈ gyroRegs, 1 ≠ row.error := by decide
    exact hne row (List.mem_of_getElem? hfirst.getElem_eq) herror

/-! ### `deviceBmi088Init` -/

/-- A function declared `bool` leaves the bus as its `return` expressions do. -/
theorem asBool_run (m : StateM Sent UInt8) (sent : Sent) :
    (do return asBool (← m) : StateM Sent Bool).run sent =
      pure (asBool (m.run sent).1, (m.run sent).2) := rfl

/-- What one half of the initialisation contributes: its self test fails, or it passes and the
    `init` succeeds, or it passes and the `init` leaves of its code a 1. -/
inductive Outcome (Passes Configures Stops : Prop) (selfTestError : UInt8) : UInt8 → Prop where
  | selfTest : ¬ Passes → Outcome Passes Configures Stops selfTestError selfTestError
  | configured : Passes → Configures → Outcome Passes Configures Stops selfTestError 0
  | stopped : Passes → Stops → Outcome Passes Configures Stops selfTestError 1

theorem testAndInit_outcome {Passes : Prop} {selfTestCode initStep : StateM Sent UInt8}
    {selfTestError : UInt8} {sent : Sent}
    (hpasses : (selfTestCode.run sent).1 = noError ↔ Passes)
    (hrows : ∀ row ∈ rows, row.error ≠ noError)
    (hinit : ∀ sent, (Configured answers chip chipIdValue rows sent.length ∧
      (initStep.run sent).1 = noError) ∨
        InitError answers chip chipIdValue rows sent.length (initStep.run sent).1) :
    Outcome Passes
      (Configured answers chip chipIdValue rows (selfTestCode.run sent).2.length)
      (∃ error, InitError answers chip chipIdValue rows (selfTestCode.run sent).2.length error)
      selfTestError
      ((testAndInit (do return asBool (← selfTestCode)) (do return asBool (← initStep))
        selfTestError).run sent).1 := by
  have hresult : ((testAndInit (do return asBool (← selfTestCode))
      (do return asBool (← initStep)) selfTestError).run sent).1 =
        if (asBool (selfTestCode.run sent).1).toUInt8 ≠ noError then selfTestError
        else (asBool (initStep.run (selfTestCode.run sent).2).1).toUInt8 := by
    change ((if (asBool (selfTestCode.run sent).1).toUInt8 ≠ noError then
      (pure selfTestError : StateM Sent UInt8) else do
        return (← (do return asBool (← initStep))).toUInt8).run (selfTestCode.run sent).2).1 = _
    split
    · rfl
    · rfl
  rw [hresult]
  by_cases h : (selfTestCode.run sent).1 = noError
  · have hfalse : ¬ (asBool (selfTestCode.run sent).1).toUInt8 ≠ noError := by
      rw [h]
      decide
    rw [if_neg hfalse]
    obtain ⟨hconf, hcode⟩ | herror := hinit (selfTestCode.run sent).2
    · rw [hcode]
      exact .configured (hpasses.mp h) hconf
    · have hone : asBool (initStep.run (selfTestCode.run sent).2).1 = true :=
        bne_iff_ne.mpr (herror.ne_noError hrows)
      rw [hone]
      exact .stopped (hpasses.mp h) ⟨_, herror⟩
  · have htrue : asBool (selfTestCode.run sent).1 = true := bne_iff_ne.mpr h
    rw [htrue, if_pos (by decide)]
    exact .selfTest (mt hpasses.mpr h)

variable (answers)

/-- Where the bytes of the accelerometer's `init` start. -/
def accelInitStart (sent : Sent) : ℕ := ((accelSelfTest answers).run sent).2.length

/-- The bytes sent when the accelerometer's half is over. -/
def afterAccel (sent : Sent) : Sent :=
  ((testAndInit (accelSelfTest answers) (accelInit answers) selfTestAccelError).run sent).2

/-- Where the bytes of the gyroscope's self test start. -/
def gyroSelfTestStart (sent : Sent) : ℕ := (afterAccel answers sent).length

/-- Where the bytes of the gyroscope's `init` start. -/
def gyroInitStart (sent : Sent) : ℕ :=
  ((gyroSelfTest answers).run (afterAccel answers sent)).2.length

/-- The accelerometer names itself, and every register of its table reads back. -/
def AccelConfigured (sent : Sent) : Prop :=
  Configured answers .accel accChipIdValue accelRegs (accelInitStart answers sent)

/-- The same for the gyroscope. -/
def GyroConfigured (sent : Sent) : Prop :=
  Configured answers .gyro gyroChipIdValue gyroRegs (gyroInitStart answers sent)

/-- The accelerometer's `init` stops at the step with this code. -/
def AccelInitError (sent : Sent) (error : UInt8) : Prop :=
  InitError answers .accel accChipIdValue accelRegs (accelInitStart answers sent) error

/-- The gyroscope's `init` stops at the step with this code. -/
def GyroInitError (sent : Sent) (error : UInt8) : Prop :=
  InitError answers .gyro gyroChipIdValue gyroRegs (gyroInitStart answers sent) error

/-- Both self tests pass. -/
def SelfTestsPass (sent : Sent) : Prop :=
  AccelSelfTestPasses answers sent.length ∧
    GyroSelfTestPasses answers (gyroSelfTestStart answers sent)

/-- What the accelerometer's half contributes. -/
theorem accel_outcome (sent : Sent) :
    Outcome (AccelSelfTestPasses answers sent.length) (AccelConfigured answers sent)
      (∃ error, AccelInitError answers sent error) selfTestAccelError
      ((testAndInit (accelSelfTest answers) (accelInit answers) selfTestAccelError).run
        sent).1 := by
  have hstart : accelInitStart answers sent =
      ((accelSelfTestCode answers).run sent).2.length := by
    rw [accelInitStart, accelSelfTest, asBool_run]
    rfl
  rw [accelSelfTest, accelInit]
  simp only [AccelConfigured, AccelInitError, hstart]
  exact testAndInit_outcome (accelSelfTestCode_iff sent) accelRegs_error
    (initCode_run _ _ _ _ accChipId accSoftreset accSoftresetValue)

/-- What the gyroscope's half contributes. -/
theorem gyro_outcome (sent : Sent) :
    Outcome (GyroSelfTestPasses answers (gyroSelfTestStart answers sent))
      (GyroConfigured answers sent) (∃ error, GyroInitError answers sent error) selfTestGyroError
      ((testAndInit (gyroSelfTest answers) (gyroInit answers) selfTestGyroError).run
        (afterAccel answers sent)).1 := by
  have hstart : gyroInitStart answers sent =
      ((gyroSelfTestCode answers).run (afterAccel answers sent)).2.length := by
    rw [gyroInitStart, gyroSelfTest, asBool_run]
    rfl
  rw [gyroSelfTest, gyroInit]
  simp only [GyroConfigured, GyroInitError, hstart]
  exact testAndInit_outcome (gyroSelfTestCode_iff (afterAccel answers sent)) gyroRegs_error
    (initCode_run _ _ _ _ gyroChipId gyroSoftreset gyroSoftresetValue)

variable {answers}

/-- Two steps whose results are combined with OR. -/
theorem or_run (x y : StateM Sent UInt8) (sent : Sent) :
    ((do
      let a ← x
      let b ← y
      return noError ||| a ||| b : StateM Sent UInt8).run sent).1 =
        noError ||| (x.run sent).1 ||| (y.run (x.run sent).2).1 := rfl

theorem deviceBmi088Init_run (sent : Sent) :
    ((deviceBmi088Init answers).run sent).1 = noError |||
      ((testAndInit (accelSelfTest answers) (accelInit answers) selfTestAccelError).run sent).1 |||
        ((testAndInit (gyroSelfTest answers) (gyroInit answers) selfTestGyroError).run
          (afterAccel answers sent)).1 := by
  rw [deviceBmi088Init, or_run, afterAccel]

theorem Outcome.eq_noError_iff {Passes Configures Stops : Prop} {selfTestError result : UInt8}
    (herror : selfTestError ≠ 0) (hstops : Configures → ¬ Stops)
    (h : Outcome Passes Configures Stops selfTestError result) :
    result = 0 ↔ Passes ∧ Configures := by
  cases h with
  | selfTest hp => exact iff_of_false herror (fun hpc => hp hpc.1)
  | configured hp hc => exact iff_of_true rfl ⟨hp, hc⟩
  | stopped hp hs => exact iff_of_false (by decide) (fun hpc => hstops hpc.2 hs)

/-- After a self test that passes there remains of any code a 1. -/
theorem Outcome.eq_one {Passes Configures Stops : Prop} {selfTestError result : UInt8}
    (hstops : Configures → ¬ Stops) (h : Outcome Passes Configures Stops selfTestError result)
    (hp : Passes) (hs : Stops) : result = 1 := by
  cases h with
  | selfTest hnp => exact absurd hp hnp
  | configured _ hc => exact absurd hs (hstops hc)
  | stopped _ _ => rfl

theorem AccelConfigured.not_initError {sent : Sent} (h : AccelConfigured answers sent) :
    ¬ ∃ error, AccelInitError answers sent error :=
  fun ⟨_, herror⟩ => Configured.not_initError h herror

theorem GyroConfigured.not_initError {sent : Sent} (h : GyroConfigured answers sent) :
    ¬ ∃ error, GyroInitError answers sent error :=
  fun ⟨_, herror⟩ => Configured.not_initError h herror

/-- The result is `BMI088_NO_ERROR` exactly when every check succeeds. -/
theorem deviceBmi088Init_eq_noError_iff (sent : Sent) :
    ((deviceBmi088Init answers).run sent).1 = noError ↔
      SelfTestsPass answers sent ∧ AccelConfigured answers sent ∧
        GyroConfigured answers sent := by
  have haccel := (accel_outcome answers sent).eq_noError_iff (by decide)
    AccelConfigured.not_initError
  have hgyro := (gyro_outcome answers sent).eq_noError_iff (by decide)
    GyroConfigured.not_initError
  have hor : ∀ a b : UInt8, noError ||| a ||| b = noError ↔ a = 0 ∧ b = 0 := by
    intro a b
    simp [noError, UInt8.or_eq_zero_iff]
  rw [deviceBmi088Init_run, hor, haccel, hgyro]
  constructor
  · rintro ⟨⟨ha, hca⟩, hg, hcg⟩
    exact ⟨⟨ha, hg⟩, hca, hcg⟩
  · rintro ⟨⟨ha, hg⟩, hca, hcg⟩
    exact ⟨⟨ha, hca⟩, hg, hcg⟩

/-- With both self tests passed and one `init` stopped, the result is 1, whatever its code. -/
theorem deviceBmi088Init_eq_one {sent : Sent} (hpass : SelfTestsPass answers sent)
    (h : ((∃ error, AccelInitError answers sent error) ∧ GyroConfigured answers sent) ∨
      (AccelConfigured answers sent ∧ ∃ error, GyroInitError answers sent error)) :
    ((deviceBmi088Init answers).run sent).1 = 1 := by
  have haccel := accel_outcome answers sent
  have hgyro := gyro_outcome answers sent
  rw [deviceBmi088Init_run]
  obtain ⟨herror, hconf⟩ | ⟨hconf, herror⟩ := h
  · rw [haccel.eq_one AccelConfigured.not_initError hpass.1 herror,
      (hgyro.eq_noError_iff (by decide) GyroConfigured.not_initError).mpr ⟨hpass.2, hconf⟩]
    decide
  · rw [(haccel.eq_noError_iff (by decide) AccelConfigured.not_initError).mpr ⟨hpass.1, hconf⟩,
      hgyro.eq_one GyroConfigured.not_initError hpass.2 herror]
    decide

/-- The first register of the accelerometer's table does not read back, though the chip names
    itself. -/
def AccelPwrCtrlFails (answers : ℕ → UInt8) (sent : Sent) : Prop :=
  Identifies answers .accel accChipIdValue (accelInitStart answers sent) ∧
    ¬ ReadsBack answers .accel ⟨accPwrCtrl, accEnableAccOn, accPwrCtrlError⟩
      (accelInitStart answers sent + identifyLength .accel)

/-- `deviceBmi088Init` succeeds exactly when every check does. Where one `init` alone stops, its
    result is the code of that step exactly when this is the accelerometer's first register. -/
theorem deviceBmi088Init_reports_iff (answers : ℕ → UInt8) (sent : Sent) :
    (((deviceBmi088Init answers).run sent).1 = noError ↔
      SelfTestsPass answers sent ∧ AccelConfigured answers sent ∧ GyroConfigured answers sent) ∧
    ((SelfTestsPass answers sent → ∀ error,
        (AccelInitError answers sent error ∧ GyroConfigured answers sent) ∨
          (AccelConfigured answers sent ∧ GyroInitError answers sent error) →
        ((deviceBmi088Init answers).run sent).1 = error) ↔
      (SelfTestsPass answers sent →
        (AccelConfigured answers sent ↔ GyroConfigured answers sent) ∨
          AccelPwrCtrlFails answers sent ∧ GyroConfigured answers sent)) := by
  refine ⟨deviceBmi088Init_eq_noError_iff sent, forall_congr' fun hpass => ?_⟩
  constructor
  · intro hown
    obtain haccel | ⟨error, haccel⟩ : AccelConfigured answers sent ∨
        ∃ error, AccelInitError answers sent error := configured_or_initError
    · obtain hgyro | ⟨error, hgyro⟩ : GyroConfigured answers sent ∨
          ∃ error, GyroInitError answers sent error := configured_or_initError
      · exact Or.inl (iff_of_true haccel hgyro)
      · have hone := deviceBmi088Init_eq_one hpass (Or.inr ⟨haccel, error, hgyro⟩)
        obtain rfl := hone.symm.trans (hown error (Or.inr ⟨haccel, hgyro⟩))
        exact absurd hgyro not_gyroInitError_one
    · have hnot := fun h => AccelConfigured.not_initError h ⟨error, haccel⟩
      by_cases hgyro : GyroConfigured answers sent
      · have hone := deviceBmi088Init_eq_one hpass (Or.inl ⟨⟨error, haccel⟩, hgyro⟩)
        obtain rfl := hone.symm.trans (hown error (Or.inl ⟨haccel, hgyro⟩))
        exact Or.inr ⟨accelInitError_one_iff.mp haccel, hgyro⟩
      · exact Or.inl (iff_of_false hnot hgyro)
  · rintro hcond error (⟨haccel, hgyro⟩ | ⟨haccel, hgyro⟩)
    · have hnot := fun h => AccelConfigured.not_initError h ⟨error, haccel⟩
      obtain hiff | ⟨hpwr, -⟩ := hcond
      · exact absurd (hiff.mpr hgyro) hnot
      · rw [deviceBmi088Init_eq_one hpass (Or.inl ⟨⟨error, haccel⟩, hgyro⟩)]
        exact InitError.unique (accelInitError_one_iff.mpr hpwr) haccel
    · have hnot := fun h => GyroConfigured.not_initError h ⟨error, hgyro⟩
      obtain hiff | ⟨-, hconf⟩ := hcond
      · exact absurd (hiff.mp haccel) hnot
      · exact absurd hconf hnot

end Runs

/-- A device that passes everything up to the gyroscope's `init`, and there names another
    chip. -/
def otherGyro : ℕ → UInt8
  | 13 | 86 => accChipIdValue
  | 18 => 0xAC | 23 => 0x04 | 28 => 0x03
  | 38 => 0x0D | 42 | 44 | 46 => 0x10 | 51 => 0x09
  | 91 => 0x04 | 101 => 0xAB | 111 => 0x08 | 116 => 0x04
  | 130 => gyroBistRdy
  | _ => 0

/-- The code of a missing sensor is lost. -/
theorem not_deviceBmi088Init_reports :
    ¬ ∀ (answers : ℕ → UInt8) (sent : Sent),
      (((deviceBmi088Init answers).run sent).1 = noError ↔
        SelfTestsPass answers sent ∧ AccelConfigured answers sent ∧
          GyroConfigured answers sent) ∧
      (SelfTestsPass answers sent → ∀ error,
        (AccelInitError answers sent error ∧ GyroConfigured answers sent) ∨
          (AccelConfigured answers sent ∧ GyroInitError answers sent error) →
        ((deviceBmi088Init answers).run sent).1 = error) := by
  intro h
  have hpass : SelfTestsPass otherGyro [] :=
    ⟨(accelSelfTestCode_iff []).mp (by decide +kernel),
      (gyroSelfTestCode_iff _).mp (by decide +kernel)⟩
  have haccel : AccelConfigured otherGyro [] :=
    (initCode_eq_noError_iff accelRegs_error accChipId accSoftreset accSoftresetValue
      ((accelSelfTest otherGyro).run []).2).mp (by decide +kernel)
  have hgyro : GyroInitError otherGyro [] noSensor := .noSensor (by decide +kernel)
  have hrun : ((deviceBmi088Init otherGyro).run []).1 = 1 :=
    deviceBmi088Init_eq_one hpass (Or.inr ⟨haccel, _, hgyro⟩)
  have hcode := (h otherGyro []).2 hpass noSensor (Or.inr ⟨haccel, hgyro⟩)
  exact absurd (hrun.symm.trans hcode) (by decide)

end Bmi088

end RmMicroControllers
