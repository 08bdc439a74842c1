import RmMicroControllers.Devices.Bmi088Registers

/-!
# The self tests of the BMI088

What the two self tests look for in the stream of answers.

## Main results

- `accelSelfTestCode_iff`, `gyroSelfTestCode_iff` — when they succeed
-/

namespace RmMicroControllers

namespace Bmi088

section SelfTests

variable (answers : ℕ → UInt8)

/-- What an accelerometer self test whose bytes start at `p` looks for. -/
structure AccelSelfTestPasses (p : ℕ) : Prop where
  identifies : Identifies answers .accel accChipIdValue p
  regs : AllReadBack answers .accel (accelSelfTestRegs.take 4) (p + 14)
  positive : ReadsBack answers .accel positiveSignal (p + 34)
  negative : ReadsBack answers .accel negativeSignal (p + 47)
  off : answers (p + 64) = accSelfTestOff
  responses : ¬ ResponsesTooClose (axesAt answers (p + 41)) (axesAt answers (p + 54))

/-- The `k`-th read of the status of a gyroscope self test whose bytes start at `p`. -/
def bistStatus (p k : ℕ) : UInt8 := answers (p + 13 + 2 * k)

/-- What a gyroscope self test looks for: one of the first nine reads is ready, and the first
    that is ready shows no failure. -/
def GyroSelfTestPasses (p : ℕ) : Prop :=
  ∃ k < 9, (∀ j < k, bistStatus answers p j &&& gyroBistRdy = 0) ∧
    bistStatus answers p k &&& gyroBistRdy ≠ 0 ∧ bistStatus answers p k &&& gyroBistFail = 0

variable {answers}

/-- The bytes sent for one signal of the accelerometer self test. -/
def signalFrame (row : RegDataError) : Sent :=
  rowFrame .accel row ++ accelBlockFrame accelXoutL 6

@[simp]
theorem signalFrame_length (row : RegDataError) : (signalFrame row).length = 13 := rfl

/-- One signal of the accelerometer self test. -/
theorem signalResponse_run (row : RegDataError) (sent : Sent) :
    (signalResponse answers row).run sent =
      if ReadsBack answers .accel row sent.length then
        pure (some (axesAt answers (sent.length + 7)), sent ++ signalFrame row)
      else pure (none, sent ++ rowFrame .accel row) := by
  have hres : answers ((sent ++ writeFrame .accel row.reg row.data).length + readOffset .accel) =
      row.data ↔ ReadsBack answers .accel row sent.length := by
    simp [ReadsBack]
  simp only [signalResponse, StateT.run_bind, writeSingleReg_run, pure_bind, readSingleReg_run]
  by_cases h : ReadsBack answers .accel row sent.length
  · have hpos : (sent ++ writeFrame .accel row.reg row.data ++ readFrame .accel row.reg).length +
        2 = sent.length + 7 := by
      simp [readOffset]
    rw [if_pos h, if_neg (not_not.mpr (hres.mpr h))]
    simp only [StateT.run_bind, readMuliReg_accel_run, pure_bind, hpos]
    rw [axes_map _ _ _ le_rfl]
    simp [signalFrame, rowFrame]
  · rw [if_neg h, if_pos (mt hres.mp h), List.append_assoc]
    rfl

/-- A step that returns an error unless `P` fails goes on exactly when it does. -/
theorem return_if_iff {P : Prop} [Decidable P] {error : UInt8} (he : error ≠ noError)
    (m : StateM Sent UInt8) (sent : Sent) :
    ((if P then pure error else m).run sent).1 = noError ↔ ¬ P ∧ (m.run sent).1 = noError := by
  by_cases h : P
  · simp only [h, if_true, not_true, false_and, iff_false]
    exact he
  · simp only [h, if_false, not_false_eq_true, true_and]

theorem compareResponses_iff (positive negative : Fin 3 → Int16) (sent : Sent) :
    ((compareResponses answers positive negative).run sent).1 = noError ↔
      answers (sent.length + 4) = accSelfTestOff ∧ ¬ ResponsesTooClose positive negative := by
  have hpos : (sent ++ writeFrame .accel accSelfTest accSelfTestOff).length + readOffset .accel =
      sent.length + 4 := by
    simp [readOffset]
  simp only [compareResponses, StateT.run_bind, writeSingleReg_run, pure_bind, readSingleReg_run]
  rw [return_if_iff (by decide), hpos, not_not]
  simp only [StateT.run_bind, writeSingleReg_run, pure_bind]
  rw [return_if_iff (by decide)]
  simp only [StateT.run_bind, readSingleReg_run, pure_bind]
  constructor
  · rintro ⟨hoff, hfar, -⟩
    exact ⟨hoff, hfar⟩
  · rintro ⟨hoff, hfar⟩
    exact ⟨hoff, hfar, rfl⟩

theorem testSignals_iff (sent : Sent) :
    ((testSignals answers).run sent).1 = noError ↔
      ReadsBack answers .accel positiveSignal sent.length ∧
        ReadsBack answers .accel negativeSignal (sent.length + 13) ∧
          answers (sent.length + 30) = accSelfTestOff ∧
            ¬ ResponsesTooClose (axesAt answers (sent.length + 7))
              (axesAt answers (sent.length + 20)) := by
  simp only [testSignals, StateT.run_bind, signalResponse_run]
  by_cases hp : ReadsBack answers .accel positiveSignal sent.length
  · rw [if_pos hp]
    simp only [pure_bind, StateT.run_bind, signalResponse_run, List.length_append,
      signalFrame_length]
    by_cases hn : ReadsBack answers .accel negativeSignal (sent.length + 13)
    · rw [if_pos hn]
      simp only [pure_bind]
      rw [compareResponses_iff]
      simp [hp, hn, Nat.add_assoc]
    · rw [if_neg hn]
      simp only [pure_bind, hn, false_and, and_false, iff_false]
      exact (by decide : negativeSignal.error ≠ noError)
  · rw [if_neg hp]
    simp only [pure_bind, hp, false_and, iff_false]
    exact (by decide : positiveSignal.error ≠ noError)

/-- The accelerometer's self test succeeds exactly when every answer it looks at is right. -/
theorem accelSelfTestCode_iff (sent : Sent) :
    ((accelSelfTestCode answers).run sent).1 = noError ↔
      AccelSelfTestPasses answers sent.length := by
  simp only [accelSelfTestCode, StateT.run_bind, resetAndIdentify_run, pure_bind]
  rw [return_if_iff (by decide), not_not, StateT.run_bind]
  have hlen : (sent ++ identifyFrame .accel accChipId accSoftreset accSoftresetValue).length =
      sent.length + 14 := by
    simp [identifyLength, readOffset]
  obtain ⟨hall, hrun⟩ | ⟨i, row, hfirst, hrun⟩ :=
    configure_run answers .accel (accelSelfTestRegs.take 4)
      (sent ++ identifyFrame .accel accChipId accSoftreset accSoftresetValue)
  · have hlen' : (sent ++ identifyFrame .accel accChipId accSoftreset accSoftresetValue ++
        (accelSelfTestRegs.take 4).flatMap (rowFrame .accel)).length = sent.length + 34 := by
      rw [List.length_append, hlen, rowFrames_length]
      rfl
    rw [hrun, pure_bind, if_neg (not_not.mpr rfl), testSignals_iff, hlen']
    rw [hlen] at hall
    constructor
    · rintro ⟨hid, hp, hn, hoff, hfar⟩
      exact ⟨hid, hall, hp, hn, hoff, hfar⟩
    · rintro ⟨hid, -, hp, hn, hoff, hfar⟩
      exact ⟨hid, hp, hn, hoff, hfar⟩
  · have herror : row.error ≠ noError :=
      accelSelfTestRegs_error row (List.mem_of_mem_take (List.mem_of_getElem? hfirst.getElem_eq))
    rw [hrun, pure_bind, if_pos herror]
    rw [hlen] at hfirst
    constructor
    · rintro ⟨-, h⟩
      exact absurd h herror
    · intro h
      exact absurd hfirst h.regs.not_firstMismatch

variable (answers) in
/-- The polling loop: it ends at the first read that is ready, and otherwise at the last. -/
theorem pollBist_run (left : ℕ) (retry : UInt8) (sent : Sent) :
    ∃ k ≤ left, ∃ sent', (∀ j < k, answers (sent.length + 1 + 2 * j) &&& gyroBistRdy = 0) ∧
      (k < left → answers (sent.length + 1 + 2 * k) &&& gyroBistRdy ≠ 0) ∧
      (pollBist answers left retry).run sent =
        pure ((answers (sent.length + 1 + 2 * k), retry + UInt8.ofNat (k + 1)), sent') := by
  induction left generalizing retry sent with
  | zero =>
    refine ⟨0, le_rfl, sent ++ readFrame .gyro gyroSelfTestReg, ?_, ?_, ?_⟩
    · intro j hj; omega
    · intro h; omega
    · simp [pollBist, readOffset]
  | succ left ih =>
    simp only [pollBist, StateT.run_bind, readSingleReg_run, pure_bind]
    by_cases h : answers (sent.length + 1) &&& gyroBistRdy ≠ 0
    · refine ⟨0, by omega, sent ++ readFrame .gyro gyroSelfTestReg, ?_, ?_, ?_⟩
      · intro j hj; omega
      · intro _; exact h
      · simp [readOffset, h]
    · obtain ⟨k, hk, sent', hbefore, hready, hrun⟩ :=
        ih (retry + 1) (sent ++ readFrame .gyro gyroSelfTestReg)
      have hlen : (sent ++ readFrame .gyro gyroSelfTestReg).length = sent.length + 2 := by
        simp [readOffset]
      -- the next round looks two bytes further
      have hshift : ∀ j, sent.length + 2 + 1 + 2 * j = sent.length + 1 + 2 * (j + 1) := by omega
      simp only [hlen, hshift] at hbefore hready hrun
      refine ⟨k + 1, by omega, sent', ?_, fun hlt => hready (by omega), ?_⟩
      · intro j hj
        cases j with
        | zero => simpa using h
        | succ j => exact hbefore j (by omega)
      · have hretry : retry + 1 + UInt8.ofNat (k + 1) = retry + UInt8.ofNat (k + 1 + 1) := by
          rw [UInt8.ofNat_add (k + 1) 1, UInt8.add_assoc, UInt8.add_comm 1]
          rfl
        rw [← hretry, ← hrun]
        simp [readOffset, h]

/-- The gyroscope's self test succeeds exactly when one of the first nine reads of its status is
    ready and the first that is shows no failure. -/
theorem gyroSelfTestCode_iff (sent : Sent) :
    ((gyroSelfTestCode answers).run sent).1 = noError ↔
      GyroSelfTestPasses answers sent.length := by
  have hlen : (sent ++ identifyFrame .gyro gyroChipId gyroSoftreset gyroSoftresetValue ++
      writeFrame .gyro gyroSelfTestReg gyroTrigBist).length = sent.length + 12 := by
    simp [identifyLength, readOffset]
  obtain ⟨k, hk, sent', hbefore, hready, hrun⟩ := pollBist_run answers 9 0
    (sent ++ identifyFrame .gyro gyroChipId gyroSoftreset gyroSoftresetValue ++
      writeFrame .gyro gyroSelfTestReg gyroTrigBist)
  have hstatus : ∀ j, answers (sent.length + 12 + 1 + 2 * j) =
      bistStatus answers sent.length j := fun _ => rfl
  simp only [hlen, hstatus] at hbefore hready hrun
  simp only [gyroSelfTestCode, StateT.run_bind, resetAndIdentify_run, writeSingleReg_run,
    pure_bind, hrun]
  rw [return_if_iff (by decide), return_if_iff (by decide), not_not]
  have hretry : (0 : UInt8) + UInt8.ofNat (k + 1) = 10 ↔ k = 9 := by
    have hall : ∀ k < 10, ((0 : UInt8) + UInt8.ofNat (k + 1) = 10 ↔ k = 9) := by decide
    exact hall k (by omega)
  rw [hretry]
  constructor
  · rintro ⟨hne, hfail, -⟩
    exact ⟨k, by omega, hbefore, hready (by omega), hfail⟩
  · rintro ⟨j, hj, hbefore', hready', hfail'⟩
    -- the loop stops at the first read that is ready, so it stops at this one
    obtain hlt | rfl | hlt := Nat.lt_trichotomy k j
    · exact absurd (hbefore' k hlt) (hready (by omega))
    · exact ⟨by omega, hfail', rfl⟩
    · exact absurd (hbefore j hlt) hready'

end SelfTests

end Bmi088

end RmMicroControllers
