import RmMicroControllers.Devices.Bmi088Registers

/-!
# Reading the BMI088

`deviceBmi088Read` takes 21 bytes of the bus. The temperature is in the last two, an eleven bit
number in two's complement over the two registers.

## Main results

- `deviceBmi088Read_run` — which answers the temperature comes from
- `rawTemp_range`, `exists_rawTemp` — the raw temperatures are all numbers of eleven bits
-/

namespace RmMicroControllers

namespace Bmi088

/-- `BMI088_ACCEL_SEN`. -/
def accelSen : ℚ := 0.0008974358974

/-- `BMI088_GYRO_SEN`. -/
def gyroSen : ℚ := 0.00106526443603169529841533860381

/-- `BMI088_TEMP_FACTOR`. -/
def tempFactor : ℚ := 0.125

/-- `BMI088_TEMP_OFFSET`. -/
def tempOffset : ℚ := 23

/-- `bmi088_raw_temp` of the two bytes of the temperature. -/
def rawTemp (high low : UInt8) : Int16 :=
  let raw := ((high.toUInt16 <<< 3) ||| (low >>> 5).toUInt16).toInt16
  if raw > 1023 then raw - 2048 else raw

/-- The temperature of a raw value. -/
def temperateOf (raw : ℤ) : ℚ := raw * tempFactor + tempOffset

/-- The arrays and the temperature that `deviceBmi088Read` fills in. -/
structure Reading where
  gyro : Fin 3 → ℚ
  accel : Fin 3 → ℚ
  temperate : ℚ

/-- `deviceBmi088Read`. A gyroscope that answers another identity leaves `gyro` as it was. -/
def deviceBmi088Read (answers : ℕ → UInt8) (gyro : Fin 3 → ℚ) : StateM Sent Reading := do
  let buf ← readMuliReg answers .accel accelXoutL 6
  let accel := fun i => (axes buf 0 i).toInt * accelSen
  let buf ← readMuliReg answers .gyro gyroChipId 8
  let gyro := if buf.getD 0 0 = gyroChipIdValue
    then fun i => (axes buf 2 i).toInt * gyroSen else gyro
  let buf ← readMuliReg answers .accel tempM 2
  return ⟨gyro, accel, temperateOf (rawTemp (buf.getD 0 0) (buf.getD 1 0)).toInt⟩

/-- The bytes sent by `deviceBmi088Read`. -/
def readingFrame : Sent :=
  accelBlockFrame accelXoutL 6 ++ gyroBlockFrame gyroChipId 8 ++ accelBlockFrame tempM 2

@[simp]
theorem readingFrame_length : readingFrame.length = 21 := rfl

theorem deviceBmi088Read_run (answers : ℕ → UInt8) (gyro : Fin 3 → ℚ) (sent : Sent) :
    ∃ reading : Reading,
      (deviceBmi088Read answers gyro).run sent = pure (reading, sent ++ readingFrame) ∧
        reading.temperate = temperateOf
          (rawTemp (answers (sent.length + 19)) (answers (sent.length + 20))).toInt := by
  simp only [deviceBmi088Read, StateT.run_bind, readMuliReg_accel_run, readMuliReg_gyro_run,
    pure_bind]
  have hlen : (sent ++ accelBlockFrame accelXoutL 6 ++ gyroBlockFrame gyroChipId 8).length + 2 =
      sent.length + 19 := by
    simp [accelBlockFrame, gyroBlockFrame]
  have hsent : sent ++ accelBlockFrame accelXoutL 6 ++ gyroBlockFrame gyroChipId 8 ++
      accelBlockFrame tempM 2 = sent ++ readingFrame := by
    simp only [readingFrame, List.append_assoc]
  rw [hlen, hsent]
  exact ⟨_, rfl, rfl⟩

/-- The two bytes put together, before the sign. -/
theorem rawWord_toNat (high low : UInt8) :
    ((high.toUInt16 <<< 3) ||| (low >>> 5).toUInt16).toNat =
      8 * high.toNat + low.toNat / 32 := by
  have hhigh := high.toNat_lt
  have hlow := low.toNat_lt
  have hlt : low.toNat / 32 < 2 ^ 3 := by omega
  have hor := Nat.shiftLeft_add_eq_or_of_lt hlt high.toNat
  have hshift : high.toNat <<< 3 % 65536 = high.toNat <<< 3 := by
    rw [Nat.shiftLeft_eq]
    omega
  have hright : low.toNat >>> 5 = low.toNat / 32 := Nat.shiftRight_eq_div_pow _ 5
  simp only [UInt16.toNat_or, UInt16.toNat_shiftLeft, UInt8.toNat_toUInt16,
    UInt8.toNat_shiftRight]
  change (high.toNat <<< 3 % 65536) ||| (low.toNat >>> 5) = _
  rw [hshift, hright, ← hor, Nat.shiftLeft_eq]
  omega

/-- The raw temperature as arithmetic on the two bytes. -/
theorem rawTemp_toInt (high low : UInt8) :
    (rawTemp high low).toInt =
      if high.toNat < 128 then (8 * high.toNat + low.toNat / 32 : ℤ)
      else 8 * high.toNat + low.toNat / 32 - 2048 := by
  have hword := rawWord_toNat high low
  have hhigh := high.toNat_lt
  have hlow := low.toNat_lt
  unfold rawTemp
  generalize (high.toUInt16 <<< 3) ||| (low >>> 5).toUInt16 = word at hword
  have hraw : word.toInt16.toInt = 8 * high.toNat + low.toNat / 32 := by
    rw [← Int16.toInt_toBitVec, UInt16.toBitVec_toInt16, BitVec.toInt_eq_toNat_bmod,
      UInt16.toNat_toBitVec, hword]
    rw [Int.bmod_eq_of_le (by omega) (by omega)]
    push_cast
    rfl
  have hgt : word.toInt16 > 1023 ↔ ¬ high.toNat < 128 := by
    rw [gt_iff_lt, Int16.lt_iff_toInt_lt, hraw]
    change (1023 : ℤ) < _ ↔ _
    omega
  dsimp only
  by_cases h : high.toNat < 128
  · rw [if_neg (mt hgt.mp (not_not.mpr h)), if_pos h, hraw]
  · rw [if_pos (hgt.mpr h), if_neg h, Int16.toInt_sub, hraw]
    change Int.bmod (_ - 2048) 65536 = _
    exact Int.bmod_eq_of_le (by omega) (by omega)

theorem rawTemp_range (high low : UInt8) :
    -1024 ≤ (rawTemp high low).toInt ∧ (rawTemp high low).toInt ≤ 1023 := by
  have hhigh := high.toNat_lt
  have hlow := low.toNat_lt
  rw [rawTemp_toInt]
  split <;> omega

/-- Every number of eleven bits is a raw temperature. -/
theorem exists_rawTemp {z : ℤ} (hlo : -1024 ≤ z) (hhi : z ≤ 1023) :
    ∃ high low, (rawTemp high low).toInt = z := by
  obtain ⟨n, hn, hz⟩ : ∃ n : ℕ, n < 2048 ∧ z = if n < 1024 then (n : ℤ) else n - 2048 := by
    by_cases h : 0 ≤ z
    · exact ⟨z.toNat, by omega, by rw [if_pos (by omega)]; omega⟩
    · exact ⟨(z + 2048).toNat, by omega, by rw [if_neg (by omega)]; omega⟩
  have hhigh : (UInt8.ofNat (n / 8)).toNat = n / 8 := UInt8.toNat_ofNat_of_lt' (by
    change n / 8 < 256
    omega)
  have hlow : (UInt8.ofNat (n % 8 * 32)).toNat = n % 8 * 32 := UInt8.toNat_ofNat_of_lt' (by
    change n % 8 * 32 < 256
    omega)
  refine ⟨UInt8.ofNat (n / 8), UInt8.ofNat (n % 8 * 32), ?_⟩
  rw [rawTemp_toInt, hhigh, hlow, hz]
  split
  · rw [if_pos (by omega)]
    omega
  · rw [if_neg (by omega)]
    omega

end Bmi088

end RmMicroControllers
