import RmMicroControllers.Library.Fallible
import Mathlib.Data.Rat.Defs

/-!
# The BMI088 driver

`bmi088.c` over the bytes of its SPI bus. Every transfer sends one byte to the chip whose select
line is low and receives one, and `answers n` is what the device sends back while the `n`-th byte
goes out, so a function of the driver is a computation on the log of the bytes sent. The delays
are left out: they touch neither the log nor the answers.

## Main definitions

- `readSingleReg`, `writeSingleReg`, `readMuliReg` — the accesses to one register
- `accelSelfTest`, `accelInit`, `gyroSelfTest`, `gyroInit` — the four steps of initialisation
- `deviceBmi088Init`, `deviceBmi088Read` — what the sensor task calls
-/

namespace RmMicroControllers

namespace Bmi088

/-- The two chips in the package, each with its own select line. -/
inductive Chip where
  | accel
  | gyro
  deriving DecidableEq, Repr

/-- The bytes sent so far, the oldest first. -/
abbrev Sent := List (Chip × UInt8)

/-! ### `bmi088_reg.h` -/

def accChipId : UInt8 := 0x00
def accChipIdValue : UInt8 := 0x1E
def accelXoutL : UInt8 := 0x12
def tempM : UInt8 := 0x22
def accConf : UInt8 := 0x40
def accConfMustSet : UInt8 := 0x80
def accNormal : UInt8 := 0x20
def acc800Hz : UInt8 := 0x0B
def acc1600Hz : UInt8 := 0x0C
def accRange : UInt8 := 0x41
def accRange3G : UInt8 := 0x00
def accRange24G : UInt8 := 0x03
def int1IoCtrl : UInt8 := 0x53
def accInt1IoEnable : UInt8 := 0x08
def accInt1GpioPp : UInt8 := 0x00
def accInt1GpioLow : UInt8 := 0x00
def intMapData : UInt8 := 0x58
def accInt1DrdyInterrupt : UInt8 := 0x04
def accSelfTest : UInt8 := 0x6D
def accSelfTestOff : UInt8 := 0x00
def accSelfTestPositiveSignal : UInt8 := 0x0D
def accSelfTestNegativeSignal : UInt8 := 0x09
def accPwrConf : UInt8 := 0x7C
def accPwrActiveMode : UInt8 := 0x00
def accPwrCtrl : UInt8 := 0x7D
def accEnableAccOn : UInt8 := 0x04
def accSoftreset : UInt8 := 0x7E
def accSoftresetValue : UInt8 := 0xB6
def gyroChipId : UInt8 := 0x00
def gyroChipIdValue : UInt8 := 0x0F
def gyroRange : UInt8 := 0x0F
def gyro2000 : UInt8 := 0x00
def gyroBandwidth : UInt8 := 0x10
def gyroBandwidthMustSet : UInt8 := 0x80
def gyro1000x116Hz : UInt8 := 0x02
def gyroLpm1 : UInt8 := 0x11
def gyroNormalMode : UInt8 := 0x00
def gyroSoftreset : UInt8 := 0x14
def gyroSoftresetValue : UInt8 := 0xB6
def gyroCtrl : UInt8 := 0x15
def drdyOn : UInt8 := 0x80
def gyroInt3Int4IoConf : UInt8 := 0x16
def gyroInt3GpioPp : UInt8 := 0x00
def gyroInt3GpioLow : UInt8 := 0x00
def gyroInt3Int4IoMap : UInt8 := 0x18
def gyroDrdyIoInt3 : UInt8 := 0x01
def gyroSelfTestReg : UInt8 := 0x3C
def gyroBistFail : UInt8 := 0x04
def gyroBistRdy : UInt8 := 0x02
def gyroTrigBist : UInt8 := 0x01

/-! ### The error codes of `bmi088.h` -/

def noError : UInt8 := 0x00
def accPwrCtrlError : UInt8 := 0x01
def accPwrConfError : UInt8 := 0x02
def accConfError : UInt8 := 0x03
def accSelfTestError : UInt8 := 0x04
def accRangeError : UInt8 := 0x05
def int1IoCtrlError : UInt8 := 0x06
def intMapDataError : UInt8 := 0x07
def gyroRangeError : UInt8 := 0x08
def gyroBandwidthError : UInt8 := 0x09
def gyroLpm1Error : UInt8 := 0x0A
def gyroCtrlError : UInt8 := 0x0B
def gyroInt3Int4IoConfError : UInt8 := 0x0C
def gyroInt3Int4IoMapError : UInt8 := 0x0D
def selfTestAccelError : UInt8 := 0x80
def selfTestGyroError : UInt8 := 0x40
def noSensor : UInt8 := 0xFF

/-- A row of a configuration table: the register, the value for it, and the code when it does
    not read back. -/
structure RegDataError where
  reg : UInt8
  data : UInt8
  error : UInt8
  deriving DecidableEq, Repr

/-- The row of the self test table that turns the positive signal on. -/
def positiveSignal : RegDataError := ⟨accSelfTest, accSelfTestPositiveSignal, accPwrConfError⟩

/-- The row for the negative signal. -/
def negativeSignal : RegDataError := ⟨accSelfTest, accSelfTestNegativeSignal, accPwrConfError⟩

/-- `write_bmi088_accel_self_test_reg_data_error`. -/
def accelSelfTestRegs : List RegDataError :=
  [⟨accConf, accNormal ||| acc1600Hz ||| accConfMustSet, accConfError⟩,
   ⟨accPwrCtrl, accEnableAccOn, accPwrCtrlError⟩,
   ⟨accRange, accRange24G, accRangeError⟩,
   ⟨accPwrConf, accPwrActiveMode, accPwrConfError⟩,
   positiveSignal,
   negativeSignal]

/-- `write_bmi088_accel_reg_data_error`. -/
def accelRegs : List RegDataError :=
  [⟨accPwrCtrl, accEnableAccOn, accPwrCtrlError⟩,
   ⟨accPwrConf, accPwrActiveMode, accPwrConfError⟩,
   ⟨accConf, accNormal ||| acc800Hz ||| accConfMustSet, accConfError⟩,
   ⟨accRange, accRange3G, accRangeError⟩,
   ⟨int1IoCtrl, accInt1IoEnable ||| accInt1GpioPp ||| accInt1GpioLow, int1IoCtrlError⟩,
   ⟨intMapData, accInt1DrdyInterrupt, intMapDataError⟩]

/-- `write_bmi088_gyro_reg_data_error`. -/
def gyroRegs : List RegDataError :=
  [⟨gyroRange, gyro2000, gyroRangeError⟩,
   ⟨gyroBandwidth, gyro1000x116Hz ||| gyroBandwidthMustSet, gyroBandwidthError⟩,
   ⟨gyroLpm1, gyroNormalMode, gyroLpm1Error⟩,
   ⟨gyroCtrl, drdyOn, gyroCtrlError⟩,
   ⟨gyroInt3Int4IoConf, gyroInt3GpioPp ||| gyroInt3GpioLow, gyroInt3Int4IoConfError⟩,
   ⟨gyroInt3Int4IoMap, gyroDrdyIoInt3, gyroInt3Int4IoMapError⟩]

section Driver

variable (answers : ℕ → UInt8)

/-- `bmi088_read_write_byte`, with the select line of `chip` low. -/
def readWriteByte (chip : Chip) (txdata : UInt8) : StateM Sent UInt8 :=
  fun sent => (answers sent.length, sent ++ [(chip, txdata)])

/-- `bmi088_accel_write_single_reg` and `bmi088_gyro_write_single_reg`. -/
def writeSingleReg (chip : Chip) (reg data : UInt8) : StateM Sent Unit := do
  let _ ← readWriteByte answers chip reg
  let _ ← readWriteByte answers chip data
  return ()

/-- `bmi088_accel_read_single_reg` and `bmi088_gyro_read_single_reg`. -/
def readSingleReg (chip : Chip) (reg : UInt8) : StateM Sent UInt8 := do
  let _ ← readWriteByte answers chip (reg ||| 0x80)
  match chip with
  | .accel =>
    -- the accelerometer answers a dummy byte first
    let _ ← readWriteByte answers chip 0x55
    readWriteByte answers chip 0x55
  | .gyro => readWriteByte answers chip 0x55

/-- The loop of `bmi088_read_muli_reg`. -/
def readBytes (chip : Chip) : ℕ → StateM Sent (List UInt8)
  | 0 => return []
  | len + 1 => do
    let byte ← readWriteByte answers chip 0x55
    let rest ← readBytes chip len
    return byte :: rest

/-- `bmi088_accel_read_muli_reg` and `bmi088_gyro_read_muli_reg`. -/
def readMuliReg (chip : Chip) (reg : UInt8) (len : ℕ) : StateM Sent (List UInt8) := do
  match chip with
  | .accel =>
    -- the register goes out twice: once in the macro and once in the function it calls
    let _ ← readWriteByte answers chip (reg ||| 0x80)
    let _ ← readWriteByte answers chip (reg ||| 0x80)
    readBytes answers chip len
  | .gyro =>
    let _ ← readWriteByte answers chip (reg ||| 0x80)
    readBytes answers chip len

/-- Two reads of the identity, a reset of the chip, and two more reads: what every step starts
    with. The last value read is returned. -/
def resetAndIdentify (chip : Chip) (chipId softreset softresetValue : UInt8) :
    StateM Sent UInt8 := do
  let _ ← readSingleReg answers chip chipId
  let _ ← readSingleReg answers chip chipId
  writeSingleReg answers chip softreset softresetValue
  let _ ← readSingleReg answers chip chipId
  readSingleReg answers chip chipId

/-- The loops over the rows of a table: write each register, read it back, and stop with the
    code of the first that does not match. -/
def configure (chip : Chip) : List RegDataError → StateM Sent UInt8
  | [] => return noError
  | row :: rows => do
    writeSingleReg answers chip row.reg row.data
    let res ← readSingleReg answers chip row.reg
    if res ≠ row.data then return row.error
    configure chip rows

/-- The value of a `return` statement with the code `error`, in a function declared `bool`. -/
def asBool (error : UInt8) : Bool := error != 0

/-- The `return` expressions of `bmi088_accel_init` and `bmi088_gyro_init`. -/
def initCode (chip : Chip) (chipId chipIdValue softreset softresetValue : UInt8)
    (rows : List RegDataError) : StateM Sent UInt8 := do
  let res ← resetAndIdentify answers chip chipId softreset softresetValue
  if res ≠ chipIdValue then return noSensor
  configure answers chip rows

/-- `bmi088_accel_init`, with the codes as they are written. -/
def accelInitCode : StateM Sent UInt8 :=
  initCode answers .accel accChipId accChipIdValue accSoftreset accSoftresetValue accelRegs

/-- `bmi088_accel_init`, which is declared `bool`. -/
def accelInit : StateM Sent Bool := return asBool (← accelInitCode answers)

/-- `bmi088_gyro_init`, with the codes as they are written. -/
def gyroInitCode : StateM Sent UInt8 :=
  initCode answers .gyro gyroChipId gyroChipIdValue gyroSoftreset gyroSoftresetValue gyroRegs

/-- `bmi088_gyro_init`, which is declared `bool`. -/
def gyroInit : StateM Sent Bool := return asBool (← gyroInitCode answers)

/-- `(int16_t)(high) << 8 | low`. -/
def int16Of (low high : UInt8) : Int16 := ((high.toUInt16 <<< 8) ||| low.toUInt16).toInt16

/-- The three axes in the first six bytes of a buffer that starts at `k`. -/
def axes (buf : List UInt8) (k : ℕ) : Fin 3 → Int16 :=
  fun i => int16Of (buf.getD (k + 2 * i) 0) (buf.getD (k + 2 * i + 1) 0)

/-- One round of the second loop of `bmi088_accel_self_test`: turn a signal on and read the
    response, unless the register does not read back. -/
def signalResponse (row : RegDataError) : StateM Sent (Option (Fin 3 → Int16)) := do
  writeSingleReg answers .accel row.reg row.data
  let res ← readSingleReg answers .accel row.reg
  if res ≠ row.data then return none
  let buf ← readMuliReg answers .accel accelXoutL 6
  return some (axes buf 0)

/-- The condition under which the two responses are too close. -/
def ResponsesTooClose (positive negative : Fin 3 → Int16) : Prop :=
  (positive 0).toInt - (negative 0).toInt < 1365 ∨
    (positive 1).toInt - (negative 1).toInt < 1365 ∨
    (positive 2).toInt - (negative 2).toInt < 680

instance (positive negative : Fin 3 → Int16) : Decidable (ResponsesTooClose positive negative) :=
  inferInstanceAs (Decidable (_ ∨ _ ∨ _))

/-- The end of `bmi088_accel_self_test`: turn the signal off, reset the chip and compare the two
    responses. -/
def compareResponses (positive negative : Fin 3 → Int16) : StateM Sent UInt8 := do
  writeSingleReg answers .accel accSelfTest accSelfTestOff
  let res ← readSingleReg answers .accel accSelfTest
  if res ≠ accSelfTestOff then return accSelfTestError
  writeSingleReg answers .accel accSoftreset accSoftresetValue
  if ResponsesTooClose positive negative then return selfTestAccelError
  let _ ← readSingleReg answers .accel accChipId
  let _ ← readSingleReg answers .accel accChipId
  return noError

/-- `bmi088_accel_self_test` from its second loop on. -/
def testSignals : StateM Sent UInt8 := do
  let some positive ← signalResponse answers positiveSignal | return positiveSignal.error
  let some negative ← signalResponse answers negativeSignal | return negativeSignal.error
  compareResponses answers positive negative

/-- The `return` expressions of `bmi088_accel_self_test`. -/
def accelSelfTestCode : StateM Sent UInt8 := do
  let res ← resetAndIdentify answers .accel accChipId accSoftreset accSoftresetValue
  if res ≠ accChipIdValue then return noSensor
  let error ← configure answers .accel (accelSelfTestRegs.take 4)
  if error ≠ noError then return error
  testSignals answers

/-- `bmi088_accel_self_test`, which is declared `bool`. -/
def accelSelfTest : StateM Sent Bool := return asBool (← accelSelfTestCode answers)

/-- The `do` loop of `bmi088_gyro_self_test`, when `retry < 10` allows `left` more rounds after
    this one: the register as last read and `retry`. -/
def pollBist : ℕ → UInt8 → StateM Sent (UInt8 × UInt8)
  | 0, retry => do
    let res ← readSingleReg answers .gyro gyroSelfTestReg
    return (res, retry + 1)
  | left + 1, retry => do
    let res ← readSingleReg answers .gyro gyroSelfTestReg
    if res &&& gyroBistRdy ≠ 0 then return (res, retry + 1)
    pollBist left (retry + 1)

/-- The `return` expressions of `bmi088_gyro_self_test`. It reads the identity and does not look
    at it. -/
def gyroSelfTestCode : StateM Sent UInt8 := do
  let _ ← resetAndIdentify answers .gyro gyroChipId gyroSoftreset gyroSoftresetValue
  writeSingleReg answers .gyro gyroSelfTestReg gyroTrigBist
  let (res, retry) ← pollBist answers 9 0
  if retry = 10 then return selfTestGyroError
  if res &&& gyroBistFail ≠ 0 then return selfTestGyroError
  return noError

/-- `bmi088_gyro_self_test`, which is declared `bool`. -/
def gyroSelfTest : StateM Sent Bool := return asBool (← gyroSelfTestCode answers)

/-- One half of `deviceBmi088Init`: what it ORs into `error` for one chip. -/
def testAndInit (selfTest init : StateM Sent Bool) (selfTestError : UInt8) :
    StateM Sent UInt8 := do
  if (← selfTest).toUInt8 ≠ noError then return selfTestError
  return (← init).toUInt8

/-- `deviceBmi088Init`. -/
def deviceBmi088Init : StateM Sent UInt8 := do
  let accel ← testAndInit (accelSelfTest answers) (accelInit answers) selfTestAccelError
  let gyro ← testAndInit (gyroSelfTest answers) (gyroInit answers) selfTestGyroError
  return noError ||| accel ||| gyro

end Driver

end Bmi088

end RmMicroControllers
