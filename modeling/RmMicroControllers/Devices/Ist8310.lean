import RmMicroControllers.Devices.Bmi088

/-!
# The IST8310 driver

`ist8310.c` over its I2C bus. `answers n` is the `n`-th byte that the bus brings, whatever the
device or a failed transfer leaves in the buffer, so a function of the driver is a computation on
the calls made so far and the number of bytes read.

## Main results

- `configure_run` — the calls of the loop over the table, and its result
- `deviceIst8310Init_reports` — what the result of initialisation tells
-/

namespace RmMicroControllers

namespace Ist8310

open Bmi088 (RegDataError int16Of axes)

/-- `IST8310_NO_ERROR`. -/
def noError : UInt8 := 0x00

/-- `IST8310_NO_SENSOR`. -/
def noSensor : UInt8 := 0x40

/-- `IST8310_WHO_AM_I`. -/
def whoAmI : UInt8 := 0x00

/-- `IST8310_WHO_AM_I_VALUE`. -/
def whoAmIValue : UInt8 := 0x10

/-- `MAG_SEN`. -/
def magSen : ℚ := 0.3

/-- `ist8310_write_reg_data_error`. -/
def writeRegDataError : List RegDataError :=
  [⟨0x0B, 0x08, 0x01⟩, ⟨0x41, 0x09, 0x02⟩, ⟨0x42, 0xC0, 0x03⟩, ⟨0x0A, 0x0B, 0x04⟩]

/-- What the driver does on the bus, on the reset line and on the clock. -/
inductive BusCall where
  | resetFall
  | resetRise
  | read (reg : UInt8) (len : ℕ)
  | write (reg data : UInt8)
  | delayMs (ms : ℕ)
  deriving DecidableEq

/-- The calls made so far, and the number of bytes that they have read. -/
structure Bus where
  calls : List BusCall := []
  bytes : ℕ := 0

/-- A call that reads nothing. -/
def emit (call : BusCall) : StateM Bus Unit :=
  fun bus => ((), { bus with calls := bus.calls ++ [call] })

section Driver

variable (answers : ℕ → UInt8)

/-- `ist8310_IIC_read_muli_reg`. -/
def readMuliReg (reg : UInt8) (len : ℕ) : StateM Bus (List UInt8) :=
  fun bus => ((List.range len).map fun k => answers (bus.bytes + k),
    ⟨bus.calls ++ [.read reg len], bus.bytes + len⟩)

/-- `ist8310_IIC_read_single_reg`. -/
def readSingleReg (reg : UInt8) : StateM Bus UInt8 :=
  fun bus => (answers bus.bytes, ⟨bus.calls ++ [.read reg 1], bus.bytes + 1⟩)

/-- The loop over the rows of the table. -/
def configure : List RegDataError → StateM Bus UInt8
  | [] => return noError
  | row :: rows => do
    emit (.write row.reg row.data)
    emit (.delayMs 1)
    let res ← readSingleReg answers row.reg
    emit (.delayMs 1)
    if res ≠ row.data then return row.error
    configure rows

/-- `deviceIst8310Init`. -/
def deviceIst8310Init : StateM Bus UInt8 := do
  emit .resetFall
  emit (.delayMs 50)
  emit .resetRise
  emit (.delayMs 50)
  let res ← readSingleReg answers whoAmI
  if res ≠ whoAmIValue then return noSensor
  emit (.delayMs 1)
  configure answers writeRegDataError

/-- `deviceIst8310ReadMagnitude`. -/
def deviceIst8310ReadMagnitude : StateM Bus (Fin 3 → ℚ) := do
  let buf ← readMuliReg answers 0x03 6
  return fun i => magSen * (axes buf 0 i).toInt

end Driver

/-! ### Initialisation -/

section Runs

variable (answers : ℕ → UInt8)

/-- How many registers of a table read back before one that does not, when the answers for the
table start at `p`. -/
def accepted : List RegDataError → ℕ → ℕ
  | [], _ => 0
  | row :: rows, p => if answers p = row.data then accepted rows (p + 1) + 1 else 0

/-- The calls for one row. -/
def rowCalls (row : RegDataError) : List BusCall :=
  [.write row.reg row.data, .delayMs 1, .read row.reg 1, .delayMs 1]

/-- The calls for the identity. -/
def identifyCalls : List BusCall :=
  [.resetFall, .delayMs 50, .resetRise, .delayMs 50, .read whoAmI 1]

@[simp]
theorem emit_run (call : BusCall) (bus : Bus) :
    (emit call).run bus = pure ((), { bus with calls := bus.calls ++ [call] }) := rfl

@[simp]
theorem readSingleReg_run (reg : UInt8) (bus : Bus) :
    (readSingleReg answers reg).run bus =
      pure (answers bus.bytes, ⟨bus.calls ++ [.read reg 1], bus.bytes + 1⟩) := rfl

variable {answers}

theorem accepted_le (rows : List RegDataError) (p : ℕ) :
    accepted answers rows p ≤ rows.length := by
  induction rows generalizing p with
  | nil => exact le_rfl
  | cons row rows ih =>
    rw [accepted]
    split
    · exact Nat.succ_le_succ (ih (p + 1))
    · exact Nat.zero_le _

/-- The loop stops after the first register that does not read back, with its code. -/
theorem configure_run (rows : List RegDataError) (bus : Bus) :
    (configure answers rows).run bus =
      pure (((rows[accepted answers rows bus.bytes]?).map (·.error)).getD noError,
        ⟨bus.calls ++ (rows.take (accepted answers rows bus.bytes + 1)).flatMap rowCalls,
          bus.bytes + (rows.take (accepted answers rows bus.bytes + 1)).length⟩) := by
  induction rows generalizing bus with
  | nil => simp [configure, accepted]
  | cons row rows ih =>
    have hrow : (configure answers (row :: rows)).run bus =
        if answers bus.bytes = row.data then
          (configure answers rows).run ⟨bus.calls ++ rowCalls row, bus.bytes + 1⟩
        else pure (row.error, ⟨bus.calls ++ rowCalls row, bus.bytes + 1⟩) := by
      simp only [configure, StateT.run_bind, emit_run, readSingleReg_run, pure_bind, rowCalls,
        List.append_assoc, List.cons_append, List.nil_append]
      by_cases hdata : answers bus.bytes = row.data
      · rw [if_neg (not_not.mpr hdata), if_pos hdata]
      · rw [if_pos hdata, if_neg hdata]
        rfl
    rw [hrow, accepted]
    split
    · rw [ih]
      simp [Nat.add_assoc, Nat.add_comm 1]
    · simp

/-- A device that does not name itself is not configured. -/
theorem deviceIst8310Init_run (bus : Bus) :
    (deviceIst8310Init answers).run bus =
      if answers bus.bytes = whoAmIValue then
        (configure answers writeRegDataError).run
          ⟨bus.calls ++ identifyCalls ++ [.delayMs 1], bus.bytes + 1⟩
      else pure (noSensor, ⟨bus.calls ++ identifyCalls, bus.bytes + 1⟩) := by
  simp only [deviceIst8310Init, StateT.run_bind, emit_run, readSingleReg_run, pure_bind,
    identifyCalls, List.append_assoc, List.cons_append, List.nil_append]
  by_cases hid : answers bus.bytes = whoAmIValue
  · rw [if_neg (not_not.mpr hid), if_pos hid]
    simp
  · rw [if_pos hid, if_neg hid]
    rfl

/-- The device names itself in the answer at `p`, and every register of the table reads back. -/
def Answers (answers : ℕ → UInt8) (p : ℕ) : Prop :=
  answers p = whoAmIValue ∧
    ∀ i row, writeRegDataError[i]? = some row → answers (p + 1 + i) = row.data

theorem accepted_eq_length_iff (rows : List RegDataError) (p : ℕ) :
    accepted answers rows p = rows.length ↔
      ∀ i row, rows[i]? = some row → answers (p + i) = row.data := by
  induction rows generalizing p with
  | nil => simp [accepted]
  | cons row rows ih =>
    have htail : (∀ i r, (row :: rows)[i]? = some r → answers (p + i) = r.data) ↔
        answers p = row.data ∧ ∀ i r, rows[i]? = some r → answers (p + 1 + i) = r.data := by
      constructor
      · intro h
        refine ⟨h 0 row rfl, fun i r hr => ?_⟩
        rw [Nat.add_assoc, Nat.add_comm 1]
        exact h (i + 1) r hr
      · rintro ⟨hhead, hrows⟩ i r hr
        cases i with
        | zero =>
          obtain rfl := Option.some.inj hr
          exact hhead
        | succ i =>
          rw [Nat.add_comm i, ← Nat.add_assoc]
          exact hrows i r hr
    rw [htail, ← ih, accepted, List.length_cons]
    split
    · next hhead => simp [hhead]
    · next hhead => simp [hhead]

/-- `row`, at index `i` of a table, is the first that does not read back. -/
def FirstMismatch (answers : ℕ → UInt8) (rows : List RegDataError) (p i : ℕ)
    (row : RegDataError) : Prop :=
  answers (p + i) ≠ row.data ∧
    ∀ j r, j < i → rows[j]? = some r → answers (p + j) = r.data

theorem accepted_eq_iff {rows : List RegDataError} {p i : ℕ} {row : RegDataError}
    (hrow : rows[i]? = some row) :
    accepted answers rows p = i ↔ FirstMismatch answers rows p i row := by
  induction rows generalizing p i with
  | nil => cases hrow
  | cons head rows ih =>
    rw [accepted, FirstMismatch]
    cases i with
    | zero =>
      obtain rfl := Option.some.inj hrow
      split
      · next hhead => exact iff_of_false (Nat.succ_ne_zero _) fun h => h.1 hhead
      · next hhead =>
        exact iff_of_true rfl ⟨hhead, fun j r hj => absurd hj (Nat.not_lt_zero j)⟩
    | succ i =>
      have hshift : ∀ k, p + (k + 1) = p + 1 + k := fun k => by omega
      split
      · next hhead =>
        rw [Nat.succ_inj, ih hrow, FirstMismatch, hshift i]
        apply and_congr_right
        intro _
        constructor
        · rintro h (_ | j) r hj hr
          · obtain rfl := Option.some.inj hr
            exact hhead
          · rw [hshift]
            exact h j r (Nat.lt_of_succ_lt_succ hj) hr
        · intro h j r hj hr
          rw [← hshift]
          exact h (j + 1) r (Nat.succ_lt_succ hj) hr
      · next hhead =>
        exact iff_of_false (Nat.succ_ne_zero i).symm fun h =>
          hhead (h.2 0 head (Nat.succ_pos i) rfl)

/-- Initialisation returns 0 exactly when the device names itself and all registers read back,
and otherwise the code of the first step that went wrong, whatever the bus answers. -/
theorem deviceIst8310Init_reports (bus : Bus) :
    (((deviceIst8310Init answers).run bus).1 = noError ↔ Answers answers bus.bytes) ∧
    (((deviceIst8310Init answers).run bus).1 = noSensor ↔ answers bus.bytes ≠ whoAmIValue) ∧
    ∀ i row, writeRegDataError[i]? = some row →
      (((deviceIst8310Init answers).run bus).1 = row.error ↔ answers bus.bytes = whoAmIValue ∧
        FirstMismatch answers writeRegDataError (bus.bytes + 1) i row) := by
  have hcodes : ∀ n ≤ 4, ∀ i < 4, ∀ row, writeRegDataError[i]? = some row →
      (((writeRegDataError[n]?).map (·.error)).getD noError = row.error ↔ n = i) := by
    intro n hn i hi row hrow
    obtain rfl := (Option.some.inj ((List.getElem?_eq_getElem hi).symm.trans hrow)).symm
    revert n i
    decide
  have hgood : ∀ n ≤ 4, (((writeRegDataError[n]?).map (·.error)).getD noError = noError ↔ n = 4) ∧
      ((writeRegDataError[n]?).map (·.error)).getD noError ≠ noSensor := by decide
  have herrors : ∀ row ∈ writeRegDataError, noSensor ≠ row.error := by decide
  rw [deviceIst8310Init_run, Answers, ← accepted_eq_length_iff]
  by_cases hid : answers bus.bytes = whoAmIValue
  · have hle := @accepted_le answers writeRegDataError (bus.bytes + 1)
    rw [if_pos hid, configure_run]
    refine ⟨((hgood _ hle).1).trans (and_iff_right hid).symm,
      iff_of_false (hgood _ hle).2 fun hno => hno hid, fun i row hrow => ?_⟩
    have hi : i < 4 := (List.getElem?_eq_some_iff.mp hrow).1
    rw [and_iff_right hid, ← accepted_eq_iff hrow]
    exact hcodes _ hle i hi row hrow
  · rw [if_neg hid]
    refine ⟨iff_of_false ?_ fun h => hid h.1, iff_of_true rfl hid, fun i row hrow =>
      iff_of_false (herrors row (List.mem_of_getElem? hrow)) fun h => hid h.1⟩
    change ¬ noSensor = noError
    decide

end Runs

end Ist8310

end RmMicroControllers
