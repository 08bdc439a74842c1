import RmMicroControllers.Devices.Bmi088

/-!
# Register accesses on the bus of the BMI088

Where each access looks in the stream of answers, and what it sends. A register of a table is
read back in the last byte of its row, and a chip names itself in the last byte of the fourth
read.

## Main results

- `configure_run` — the outcome of the loop over a table
-/

namespace RmMicroControllers

namespace Bmi088

/-! ### The layout of the accesses -/

/-- Where in a read of one register its value comes. -/
def readOffset : Chip → ℕ
  | .accel => 2
  | .gyro => 1

/-- The bytes sent by a read of one register. -/
def readFrame (chip : Chip) (reg : UInt8) : Sent :=
  (chip, reg ||| 0x80) :: List.replicate (readOffset chip) (chip, 0x55)

/-- The bytes sent by a write of one register. -/
def writeFrame (chip : Chip) (reg data : UInt8) : Sent := [(chip, reg), (chip, data)]

/-- The bytes sent for one row of a table. -/
def rowFrame (chip : Chip) (row : RegDataError) : Sent :=
  writeFrame chip row.reg row.data ++ readFrame chip row.reg

/-- The number of bytes sent for one row. -/
def rowLength (chip : Chip) : ℕ := readOffset chip + 3

/-- The bytes sent by `resetAndIdentify`. -/
def identifyFrame (chip : Chip) (chipId softreset softresetValue : UInt8) : Sent :=
  readFrame chip chipId ++ readFrame chip chipId ++ writeFrame chip softreset softresetValue ++
    readFrame chip chipId ++ readFrame chip chipId

/-- The number of bytes sent by `resetAndIdentify`. -/
def identifyLength (chip : Chip) : ℕ := 4 * readOffset chip + 6

@[simp]
theorem readFrame_length (chip : Chip) (reg : UInt8) :
    (readFrame chip reg).length = readOffset chip + 1 := by
  simp [readFrame]

@[simp]
theorem writeFrame_length (chip : Chip) (reg data : UInt8) :
    (writeFrame chip reg data).length = 2 := rfl

@[simp]
theorem rowFrame_length (chip : Chip) (row : RegDataError) :
    (rowFrame chip row).length = rowLength chip := by
  simp [rowFrame, rowLength]
  omega

@[simp]
theorem identifyFrame_length (chip : Chip) (chipId softreset softresetValue : UInt8) :
    (identifyFrame chip chipId softreset softresetValue).length = identifyLength chip := by
  simp [identifyFrame, identifyLength]
  omega

section Runs

variable (answers : ℕ → UInt8)

@[simp]
theorem readWriteByte_run (chip : Chip) (txdata : UInt8) (sent : Sent) :
    (readWriteByte answers chip txdata).run sent =
      pure (answers sent.length, sent ++ [(chip, txdata)]) := rfl

@[simp]
theorem writeSingleReg_run (chip : Chip) (reg data : UInt8) (sent : Sent) :
    (writeSingleReg answers chip reg data).run sent =
      pure ((), sent ++ writeFrame chip reg data) := by
  simp [writeSingleReg, writeFrame]

@[simp]
theorem readSingleReg_run (chip : Chip) (reg : UInt8) (sent : Sent) :
    (readSingleReg answers chip reg).run sent =
      pure (answers (sent.length + readOffset chip), sent ++ readFrame chip reg) := by
  cases chip with
  | accel => simp [readSingleReg, readFrame, readOffset, List.replicate]
  | gyro => simp [readSingleReg, readFrame, readOffset]

@[simp]
theorem resetAndIdentify_run (chip : Chip) (chipId softreset softresetValue : UInt8)
    (sent : Sent) :
    (resetAndIdentify answers chip chipId softreset softresetValue).run sent =
      pure (answers (sent.length + 4 * readOffset chip + 5),
        sent ++ identifyFrame chip chipId softreset softresetValue) := by
  have hpos : (sent ++ readFrame chip chipId ++ readFrame chip chipId ++
      writeFrame chip softreset softresetValue ++ readFrame chip chipId).length +
        readOffset chip = sent.length + 4 * readOffset chip + 5 := by
    simp only [List.length_append, readFrame_length, writeFrame_length]
    omega
  simp only [resetAndIdentify, StateT.run_bind, readSingleReg_run, writeSingleReg_run, pure_bind]
  rw [hpos]
  simp [identifyFrame]

/-! ### Blocks of registers -/

variable {answers}

theorem readBytes_run (chip : Chip) (len : ℕ) (sent : Sent) :
    (readBytes answers chip len).run sent =
      pure ((List.range len).map (fun k => answers (sent.length + k)),
        sent ++ List.replicate len (chip, 0x55)) := by
  induction len generalizing sent with
  | zero => simp [readBytes]
  | succ len ih =>
    have hshift : (fun k => answers (sent.length + k)) ∘ Nat.succ =
        fun k => answers (sent.length + 1 + k) := by
      funext k
      exact congrArg answers (by omega)
    rw [List.range_succ_eq_map, List.map_cons, List.map_map, hshift, List.replicate_succ]
    simp [readBytes, ih]

/-- The bytes sent for a block of the accelerometer. -/
def accelBlockFrame (reg : UInt8) (len : ℕ) : Sent :=
  (.accel, reg ||| 0x80) :: (.accel, reg ||| 0x80) :: List.replicate len (.accel, 0x55)

theorem readMuliReg_accel_run (reg : UInt8) (len : ℕ) (sent : Sent) :
    (readMuliReg answers .accel reg len).run sent =
      pure ((List.range len).map (fun k => answers (sent.length + 2 + k)),
        sent ++ accelBlockFrame reg len) := by
  simp [readMuliReg, readBytes_run, accelBlockFrame]

/-- The bytes sent for a block of the gyroscope. -/
def gyroBlockFrame (reg : UInt8) (len : ℕ) : Sent :=
  (.gyro, reg ||| 0x80) :: List.replicate len (.gyro, 0x55)

theorem readMuliReg_gyro_run (reg : UInt8) (len : ℕ) (sent : Sent) :
    (readMuliReg answers .gyro reg len).run sent =
      pure ((List.range len).map (fun k => answers (sent.length + 1 + k)),
        sent ++ gyroBlockFrame reg len) := by
  simp [readMuliReg, readBytes_run, gyroBlockFrame]

variable (answers)

/-- The three axes in the six answers from `k` on. -/
def axesAt (k : ℕ) : Fin 3 → Int16 :=
  fun i => int16Of (answers (k + 2 * i)) (answers (k + 2 * i + 1))

variable {answers}

/-- The axes in a buffer that was filled from the answers at `p`. -/
theorem axes_map (p k n : ℕ) (h : k + 6 ≤ n) :
    axes ((List.range n).map (fun j => answers (p + j))) k = axesAt answers (p + k) := by
  have hget : ∀ j, j < n → ((List.range n).map (fun j => answers (p + j))).getD j 0 =
      answers (p + j) := by
    intro j hj
    simp [List.getD, hj]
  funext i
  have hi : i.val < 3 := i.isLt
  rw [axes, axesAt]
  rw [hget _ (by omega), hget _ (by omega)]
  simp only [Nat.add_assoc]

/-! ### The tables -/

variable (answers)

/-- The register of a row whose bytes start at `p` reads back the value written to it. -/
def ReadsBack (chip : Chip) (row : RegDataError) (p : ℕ) : Prop :=
  answers (p + 2 + readOffset chip) = row.data

instance (chip : Chip) (row : RegDataError) (p : ℕ) : Decidable (ReadsBack answers chip row p) :=
  inferInstanceAs (Decidable (_ = _))

/-- Every register of a table whose bytes start at `p` reads back. -/
def AllReadBack (chip : Chip) (rows : List RegDataError) (p : ℕ) : Prop :=
  ∀ i row, rows[i]? = some row → ReadsBack answers chip row (p + rowLength chip * i)

/-- `row` is the first of a table, at index `i`, that does not read back. -/
structure FirstMismatch (chip : Chip) (rows : List RegDataError) (p i : ℕ)
    (row : RegDataError) : Prop where
  getElem_eq : rows[i]? = some row
  mismatch : ¬ ReadsBack answers chip row (p + rowLength chip * i)
  before : ∀ j r, j < i → rows[j]? = some r → ReadsBack answers chip r (p + rowLength chip * j)

variable {answers}

theorem AllReadBack.cons {chip : Chip} {row : RegDataError} {rows : List RegDataError} {p : ℕ}
    (h : ReadsBack answers chip row p) (hs : AllReadBack answers chip rows (p + rowLength chip)) :
    AllReadBack answers chip (row :: rows) p := by
  intro i r hr
  cases i with
  | zero =>
    obtain rfl : row = r := by simpa using hr
    simpa using h
  | succ i =>
    rw [Nat.mul_succ, Nat.add_comm (rowLength chip * i), ← Nat.add_assoc]
    exact hs i r (by simpa using hr)

theorem FirstMismatch.zero {chip : Chip} {row : RegDataError} {rows : List RegDataError} {p : ℕ}
    (h : ¬ ReadsBack answers chip row p) :
    FirstMismatch answers chip (row :: rows) p 0 row :=
  ⟨rfl, h, fun j _ hj => absurd hj (Nat.not_lt_zero j)⟩

theorem FirstMismatch.succ {chip : Chip} {row r : RegDataError} {rows : List RegDataError}
    {p i : ℕ} (h : ReadsBack answers chip row p)
    (hs : FirstMismatch answers chip rows (p + rowLength chip) i r) :
    FirstMismatch answers chip (row :: rows) p (i + 1) r := by
  have hshift : ∀ k, p + rowLength chip * (k + 1) = p + rowLength chip + rowLength chip * k := by
    intro k
    rw [Nat.mul_succ, Nat.add_comm (rowLength chip * k), ← Nat.add_assoc]
  refine ⟨hs.getElem_eq, ?_, ?_⟩
  · rw [hshift]
    exact hs.mismatch
  · intro j r' hj hr'
    cases j with
    | zero =>
      obtain rfl : row = r' := by simpa using hr'
      simpa using h
    | succ j =>
      rw [hshift]
      exact hs.before j r' (by omega) (by simpa using hr')

theorem AllReadBack.not_firstMismatch {chip : Chip} {rows : List RegDataError} {p i : ℕ}
    {row : RegDataError} (h : AllReadBack answers chip rows p) :
    ¬ FirstMismatch answers chip rows p i row :=
  fun hm => hm.mismatch (h i row hm.getElem_eq)

/-- The first row to fail is the only one. -/
theorem FirstMismatch.unique {chip : Chip} {rows : List RegDataError} {p i j : ℕ}
    {row r : RegDataError} (h : FirstMismatch answers chip rows p i row)
    (h' : FirstMismatch answers chip rows p j r) : i = j ∧ row = r := by
  obtain hij | rfl | hij := Nat.lt_trichotomy i j
  · exact absurd (h'.before i row hij h.getElem_eq) h.mismatch
  · exact ⟨rfl, Option.some.inj (h.getElem_eq.symm.trans h'.getElem_eq)⟩
  · exact absurd (h.before j r hij h'.getElem_eq) h'.mismatch

/-- One round of the loop over a table. -/
theorem configure_cons (chip : Chip) (row : RegDataError) (rows : List RegDataError)
    (sent : Sent) :
    (configure answers chip (row :: rows)).run sent =
      if ReadsBack answers chip row sent.length then
        (configure answers chip rows).run (sent ++ rowFrame chip row)
      else pure (row.error, sent ++ rowFrame chip row) := by
  have hres : answers ((sent ++ writeFrame chip row.reg row.data).length + readOffset chip) =
      row.data ↔ ReadsBack answers chip row sent.length := by
    simp [ReadsBack]
  simp only [configure, StateT.run_bind, writeSingleReg_run, pure_bind, readSingleReg_run]
  by_cases h : ReadsBack answers chip row sent.length
  · rw [if_pos h, if_neg (not_not.mpr (hres.mpr h)), List.append_assoc]
    rfl
  · rw [if_neg h, if_pos (mt hres.mp h), List.append_assoc]
    rfl

variable (answers) in
/-- The loop over a table ends with `BMI088_NO_ERROR` when every register reads back, and with
    the code of the first that does not otherwise, having sent the rows up to that one. -/
theorem configure_run (chip : Chip) (rows : List RegDataError) (sent : Sent) :
    (AllReadBack answers chip rows sent.length ∧
      (configure answers chip rows).run sent =
        pure (noError, sent ++ rows.flatMap (rowFrame chip))) ∨
    ∃ i row, FirstMismatch answers chip rows sent.length i row ∧
      (configure answers chip rows).run sent =
        pure (row.error, sent ++ (rows.take (i + 1)).flatMap (rowFrame chip)) := by
  induction rows generalizing sent with
  | nil => exact Or.inl ⟨by intro i row h; simp at h, by simp [configure]⟩
  | cons row rows ih =>
    rw [configure_cons]
    by_cases h : ReadsBack answers chip row sent.length
    · rw [if_pos h]
      have hlen : (sent ++ rowFrame chip row).length = sent.length + rowLength chip := by simp
      -- the later rows start after the bytes of this one
      obtain ⟨hall, hrun⟩ | ⟨i, r, hfirst, hrun⟩ := ih (sent ++ rowFrame chip row)
      · rw [hlen] at hall
        exact Or.inl ⟨hall.cons h, by rw [hrun]; simp⟩
      · rw [hlen] at hfirst
        exact Or.inr ⟨i + 1, r, hfirst.succ h, by rw [hrun]; simp⟩
    · rw [if_neg h]
      exact Or.inr ⟨0, row, .zero h, by simp⟩

theorem rowFrames_length (chip : Chip) (rows : List RegDataError) :
    (rows.flatMap (rowFrame chip)).length = rowLength chip * rows.length := by
  induction rows with
  | nil => rfl
  | cons row rows ih => simp [ih, Nat.mul_succ, Nat.add_comm]

/-- No row of a table has the code of success. -/
theorem accelSelfTestRegs_error : ∀ row ∈ accelSelfTestRegs, row.error ≠ noError := by decide

theorem accelRegs_error : ∀ row ∈ accelRegs, row.error ≠ noError := by decide

theorem gyroRegs_error : ∀ row ∈ gyroRegs, row.error ≠ noError := by decide

variable (answers)

/-- A chip names itself in the last byte of a `resetAndIdentify` that starts at `p`. -/
def Identifies (chip : Chip) (chipIdValue : UInt8) (p : ℕ) : Prop :=
  answers (p + 4 * readOffset chip + 5) = chipIdValue

instance (chip : Chip) (chipIdValue : UInt8) (p : ℕ) :
    Decidable (Identifies answers chip chipIdValue p) :=
  inferInstanceAs (Decidable (_ = _))

end Runs

end Bmi088

end RmMicroControllers
