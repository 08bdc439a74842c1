import Mathlib.Tactic.FinCases
import Mathlib.Tactic.Ring
import RmMicroControllers.Tool.Transimition

/-!
# The format of the remote control

`DbusFields` are the fields of a frame and `encode` their layout, least significant bit first:
four sticks of 11 bits and two switches of 2 bits in the first six bytes, then little-endian
words and single bytes. `dbusUpdate` decodes exactly this format.

## Main results

- `encode_bijective` — every eighteen bytes are the encoding of one tuple of fields
- `dbusUpdate_exact` — what `dbusUpdate` answers and stores for the encoding of a tuple
-/

namespace RmMicroControllers

/-- The fields of a frame. -/
structure DbusFields where
  stick : Fin 4 → Fin 2048
  switch : Fin 2 → Fin 4
  mouseX : UInt16
  mouseY : UInt16
  mouseZ : UInt16
  pressL : UInt8
  pressR : UInt8
  key : UInt16
  wheel : UInt16

namespace DbusFields

/-- The sticks and switches as one number of 48 bits. -/
def head (t : DbusFields) : ℕ :=
  t.stick 0 + 2 ^ 11 * t.stick 1 + 2 ^ 22 * t.stick 2 + 2 ^ 33 * t.stick 3 +
    2 ^ 44 * t.switch 0 + 2 ^ 46 * t.switch 1

/-- Byte `i` of a number, the least significant one first. -/
def byte (n i : ℕ) : UInt8 := UInt8.ofNat (n / 256 ^ i)

/-- The layout of the format. -/
def encode (t : DbusFields) : DbusFrame :=
  ![byte t.head 0, byte t.head 1, byte t.head 2, byte t.head 3, byte t.head 4, byte t.head 5,
    byte t.mouseX.toNat 0, byte t.mouseX.toNat 1, byte t.mouseY.toNat 0, byte t.mouseY.toNat 1,
    byte t.mouseZ.toNat 0, byte t.mouseZ.toNat 1, t.pressL, t.pressR,
    byte t.key.toNat 0, byte t.key.toNat 1, byte t.wheel.toNat 0, byte t.wheel.toNat 1]

/-- The sticks are within `RC_CH_VALUE_MIN` and `RC_CH_VALUE_MAX`, and both switches answer. -/
structure Valid (t : DbusFields) : Prop where
  stick : ∀ k, 364 ≤ (t.stick k).val ∧ (t.stick k).val ≤ 1684
  switch : ∀ k, t.switch k ≠ 0

/-- The data that a tuple stands for: sticks and wheel are centred at `RC_CH_VALUE_OFFSET`, and
    every 16-bit number is one of two's complement. -/
structure Represents (t : DbusFields) (d : DbusData) : Prop where
  channel : ∀ k : Fin 4, (d.channel k.castSucc).toInt = Int.bmod ((t.stick k).val - 1024) 65536
  wheel : (d.channel 4).toInt = Int.bmod (t.wheel.toNat - 1024) 65536
  button : ∀ k, (d.button k).toNat = t.switch k
  mouseX : d.mouseX.toInt = Int.bmod t.mouseX.toNat 65536
  mouseY : d.mouseY.toInt = Int.bmod t.mouseY.toNat 65536
  mouseZ : d.mouseZ.toInt = Int.bmod t.mouseZ.toNat 65536
  pressL : d.pressL = t.pressL
  pressR : d.pressR = t.pressR
  key : d.key = t.key

/-- A tuple is determined by its data. -/
theorem Represents.unique {t u : DbusFields} {d : DbusData} (ht : t.Represents d)
    (hu : u.Represents d) : t = u := by
  have hword : ∀ {x y : UInt16}, Int.bmod x.toNat 65536 = Int.bmod y.toNat 65536 → x = y := by
    intro x y h
    have hx := x.toNat_lt
    have hy := y.toNat_lt
    apply UInt16.toNat_inj.mp
    rw [Int.bmod_eq_bmod_iff_bmod_sub_eq_zero] at h
    have := Int.dvd_of_bmod_eq_zero h
    omega
  have hcentred : ∀ {x y : ℕ}, x < 65536 → y < 65536 →
      Int.bmod (x - 1024) 65536 = Int.bmod (y - 1024) 65536 → x = y := by
    intro x y hx hy h
    rw [Int.bmod_eq_bmod_iff_bmod_sub_eq_zero] at h
    have := Int.dvd_of_bmod_eq_zero h
    omega
  have hstick : t.stick = u.stick := funext fun k => Fin.ext (hcentred
    (by have := (t.stick k).isLt; omega) (by have := (u.stick k).isLt; omega)
    ((ht.channel k).symm.trans (hu.channel k)))
  have hswitch : t.switch = u.switch := funext fun k =>
    Fin.ext ((ht.button k).symm.trans (hu.button k))
  have hwheel : t.wheel = u.wheel := UInt16.toNat_inj.mp (hcentred t.wheel.toNat_lt
    u.wheel.toNat_lt (ht.wheel.symm.trans hu.wheel))
  have hx := hword (ht.mouseX.symm.trans hu.mouseX)
  have hy := hword (ht.mouseY.symm.trans hu.mouseY)
  have hz := hword (ht.mouseZ.symm.trans hu.mouseZ)
  have hl := ht.pressL.symm.trans hu.pressL
  have hr := ht.pressR.symm.trans hu.pressR
  have hkey := ht.key.symm.trans hu.key
  cases t
  cases u
  simp_all only

/-! ### The format is a bijection -/

theorem byte_toNat (n i : ℕ) : (byte n i).toNat = n / 256 ^ i % 256 := UInt8.toNat_ofNat'

/-- The first six bytes as one number. -/
def headNumber (f : DbusFrame) : ℕ :=
  (f 0).toNat + 256 * (f 1).toNat + 256 ^ 2 * (f 2).toNat + 256 ^ 3 * (f 3).toNat +
    256 ^ 4 * (f 4).toNat + 256 ^ 5 * (f 5).toNat

/-- Two bytes as one word. -/
def word (lo hi : UInt8) : UInt16 := UInt16.ofNat (lo.toNat + 256 * hi.toNat)

/-- The tuple that a frame encodes. -/
def ofFrame (f : DbusFrame) : DbusFields where
  stick k := Fin.ofNat 2048 (headNumber f / 2 ^ (11 * k.val))
  switch k := Fin.ofNat 4 (headNumber f / 2 ^ (44 + 2 * k.val))
  mouseX := word (f 6) (f 7)
  mouseY := word (f 8) (f 9)
  mouseZ := word (f 10) (f 11)
  pressL := f 12
  pressR := f 13
  key := word (f 14) (f 15)
  wheel := word (f 16) (f 17)

theorem word_byte (w : UInt16) : word (byte w.toNat 0) (byte w.toNat 1) = w := by
  have hw := w.toNat_lt
  apply UInt16.toNat_inj.mp
  rw [word, UInt16.toNat_ofNat', byte_toNat, byte_toNat]
  omega

theorem byte_word (lo hi : UInt8) :
    byte (word lo hi).toNat 0 = lo ∧ byte (word lo hi).toNat 1 = hi := by
  have hlo := lo.toNat_lt
  have hhi := hi.toNat_lt
  have hword : (word lo hi).toNat = lo.toNat + 256 * hi.toNat := by
    rw [word, UInt16.toNat_ofNat']
    omega
  constructor <;> refine UInt8.toNat_inj.mp ?_ <;> rw [byte_toNat, hword] <;> omega

theorem headNumber_encode (t : DbusFields) : headNumber t.encode = t.head := by
  have h0 := (t.stick 0).isLt
  have h1 := (t.stick 1).isLt
  have h2 := (t.stick 2).isLt
  have h3 := (t.stick 3).isLt
  have h4 := (t.switch 0).isLt
  have h5 := (t.switch 1).isLt
  have hlt : t.head < 2 ^ 48 := by unfold head; omega
  show (byte t.head 0).toNat + 256 * (byte t.head 1).toNat + 256 ^ 2 * (byte t.head 2).toNat +
    256 ^ 3 * (byte t.head 3).toNat + 256 ^ 4 * (byte t.head 4).toNat +
    256 ^ 5 * (byte t.head 5).toNat = t.head
  simp only [byte_toNat]
  omega

/-- The parts of the first number are the sticks. -/
theorem head_stick (t : DbusFields) (k : Fin 4) :
    t.head / 2 ^ (11 * k.val) % 2048 = (t.stick k).val := by
  have h0 := (t.stick 0).isLt
  have h1 := (t.stick 1).isLt
  have h2 := (t.stick 2).isLt
  have h3 := (t.stick 3).isLt
  rw [head]
  match k with
  | 0 => show _ / 2 ^ 0 % 2048 = _; omega
  | 1 => show _ / 2 ^ 11 % 2048 = _; omega
  | 2 => show _ / 2 ^ 22 % 2048 = _; omega
  | 3 => show _ / 2 ^ 33 % 2048 = _; omega

/-- The parts of the first number above the sticks are the switches. -/
theorem head_switch (t : DbusFields) (k : Fin 2) :
    t.head / 2 ^ (44 + 2 * k.val) % 4 = (t.switch k).val := by
  have h0 := (t.stick 0).isLt
  have h1 := (t.stick 1).isLt
  have h2 := (t.stick 2).isLt
  have h3 := (t.stick 3).isLt
  have h4 := (t.switch 0).isLt
  have h5 := (t.switch 1).isLt
  rw [head]
  match k with
  | 0 => show _ / 2 ^ 44 % 4 = _; omega
  | 1 => show _ / 2 ^ 46 % 4 = _; omega

theorem ofFrame_encode (t : DbusFields) : ofFrame t.encode = t := by
  have hstick : (ofFrame t.encode).stick = t.stick := by
    funext k
    apply Fin.ext
    show headNumber t.encode / 2 ^ (11 * k.val) % 2048 = (t.stick k).val
    rw [headNumber_encode, head_stick]
  have hswitch : (ofFrame t.encode).switch = t.switch := by
    funext k
    apply Fin.ext
    show headNumber t.encode / 2 ^ (44 + 2 * k.val) % 4 = (t.switch k).val
    rw [headNumber_encode, head_switch]
  have hx : (ofFrame t.encode).mouseX = t.mouseX := word_byte _
  have hy : (ofFrame t.encode).mouseY = t.mouseY := word_byte _
  have hz : (ofFrame t.encode).mouseZ = t.mouseZ := word_byte _
  have hl : (ofFrame t.encode).pressL = t.pressL := rfl
  have hr : (ofFrame t.encode).pressR = t.pressR := rfl
  have hkey : (ofFrame t.encode).key = t.key := word_byte _
  have hwheel : (ofFrame t.encode).wheel = t.wheel := word_byte _
  cases hf : ofFrame t.encode
  cases t
  simp_all only

theorem encode_ofFrame (f : DbusFrame) : (ofFrame f).encode = f := by
  have h0 := (f 0).toNat_lt
  have h1 := (f 1).toNat_lt
  have h2 := (f 2).toNat_lt
  have h3 := (f 3).toNat_lt
  have h4 := (f 4).toNat_lt
  have h5 := (f 5).toNat_lt
  have hhead : (ofFrame f).head = headNumber f := by
    have hlt : headNumber f < 2 ^ 48 := by unfold headNumber; omega
    show headNumber f / 2 ^ (11 * 0) % 2048 + 2 ^ 11 * (headNumber f / 2 ^ (11 * 1) % 2048) +
      2 ^ 22 * (headNumber f / 2 ^ (11 * 2) % 2048) +
      2 ^ 33 * (headNumber f / 2 ^ (11 * 3) % 2048) +
      2 ^ 44 * (headNumber f / 2 ^ (44 + 2 * 0) % 4) +
      2 ^ 46 * (headNumber f / 2 ^ (44 + 2 * 1) % 4) = headNumber f
    omega
  have hbyte : ∀ k : Fin 6, byte (ofFrame f).head k = f ⟨k.val, by omega⟩ := by
    intro k
    apply UInt8.toNat_inj.mp
    rw [byte_toNat, hhead, headNumber]
    match k with
    | 0 => show _ / 256 ^ 0 % 256 = (f 0).toNat; omega
    | 1 => show _ / 256 ^ 1 % 256 = (f 1).toNat; omega
    | 2 => show _ / 256 ^ 2 % 256 = (f 2).toNat; omega
    | 3 => show _ / 256 ^ 3 % 256 = (f 3).toNat; omega
    | 4 => show _ / 256 ^ 4 % 256 = (f 4).toNat; omega
    | 5 => show _ / 256 ^ 5 % 256 = (f 5).toNat; omega
  funext i
  fin_cases i
  · exact hbyte 0
  · exact hbyte 1
  · exact hbyte 2
  · exact hbyte 3
  · exact hbyte 4
  · exact hbyte 5
  · exact (byte_word _ _).1
  · exact (byte_word _ _).2
  · exact (byte_word _ _).1
  · exact (byte_word _ _).2
  · exact (byte_word _ _).1
  · exact (byte_word _ _).2
  · rfl
  · rfl
  · exact (byte_word _ _).1
  · exact (byte_word _ _).2
  · exact (byte_word _ _).1
  · exact (byte_word _ _).2

/-- Every frame encodes exactly one tuple. -/
theorem encode_bijective : Function.Bijective encode :=
  Function.bijective_iff_has_inverse.mpr ⟨ofFrame, ofFrame_encode, encode_ofFrame⟩

/-! ### What the code decodes -/

/-- An `or` of parts that do not overlap is their sum. -/
theorem or_shiftLeft {b i : ℕ} (a : ℕ) (hb : b < 2 ^ i) : b ||| a <<< i = b + 2 ^ i * a := by
  rw [Nat.or_comm, ← Nat.shiftLeft_add_eq_or_of_lt hb, Nat.shiftLeft_eq]
  ring

theorem and_07FF (n : ℕ) : n &&& 0x07FF = n % 2048 := Nat.and_two_pow_sub_one_eq_mod n 11

theorem and_0003 (n : ℕ) : n &&& 0x0003 = n % 4 := Nat.and_two_pow_sub_one_eq_mod n 2

theorem dbusStick_encode (t : DbusFields) (k : Fin 4) :
    dbusStick t.encode k = Int16.ofInt ((t.stick k).val - 1024) := by
  have h0 := byte_toNat t.head 0
  have h1 := byte_toNat t.head 1
  have h2 := byte_toNat t.head 2
  have h3 := byte_toNat t.head 3
  have h4 := byte_toNat t.head 4
  have h5 := byte_toNat t.head 5
  have hk := head_stick t k
  apply congrArg (fun n : ℕ => Int16.ofInt (n - 1024))
  match k with
  | 0 =>
    show ((byte t.head 0).toNat ||| (byte t.head 1).toNat <<< 8) &&& 0x07FF = _
    rw [and_07FF, or_shiftLeft _ (by omega), h0, h1, ← hk]
    show _ = t.head / 2 ^ 0 % 2048
    omega
  | 1 =>
    show ((byte t.head 1).toNat >>> 3 ||| (byte t.head 2).toNat <<< 5) &&& 0x07FF = _
    rw [and_07FF, Nat.shiftRight_eq_div_pow, or_shiftLeft _ (by omega), h1, h2, ← hk]
    show _ = t.head / 2 ^ 11 % 2048
    omega
  | 2 =>
    -- this stick lies in three bytes
    show ((byte t.head 2).toNat >>> 6 ||| (byte t.head 3).toNat <<< 2 |||
      (byte t.head 4).toNat <<< 10) &&& 0x07FF = _
    have hlow : (byte t.head 2).toNat / 2 ^ 6 ||| (byte t.head 3).toNat <<< 2 =
        (byte t.head 2).toNat / 2 ^ 6 + 2 ^ 2 * (byte t.head 3).toNat :=
      or_shiftLeft _ (by omega)
    rw [and_07FF, Nat.shiftRight_eq_div_pow, hlow, or_shiftLeft _ (by omega), h2, h3, h4, ← hk]
    show _ = t.head / 2 ^ 22 % 2048
    omega
  | 3 =>
    show ((byte t.head 4).toNat >>> 1 ||| (byte t.head 5).toNat <<< 7) &&& 0x07FF = _
    rw [and_07FF, Nat.shiftRight_eq_div_pow, or_shiftLeft _ (by omega), h4, h5, ← hk]
    show _ = t.head / 2 ^ 33 % 2048
    omega

theorem dbusButton_encode (t : DbusFields) (k : Fin 2) :
    (dbusButton t.encode k).toNat = t.switch k := by
  have h5 := byte_toNat t.head 5
  have hk := head_switch t k
  match k with
  | 0 =>
    show (UInt8.ofNat ((byte t.head 5).toNat >>> 4 &&& 0x0003)).toNat = _
    rw [UInt8.toNat_ofNat', and_0003, Nat.shiftRight_eq_div_pow, h5, ← hk]
    show _ = t.head / 2 ^ 44 % 4
    omega
  | 1 =>
    show (UInt8.ofNat (((byte t.head 5).toNat >>> 4 &&& 0x000C) >>> 2)).toNat = _
    rw [UInt8.toNat_ofNat', Nat.shiftRight_and_distrib, show 0x000C >>> 2 = 0x0003 from rfl,
      and_0003, Nat.shiftRight_eq_div_pow, Nat.shiftRight_eq_div_pow, h5, ← hk]
    show _ = t.head / 2 ^ 46 % 4
    omega

/-- A word of the frame. -/
theorem byte_or_byte (w : UInt16) :
    (byte w.toNat 0).toNat ||| (byte w.toNat 1).toNat <<< 8 = w.toNat := by
  have hw := w.toNat_lt
  have h0 := byte_toNat w.toNat 0
  have h1 := byte_toNat w.toNat 1
  rw [or_shiftLeft _ (by omega), h0, h1]
  omega

theorem int16_ofNat_toInt (w : UInt16) : (Int16.ofNat w.toNat).toInt = Int.bmod w.toNat 65536 :=
  Int16.toInt_ofNat'

/-- The check of `dbusUpdate` rejects exactly the encodings of tuples that are not valid. -/
theorem dbusMismatch_encode (t : DbusFields) : dbusMismatch t.encode = false ↔ t.Valid := by
  have hstick : ∀ k, (dbusStick t.encode k).toInt.natAbs > 660 ↔
      ¬ (364 ≤ (t.stick k).val ∧ (t.stick k).val ≤ 1684) := by
    intro k
    have hk := (t.stick k).isLt
    rw [dbusStick_encode, Int16.toInt_ofInt, Int16.size, Int.bmod_eq_of_le (by omega) (by omega)]
    omega
  have hswitch : ∀ k, dbusButton t.encode k = 0 ↔ t.switch k = 0 := by
    intro k
    rw [← UInt8.toNat_inj, dbusButton_encode, Fin.ext_iff]
    rfl
  have hall : t.Valid ↔ (∀ k, 364 ≤ (t.stick k).val ∧ (t.stick k).val ≤ 1684) ∧
      ∀ k, t.switch k ≠ 0 := ⟨fun h => ⟨h.stick, h.switch⟩, fun h => ⟨h.1, h.2⟩⟩
  rw [hall, Fin.forall_fin_succ, Fin.forall_fin_succ, Fin.forall_fin_two, Fin.forall_fin_two]
  rw [dbusMismatch]
  simp only [hstick, hswitch, Bool.or_eq_false_iff, decide_eq_false_iff_not, not_not]
  tauto

/-- The data of an accepted frame is that of its tuple. -/
theorem represents_dbusDecode (t : DbusFields) : t.Represents (dbusDecode t.encode) where
  channel k := by
    show (Matrix.vecCons _ _ k.castSucc : Int16).toInt = _
    have hk := dbusStick_encode t k
    match k with
    | 0 | 1 | 2 | 3 =>
      show (dbusStick t.encode _).toInt = _
      rw [hk, Int16.toInt_ofInt]
  wheel := by
    show (Int16.ofNat ((byte t.wheel.toNat 0).toNat ||| (byte t.wheel.toNat 1).toNat <<< 8) -
      1024).toInt = _
    rw [byte_or_byte, Int16.toInt_sub, int16_ofNat_toInt, Int.bmod_sub_bmod]
    rfl
  button := dbusButton_encode t
  mouseX := (congrArg (fun n => (Int16.ofNat n).toInt) (byte_or_byte t.mouseX)).trans
    (int16_ofNat_toInt _)
  mouseY := (congrArg (fun n => (Int16.ofNat n).toInt) (byte_or_byte t.mouseY)).trans
    (int16_ofNat_toInt _)
  mouseZ := (congrArg (fun n => (Int16.ofNat n).toInt) (byte_or_byte t.mouseZ)).trans
    (int16_ofNat_toInt _)
  pressL := rfl
  pressR := rfl
  key := by
    show UInt16.ofNat ((byte t.key.toNat 0).toNat ||| (byte t.key.toNat 1).toNat <<< 8) = _
    rw [byte_or_byte, UInt16.ofNat_toNat]

end DbusFields

/-- What `dbusUpdate` has to answer and store for the encoding of a tuple. -/
structure DbusAnswer {ι : Type} (t : DbusFields) (r : Bool × Storage ι) : Prop where
  accepts : r.1 = true ↔ t.Valid
  accepted : r.1 = true → t.Represents r.2.deviceDbus.data ∧ r.2.deviceDbus.error = .kNormal
  rejected : r.1 = false → r.2.deviceDbus.data = ⟨fun _ => 0, fun _ => 0, 0, 0, 0, 0, 0, 0⟩ ∧
    r.2.deviceDbus.error = .kDataMismatch

open DbusFields

variable {ι : Type}

theorem dbusUpdate_answer (s : Storage ι) (t : DbusFields) :
    DbusAnswer t (dbusUpdate s t.encode) := by
  have hvalid := dbusMismatch_encode t
  rw [dbusUpdate]
  cases hmismatch : dbusMismatch t.encode with
  | false =>
    have ht : t.Valid := hvalid.mp hmismatch
    exact ⟨iff_of_true rfl ht, fun _ => ⟨represents_dbusDecode t, rfl⟩,
      fun hno => absurd hno.symm Bool.false_ne_true⟩
  | true =>
    have ht : ¬ t.Valid := fun ht => Bool.false_ne_true ((hvalid.mpr ht).symm.trans hmismatch)
    exact ⟨iff_of_false Bool.false_ne_true ht, fun hyes => absurd hyes Bool.false_ne_true,
      fun _ => ⟨rfl, rfl⟩⟩

/-- `dbusUpdate` decodes exactly the format: it accepts the encodings of the valid tuples and
    stores what they stand for, it clears all data at any other frame, and no two accepted
    frames leave the same data. -/
theorem dbusUpdate_exact :
    Function.Bijective encode ∧
    (∀ (s : Storage ι) (t : DbusFields), DbusAnswer t (dbusUpdate s t.encode)) ∧
    (∀ (t u : DbusFields) (d : DbusData), t.Represents d → u.Represents d → t = u) ∧
    ∀ (s s' : Storage ι) (f f' : DbusFrame), (dbusUpdate s f).1 = true →
      (dbusUpdate s' f').1 = true →
      (dbusUpdate s f).2.deviceDbus.data = (dbusUpdate s' f').2.deviceDbus.data → f = f' := by
  refine ⟨encode_bijective, dbusUpdate_answer, fun t u d => Represents.unique, ?_⟩
  intro s s' f f' hf hf' hdata
  obtain ⟨t, rfl⟩ := encode_bijective.surjective f
  obtain ⟨u, rfl⟩ := encode_bijective.surjective f'
  have ht := ((dbusUpdate_answer s t).accepted hf).1
  have hu := ((dbusUpdate_answer s' u).accepted hf').1
  rw [← hdata] at hu
  rw [ht.unique hu]

end RmMicroControllers
