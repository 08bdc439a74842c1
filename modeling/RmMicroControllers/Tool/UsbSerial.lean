import Mathlib.Tactic.IntervalCases
import RmMicroControllers.Library.Memory
import RmMicroControllers.Library.Slice
import RmMicroControllers.Library.TopDigits

/-!
# The serial number

`USBD_FS_SerialStrDescriptor` writes the unique identifier of the chip into `USBD_StringSerial`
in hexadecimal digits, each time the host asks for it. The first and the third word of the
identifier are added up, and of the second word only four digits have room.

## Main definitions

- `serialDescriptor` — what the host is answered
- `readSerial` — the number that the host reads

## Main results

- `readSerial_serialDescriptor` — the number that every answer stands for
- `serialDescriptor_eq_iff` — which boards the host cannot tell apart
-/

namespace RmMicroControllers

open Memory TopDigits

/-- The words at `DEVICE_ID1`, `DEVICE_ID2` and `DEVICE_ID3`. -/
structure DeviceId where
  id1 : UInt32
  id2 : UInt32
  id3 : UInt32
  deriving DecidableEq

/-- `USB_SIZ_STRING_SERIAL`. -/
def usbSizStringSerial : ℕ := 0x1A

/-- `USB_DESC_TYPE_STRING`. -/
def usbDescTypeString : UInt8 := 3

/-- The memory from `USBD_StringSerial` on, as it is linked. -/
def usbdStringSerial : ℕ → UInt8 :=
  store8 (store8 (fun _ => 0) 0 (UInt8.ofNat usbSizStringSerial)) 1 usbDescTypeString

/-- One pass of the loop of `IntToUnicode`, with the codes of the characters 0 and A. -/
def storeDigit (pbuf idx : ℕ) (value : UInt32) (m : ℕ → UInt8) : ℕ → UInt8 :=
  let m :=
    if value >>> 28 < 0xA then store8 m (pbuf + 2 * idx) (value >>> 28 + 48).toUInt8
    else store8 m (pbuf + 2 * idx) (value >>> 28 + 65 - 10).toUInt8
  store8 m (pbuf + 2 * idx + 1) 0

/-- The loop of `IntToUnicode` with `len` passes to come after the first `idx`. -/
def intToUnicodeLoop (pbuf : ℕ) : ℕ → ℕ → UInt32 → (ℕ → UInt8) → ℕ → UInt8
  | 0, _, _, m => m
  | len + 1, idx, value, m =>
    intToUnicodeLoop pbuf len (idx + 1) (value <<< 4) (storeDigit pbuf idx value m)

/-- `IntToUnicode`. -/
def intToUnicode (value : UInt32) (pbuf len : ℕ) (m : ℕ → UInt8) : ℕ → UInt8 :=
  intToUnicodeLoop pbuf len 0 value m

/-- `Get_SerialNum`. -/
def getSerialNum (id : DeviceId) (m : ℕ → UInt8) : ℕ → UInt8 :=
  let deviceserial0 := id.id1 + id.id3
  if deviceserial0 ≠ 0 then intToUnicode id.id2 18 4 (intToUnicode deviceserial0 2 8 m) else m

/-- `USBD_FS_SerialStrDescriptor`, with the bytes at the address it returns. -/
def usbdFsSerialStrDescriptor (id : DeviceId) (m : ℕ → UInt8) : List UInt8 × (ℕ → UInt8) :=
  let m := getSerialNum id m
  (slice m 0 usbSizStringSerial, m)

/-- The memory after `n` requests. -/
def requested (id : DeviceId) : ℕ → ℕ → UInt8
  | 0 => usbdStringSerial
  | n + 1 => (usbdFsSerialStrDescriptor id (requested id n)).2

/-- The answer to a request that comes after `n` others. -/
def serialDescriptor (id : DeviceId) (n : ℕ) : List UInt8 :=
  (usbdFsSerialStrDescriptor id (requested id n)).1

/-! ### The host -/

/-- The code units of a string, the lower byte first. -/
def codeUnits : List UInt8 → Option (List ℕ)
  | [] => some []
  | [_] => none
  | lo :: hi :: bytes => (codeUnits bytes).map ((lo.toNat + 256 * hi.toNat) :: ·)

/-- The value of an upper-case hexadecimal digit. -/
def hexValue (c : ℕ) : Option ℕ :=
  if 48 ≤ c ∧ c ≤ 57 then some (c - 48) else if 65 ≤ c ∧ c ≤ 70 then some (c - 55) else none

/-- The number in a string descriptor. -/
def readSerial : List UInt8 → Option ℕ
  | len :: type :: bytes =>
    if len.toNat = bytes.length + 2 ∧ type = usbDescTypeString then
      (codeUnits bytes).bind fun units => (units.mapM hexValue).map (ofDigits 16)
    else none
  | _ => none

/-! ### The digits -/

/-- The code of a digit. -/
def digitCode (d : ℕ) : ℕ := if d < 10 then 48 + d else 55 + d

/-- The two bytes of a digit. -/
def digitBytes (d : ℕ) : List UInt8 := [UInt8.ofNat (digitCode d), 0]

/-- Two bytes stored one after the other. -/
theorem store8_store8_succ (m : ℕ → UInt8) (a : ℕ) (v w : UInt8) :
    store8 (store8 m a v) (a + 1) w = patch m a [v, w] := by
  funext i
  by_cases hi : a ≤ i
  · obtain ⟨k, rfl⟩ := Nat.exists_eq_add_of_le hi
    rw [patch]
    rw [if_pos hi, Nat.add_sub_cancel_left]
    rcases k with _ | _ | k
    · rw [store8_of_ne (by omega), Nat.add_zero, store8_self]
      rfl
    · rw [store8_self]
      rfl
    · rw [store8_of_ne (by omega), store8_of_ne (by omega)]
      rfl
  · rw [store8_of_ne (by omega), store8_of_ne (by omega), patch_of_lt (by omega)]

theorem storeDigit_eq (pbuf idx : ℕ) (value : UInt32) (m : ℕ → UInt8) :
    storeDigit pbuf idx value m =
      patch m (pbuf + 2 * idx) (digitBytes (value.toNat / 16 ^ 7)) := by
  have htop : (value >>> 28).toNat = value.toNat / 16 ^ 7 := by
    rw [UInt32.toNat_shiftRight]
    exact Nat.shiftRight_eq_div_pow _ _
  have hdigit : value.toNat / 16 ^ 7 < 16 := by
    have h := value.toNat_lt
    omega
  have hsmall : value >>> 28 < 0xA ↔ value.toNat / 16 ^ 7 < 10 := by
    rw [UInt32.lt_iff_toNat_lt, htop]
    rfl
  rw [storeDigit, digitBytes, digitCode]
  by_cases h : value.toNat / 16 ^ 7 < 10
  · have hcode : (value >>> 28 + 48).toUInt8 = UInt8.ofNat (48 + value.toNat / 16 ^ 7) := by
      apply UInt8.toNat_inj.mp
      rw [UInt32.toNat_toUInt8, UInt32.toNat_add, htop, UInt8.toNat_ofNat']
      change (_ + 48) % _ % _ = _
      omega
    rw [if_pos (hsmall.mpr h), if_pos h, hcode]
    exact store8_store8_succ m _ _ _
  · have hcode : (value >>> 28 + 65 - 10).toUInt8 = UInt8.ofNat (55 + value.toNat / 16 ^ 7) := by
      apply UInt8.toNat_inj.mp
      rw [UInt32.toNat_toUInt8, UInt32.toNat_sub, UInt32.toNat_add, htop, UInt8.toNat_ofNat']
      change (_ - 10 + (_ + 65) % _) % _ % _ = _
      omega
    rw [if_neg (hsmall.not.mpr h), if_neg h, hcode]
    exact store8_store8_succ m _ _ _

/-- The loop writes the digits of the register, the highest first. -/
theorem intToUnicodeLoop_eq (pbuf len idx : ℕ) (value : UInt32) (m : ℕ → UInt8) :
    intToUnicodeLoop pbuf len idx value m =
      patch m (pbuf + 2 * idx) ((topDigits 16 7 len value.toNat).flatMap digitBytes) := by
  induction len generalizing idx value m with
  | zero => exact patch_nil.symm
  | succ len ih =>
    have hshift : (value <<< 4).toNat = value.toNat * 16 % 16 ^ 8 := by
      rw [UInt32.toNat_shiftLeft]
      exact congrArg (· % _) (Nat.shiftLeft_eq _ _)
    have hnext : pbuf + 2 * (idx + 1) =
        pbuf + 2 * idx + (digitBytes (value.toNat / 16 ^ 7)).length := by
      rw [digitBytes]
      rfl
    rw [intToUnicodeLoop, ih, storeDigit_eq, hshift, hnext, patch_append]
    rfl

theorem register_lt (value : UInt32) : value.toNat < 16 ^ (7 + 1) := value.toNat_lt

/-- The digits of an identifier. -/
def serialDigits (id : DeviceId) : List ℕ :=
  topDigits 16 7 8 (id.id1 + id.id3).toNat ++ topDigits 16 7 4 id.id2.toNat

theorem length_flatMap_digitBytes (ds : List ℕ) :
    (ds.flatMap digitBytes).length = 2 * ds.length := by
  induction ds with
  | nil => rfl
  | cons d ds ih =>
    rw [List.flatMap_cons, List.length_append, ih, List.length_cons, digitBytes]
    simp only [List.length_cons, List.length_nil]
    omega

theorem getSerialNum_eq {id : DeviceId} (h : id.id1 + id.id3 ≠ 0) (m : ℕ → UInt8) :
    getSerialNum id m = patch m 2 ((serialDigits id).flatMap digitBytes) := by
  have hlen : 18 + 2 * 0 = 2 + 2 * 0 +
      ((topDigits 16 7 8 (id.id1 + id.id3).toNat).flatMap digitBytes).length := by
    rw [length_flatMap_digitBytes, topDigits_length]
  rw [getSerialNum]
  rw [if_pos h, intToUnicode, intToUnicode, intToUnicodeLoop_eq, intToUnicodeLoop_eq, hlen,
    patch_append, serialDigits, List.flatMap_append]

/-- The characters of an identifier, none of which is written if the sum of the first and the
third word is 0. -/
def serialBytes (id : DeviceId) : List UInt8 :=
  if id.id1 + id.id3 = 0 then List.replicate 24 0 else (serialDigits id).flatMap digitBytes

/-- What requests leave in the buffer: its header, and the characters once they have been
written. -/
structure Answers (id : DeviceId) (m : ℕ → UInt8) : Prop where
  header : slice m 0 2 = [26, 3]
  unwritten : id.id1 + id.id3 = 0 → slice m 2 26 = List.replicate 24 0

theorem answers_start (id : DeviceId) : Answers id usbdStringSerial :=
  ⟨by decide, fun _ => by decide⟩

/-- A request keeps the header and writes the characters. -/
theorem Answers.getSerialNum {id : DeviceId} {m : ℕ → UInt8} (h : Answers id m) :
    Answers id (getSerialNum id m) ∧
      slice (RmMicroControllers.getSerialNum id m) 0 26 = [26, 3] ++ serialBytes id := by
  by_cases hzero : id.id1 + id.id3 = 0
  · have hsame : RmMicroControllers.getSerialNum id m = m := by
      rw [RmMicroControllers.getSerialNum]
      rw [if_neg (not_not.mpr hzero)]
    rw [hsame, serialBytes, if_pos hzero, ← h.unwritten hzero, ← h.header,
      slice_append (by decide) (by decide)]
    exact ⟨h, rfl⟩
  · have hlen : 26 = 2 + ((serialDigits id).flatMap digitBytes).length := by
      rw [length_flatMap_digitBytes, serialDigits, List.length_append, topDigits_length,
        topDigits_length]
    have hheader : slice (patch m 2 ((serialDigits id).flatMap digitBytes)) 0 2 = [26, 3] :=
      (slice_patch_disjoint (.inl le_rfl)).trans h.header
    rw [getSerialNum_eq hzero, serialBytes, if_neg hzero]
    refine ⟨⟨hheader, fun h => absurd h hzero⟩, ?_⟩
    rw [← slice_append (Nat.zero_le 2) (by decide), hheader]
    rw [hlen, slice_patch_self]

theorem answers_requested (id : DeviceId) (n : ℕ) : Answers id (requested id n) := by
  induction n with
  | zero => exact answers_start id
  | succ n ih => exact ih.getSerialNum.1

/-- Every request is answered alike. -/
theorem serialDescriptor_eq (id : DeviceId) (n : ℕ) :
    serialDescriptor id n = 26 :: 3 :: serialBytes id :=
  (answers_requested id n).getSerialNum.2

/-! ### What the host reads -/

theorem mem_serialDigits_lt (id : DeviceId) : ∀ d ∈ serialDigits id, d < 16 := by
  intro d hd
  rcases List.mem_append.mp hd with hd | hd
  · exact topDigits_lt (by decide) (register_lt _) d hd
  · exact topDigits_lt (by decide) (register_lt _) d hd

theorem hexValue_digitCode {d : ℕ} (h : d < 16) : hexValue (digitCode d) = some d := by
  interval_cases d <;> rfl

theorem codeUnits_digitBytes {ds : List ℕ} (h : ∀ d ∈ ds, d < 16) :
    codeUnits (ds.flatMap digitBytes) = some (ds.map digitCode) := by
  induction ds with
  | nil => rfl
  | cons d ds ih =>
    have hd : d < 16 := h d List.mem_cons_self
    have hcode : (UInt8.ofNat (digitCode d)).toNat = digitCode d := by
      rw [UInt8.toNat_ofNat', digitCode]
      split <;> omega
    rw [List.flatMap_cons, digitBytes, List.cons_append, List.cons_append, List.nil_append,
      codeUnits, ih fun d hd => h d (List.mem_cons_of_mem _ hd)]
    change some (((UInt8.ofNat (digitCode d)).toNat + 256 * 0) :: _) = _
    rw [hcode]
    rfl

theorem mapM_hexValue {ds : List ℕ} (h : ∀ d ∈ ds, d < 16) :
    (ds.map digitCode).mapM hexValue = some ds := by
  induction ds with
  | nil => rfl
  | cons d ds ih =>
    rw [List.map_cons, List.mapM_cons, hexValue_digitCode (h d List.mem_cons_self),
      ih fun d hd => h d (List.mem_cons_of_mem _ hd)]
    rfl

theorem ofDigits_serialDigits (id : DeviceId) :
    ofDigits 16 (serialDigits id) =
      (id.id1 + id.id3).toNat * 65536 + id.id2.toNat / 65536 := by
  have hfirst := @ofDigits_topDigits 16 7 8 (id.id1 + id.id3).toNat (by decide) (by decide)
    (register_lt _)
  rw [ofDigits] at hfirst
  rw [ofDigits, serialDigits, List.foldl_append, hfirst, Nat.sub_self, Nat.pow_zero, Nat.div_one]
  exact foldl_topDigits (by decide) (by decide) (register_lt _) _

theorem readSerial_serialBytes (id : DeviceId) :
    readSerial (26 :: 3 :: serialBytes id) =
      if id.id1 + id.id3 = 0 then none
      else some ((id.id1 + id.id3).toNat * 65536 + id.id2.toNat / 65536) := by
  rw [serialBytes]
  by_cases hzero : id.id1 + id.id3 = 0
  · rw [if_pos hzero, if_pos hzero]
    decide
  · have hlen : (26 : UInt8).toNat = ((serialDigits id).flatMap digitBytes).length + 2 := by
      rw [length_flatMap_digitBytes, serialDigits, List.length_append, topDigits_length,
        topDigits_length]
      rfl
    have hdigits := mem_serialDigits_lt id
    rw [if_neg hzero, if_neg hzero, readSerial, if_pos ⟨hlen, rfl⟩, codeUnits_digitBytes hdigits,
      Option.bind_some, mapM_hexValue hdigits, Option.map_some, ofDigits_serialDigits]

/-- The number that every answer stands for. There are no digits if the sum of the first and the
third word of the identifier is 0. -/
theorem readSerial_serialDescriptor (id : DeviceId) (n : ℕ) :
    readSerial (serialDescriptor id n) =
      if id.id1 + id.id3 = 0 then none
      else some ((id.id1 + id.id3).toNat * 65536 + id.id2.toNat / 65536) := by
  rw [serialDescriptor_eq]
  exact readSerial_serialBytes id

/-- The host cannot tell two boards apart exactly if their sums are the same, and 0 or followed by
the same upper half of the second word. -/
theorem serialDescriptor_eq_iff (id id' : DeviceId) (n n' : ℕ) :
    serialDescriptor id n = serialDescriptor id' n' ↔
      id.id1 + id.id3 = id'.id1 + id'.id3 ∧
        (id.id1 + id.id3 = 0 ∨ id.id2.toNat / 65536 = id'.id2.toNat / 65536) := by
  constructor
  · intro h
    rw [serialDescriptor_eq, serialDescriptor_eq] at h
    have hread := congrArg readSerial h
    rw [readSerial_serialBytes, readSerial_serialBytes] at hread
    by_cases hzero : id.id1 + id.id3 = 0
    · rw [if_pos hzero] at hread
      split at hread
      · next hzero' => exact ⟨hzero.trans hzero'.symm, .inl hzero⟩
      · cases hread
    · rw [if_neg hzero] at hread
      split at hread
      · cases hread
      · have hsum := Option.some.inj hread
        have h2 := id.id2.toNat_lt
        have h2' := id'.id2.toNat_lt
        refine ⟨UInt32.toNat_inj.mp ?_, .inr ?_⟩ <;> omega
  · rintro ⟨hsum, hhalf⟩
    rw [serialDescriptor_eq, serialDescriptor_eq, serialBytes, serialBytes, ← hsum]
    by_cases hzero : id.id1 + id.id3 = 0
    · rw [if_pos hzero, if_pos hzero]
    · have hdigits : topDigits 16 7 4 id.id2.toNat = topDigits 16 7 4 id'.id2.toNat :=
        (topDigits_eq_iff (by decide) (by decide) (register_lt _) (register_lt _)).mpr
          (hhalf.resolve_left hzero)
      rw [if_neg hzero, if_neg hzero, serialDigits, serialDigits, hsum, hdigits]

end RmMicroControllers
