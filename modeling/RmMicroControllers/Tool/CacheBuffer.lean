import Mathlib.Algebra.Group.Nat.Defs
import RmMicroControllers.Library.Fallible
import RmMicroControllers.Library.Slice

/-!
# The byte queue between the USB interrupt and its reader

`CacheBuffer` of `cache_buffer.hpp`: a buffer of `size` bytes with two positions and a flag
that tells whether the writer has wrapped. Positions and lengths are `uint32_t`, so they are
natural numbers with explicit arithmetic modulo `2 ^ 32`.

## Main definitions

- `CacheBuffer.write`, `CacheBuffer.read` — the two calls
- `CacheBuffer.contents` — the bytes still queued, in order
- `CacheBuffer.Shape` — how the positions lie
-/

namespace RmMicroControllers

open Memory

/-- How a call on a buffer can fail to return: its loop goes on, or it leaves the buffer. -/
inductive CacheFault where
  | outOfFuel
  | overrun
  deriving DecidableEq

/-- Subtraction in `uint32_t`. -/
def sub32 (a b : ℕ) : ℕ := (a + 4294967296 - b) % 4294967296

/-- Addition in `uint32_t`. -/
def add32 (a b : ℕ) : ℕ := (a + b) % 4294967296

theorem sub32_of_le {a b : ℕ} (h : b ≤ a) (ha : a < 2 ^ 32) : sub32 a b = a - b := by
  rw [sub32]
  omega

theorem add32_of_lt {a b : ℕ} (h : a + b < 2 ^ 32) : add32 a b = a + b := Nat.mod_eq_of_lt h

/-- `CacheBuffer<size>`. -/
structure CacheBuffer (size : ℕ) where
  buffer : ℕ → UInt8 := fun _ => 0
  writePos : ℕ := 0
  readPos : ℕ := 0
  circle : Bool := false
  error : Bool := false

namespace CacheBuffer

variable {size : ℕ}

/-- `memcpy` into `buffer_`. -/
def copyIn (c : CacheBuffer size) (pos : ℕ) (bytes : List UInt8) :
    Except CacheFault (CacheBuffer size) :=
  if pos + bytes.length ≤ size then .ok { c with buffer := patch c.buffer pos bytes }
  else .error .overrun

/-- `memcpy` out of `buffer_`. -/
def copyOut (c : CacheBuffer size) (pos len : ℕ) : Except CacheFault (List UInt8) :=
  if pos + len ≤ size then .ok (slice c.buffer pos (pos + len)) else .error .overrun

/-- The branch of `write` for a buffer whose writer has wrapped. -/
def writeCircle (c : CacheBuffer size) (buf : List UInt8) :
    Except CacheFault (Bool × CacheBuffer size) :=
  if sub32 c.readPos c.writePos > buf.length then do
    let c ← c.copyIn c.writePos buf
    return (true, { c with writePos := add32 c.writePos buf.length })
  else return (false, { c with error := true })

/-- `write`. Its recursive call finds `circle_` set, so it is the branch above. -/
def write (c : CacheBuffer size) (buf : List UInt8) :
    Except CacheFault (Bool × CacheBuffer size) :=
  if c.circle then c.writeCircle buf
  else
    let tmpLen := sub32 size c.writePos
    if tmpLen > buf.length then do
      let c ← c.copyIn c.writePos buf
      return (true, { c with writePos := add32 c.writePos buf.length })
    else do
      let c ← c.copyIn c.writePos (buf.take tmpLen)
      writeCircle { c with writePos := 0, circle := true } (buf.drop tmpLen)

/-- `read_wait_pos`. -/
def readWaitPos (c : CacheBuffer size) : Bool :=
  !(if c.circle then true else decide (c.writePos > c.readPos))

/-- `read_max_len_change_pos`: `tmp_len` and `expected_len` are `uint8_t`. -/
def readMaxLenChangePos (c : CacheBuffer size) (expectedLen : ℕ) : ℕ × CacheBuffer size :=
  if c.circle then
    let tmpLen := sub32 size c.readPos % 256
    if tmpLen > expectedLen then
      (expectedLen, { c with readPos := add32 c.readPos expectedLen })
    else (tmpLen, { c with readPos := 0, circle := false })
  else
    let tmpLen := sub32 c.writePos c.readPos % 256
    if tmpLen > expectedLen then
      (expectedLen, { c with readPos := add32 c.readPos expectedLen })
    else (tmpLen, { c with readPos := c.writePos })

/-- The inner loop of `read`: whether bytes came before the callback gave up. `timeCheck k` is
    what the callback answers the `k`th time. -/
def waitData (c : CacheBuffer size) (timeCheck : ℕ → Bool) :
    ℕ → ℕ → Except CacheFault (Bool × ℕ)
  | 0, _ => .error .outOfFuel
  | fuel + 1, calls =>
    if c.readWaitPos then
      if timeCheck calls then waitData c timeCheck fuel (calls + 1)
      else .ok (false, calls + 1)
    else .ok (true, calls)

/-- The outer loop of `read`. `filled_len` is the length of `dest`. -/
def readLoop (timeCheck : ℕ → Bool) (len : ℕ) :
    ℕ → ℕ → CacheBuffer size → List UInt8 → Except CacheFault (List UInt8 × CacheBuffer size)
  | 0, _, _, _ => .error .outOfFuel
  | fuel + 1, calls, c, dest => do
    let bufferAtRead := c.readPos
    let (ready, calls) ← c.waitData timeCheck fuel calls
    if ready then
      let (maxLen, c) := c.readMaxLenChangePos (sub32 len dest.length % 256)
      let bytes ← c.copyOut bufferAtRead maxLen
      if (dest ++ bytes).length ≠ len then
        readLoop timeCheck len fuel calls c (dest ++ bytes)
      else return (dest ++ bytes, c)
    else return (dest, c)

/-- `read`. -/
def read (c : CacheBuffer size) (fuel len : ℕ) (timeCheck : ℕ → Bool) :
    Except CacheFault (List UInt8 × CacheBuffer size) :=
  readLoop timeCheck len fuel 0 c []

/-! ### What the positions mean -/

/-- The bytes still queued. -/
def contents (c : CacheBuffer size) : List UInt8 :=
  if c.circle then slice c.buffer c.readPos size ++ slice c.buffer 0 c.writePos
  else slice c.buffer c.readPos c.writePos

/-- The number of bytes that lie in one piece from the read position on. -/
def run (c : CacheBuffer size) : ℕ :=
  if c.circle then size - c.readPos else c.writePos - c.readPos

/-- How the positions lie: the writer is not ahead of the reader if it has wrapped, and not
    behind it otherwise. After a refused write that has wrapped, both may be at 0. -/
structure Shape (c : CacheBuffer size) : Prop where
  circle : c.circle = true → c.writePos ≤ c.readPos ∧ c.readPos < size
  straight : c.circle = false → c.readPos ≤ c.writePos ∧ c.writePos < size

theorem shape_fresh (h : 0 < size) : Shape ({} : CacheBuffer size) :=
  ⟨fun hyes => absurd hyes Bool.false_ne_true, fun _ => ⟨le_rfl, h⟩⟩

/-- The positions that a write of `len` bytes puts something into. -/
def Touches (c : CacheBuffer size) (len i : ℕ) : Prop :=
  if c.circle then c.writePos ≤ i ∧ i < c.writePos + len
  else if len < size - c.writePos then c.writePos ≤ i ∧ i < c.writePos + len
  else (c.writePos ≤ i ∧ i < size) ∨ i < len - (size - c.writePos)

/-- What a successful write does. -/
structure Written (c : CacheBuffer size) (buf : List UInt8) (c' : CacheBuffer size) : Prop where
  shape : Shape c'
  contents : c'.contents = c.contents ++ buf
  readPos : c'.readPos = c.readPos
  circle : c.circle = true → c'.circle = true
  untouched : ∀ i, ¬ c.Touches buf.length i → c'.buffer i = c.buffer i

theorem copyIn_eq_ok {c c' : CacheBuffer size} {pos : ℕ} {bytes : List UInt8}
    (h : c.copyIn pos bytes = .ok c') :
    pos + bytes.length ≤ size ∧ c' = { c with buffer := patch c.buffer pos bytes } := by
  rw [copyIn] at h
  split at h
  · next hle => exact ⟨hle, (Except.ok.inj h).symm⟩
  · cases h

theorem writeCircle_eq_ok {c c' : CacheBuffer size} {buf : List UInt8}
    (h : c.writeCircle buf = .ok (true, c')) :
    buf.length < sub32 c.readPos c.writePos ∧ c.writePos + buf.length ≤ size ∧
      c' = { c with buffer := patch c.buffer c.writePos buf
                    writePos := add32 c.writePos buf.length } := by
  rw [writeCircle] at h
  split at h
  · next hlt =>
    obtain ⟨d, hd, h⟩ := Fallible.bind_eq_ok.mp h
    obtain ⟨hle, rfl⟩ := copyIn_eq_ok hd
    simp only [Fallible.pure_eq_ok, Prod.mk.injEq, true_and] at h
    exact ⟨hlt, hle, h.symm⟩
  · simp at h

theorem writeCircle_refused {c c' : CacheBuffer size} {buf : List UInt8}
    (h : c.writeCircle buf = .ok (false, c')) : c' = { c with error := true } := by
  rw [writeCircle] at h
  split at h
  · obtain ⟨d, -, h⟩ := Fallible.bind_eq_ok.mp h
    cases Fallible.pure_eq_ok.mp h
  · exact (congrArg Prod.snd (Except.ok.inj h)).symm

theorem contents_length (c : CacheBuffer size) : c.contents.length =
    if c.circle then size - c.readPos + c.writePos else c.writePos - c.readPos := by
  rw [contents]
  split
  · rw [List.length_append, slice_length, slice_length, Nat.sub_zero]
  · exact slice_length

/-- A write returns, it succeeds exactly if one byte of the buffer is left over, and it sets
    `error_` otherwise. -/
theorem write_room {c : CacheBuffer size} (hsize : size < 2 ^ 32) (hc : c.Shape)
    (buf : List UInt8) : ∃ c', c.write buf =
        .ok (decide (c.contents.length + buf.length < size), c') ∧
      c'.error = (c.error || !decide (c.contents.length + buf.length < size)) := by
  rw [contents_length]
  rw [write]
  cases hcircle : c.circle with
  | true =>
    obtain ⟨hwr, hr⟩ := hc.circle hcircle
    simp only [if_true, writeCircle]
    -- the room is the gap between the two positions
    rw [sub32_of_le hwr (by omega)]
    by_cases hroom : c.readPos - c.writePos > buf.length
    · have hlt : size - c.readPos + c.writePos + buf.length < size := by omega
      rw [if_pos hroom, copyIn, if_pos (by omega), decide_eq_true hlt]
      exact ⟨_, rfl, (Bool.or_false _).symm⟩
    · have hge : ¬ size - c.readPos + c.writePos + buf.length < size := by omega
      rw [if_neg hroom, decide_eq_false hge]
      exact ⟨_, rfl, (Bool.or_true _).symm⟩
  | false =>
    obtain ⟨hrw, hw⟩ := hc.straight hcircle
    simp only [Bool.false_eq_true, if_false]
    rw [sub32_of_le hw.le hsize]
    by_cases hfits : size - c.writePos > buf.length
    · have hlt : c.writePos - c.readPos + buf.length < size := by omega
      rw [if_pos hfits, copyIn, if_pos (by omega), decide_eq_true hlt]
      exact ⟨_, rfl, (Bool.or_false _).symm⟩
    · have htake : (buf.take (size - c.writePos)).length = size - c.writePos := by
        rw [List.length_take]; omega
      have hdrop : (buf.drop (size - c.writePos)).length = buf.length - (size - c.writePos) :=
        List.length_drop
      -- the rest goes to the start of the buffer, in front of `read_pos_`
      rw [if_neg hfits, copyIn, if_pos (by omega), Fallible.ok_bind, writeCircle]
      dsimp only
      rw [sub32_of_le (Nat.zero_le _) (by omega), hdrop]
      by_cases hroom : c.readPos - 0 > buf.length - (size - c.writePos)
      · have hlt : c.writePos - c.readPos + buf.length < size := by omega
        rw [if_pos hroom, copyIn, if_pos (by rw [hdrop]; omega), decide_eq_true hlt]
        exact ⟨_, rfl, (Bool.or_false _).symm⟩
      · have hge : ¬ c.writePos - c.readPos + buf.length < size := by omega
        rw [if_neg hroom, decide_eq_false hge]
        exact ⟨_, rfl, (Bool.or_true _).symm⟩

/-- A successful write appends its bytes to the queue. -/
theorem write_spec {c c' : CacheBuffer size} {buf : List UInt8} (hsize : size < 2 ^ 32)
    (hc : c.Shape) (h : c.write buf = .ok (true, c')) : Written c buf c' := by
  rw [write] at h
  split at h
  · next hcircle =>
    obtain ⟨hwr, hr⟩ := hc.circle hcircle
    obtain ⟨hlt, -, rfl⟩ := writeCircle_eq_ok h
    rw [sub32_of_le hwr (by omega)] at hlt
    rw [add32_of_lt (by omega)]
    refine ⟨⟨fun _ => ⟨by dsimp only; omega, hr⟩, fun hno => ?_⟩, ?_, rfl, fun _ => hcircle,
      fun i hi => ?_⟩
    · exact absurd (hcircle.symm.trans hno) (by decide)
    · simp only [CacheBuffer.contents, hcircle, if_true]
      rw [slice_patch_disjoint (Or.inr (by omega)), ← slice_append (Nat.zero_le _)
        (Nat.le_add_right c.writePos buf.length), slice_patch_self,
        slice_patch_disjoint (Or.inl le_rfl), List.append_assoc]
    · simp only [Touches, hcircle, if_true, not_and, not_lt] at hi
      by_cases hlo : c.writePos ≤ i
      · exact patch_of_le (hi hlo)
      · exact patch_of_lt (by omega)
  · next hstraight =>
    have hcircle : c.circle = false := by simpa using hstraight
    obtain ⟨hrw, hw⟩ := hc.straight hcircle
    dsimp only at h
    rw [sub32_of_le hw.le hsize] at h
    split at h
    · next hlt =>
      obtain ⟨d, hd, h⟩ := Fallible.bind_eq_ok.mp h
      obtain ⟨-, rfl⟩ := copyIn_eq_ok hd
      simp only [Fallible.pure_eq_ok, Prod.mk.injEq, true_and] at h
      subst h
      rw [add32_of_lt (by omega)]
      refine ⟨⟨fun hyes => ?_, fun _ => ⟨by dsimp only; omega, by dsimp only; omega⟩⟩, ?_, rfl,
        fun hyes => hyes, fun i hi => ?_⟩
      · exact absurd (hcircle.symm.trans hyes) (by decide)
      · simp only [CacheBuffer.contents, hcircle, Bool.false_eq_true, if_false]
        rw [← slice_append hrw (Nat.le_add_right c.writePos buf.length), slice_patch_self,
          slice_patch_disjoint (Or.inl le_rfl)]
      · simp only [Touches, hcircle, Bool.false_eq_true, if_false, if_pos hlt] at hi
        by_cases hlo : c.writePos ≤ i
        · exact patch_of_le (by omega)
        · exact patch_of_lt (by omega)
    · next hge =>
      -- the write wraps: the first bytes fill the buffer, the others start at position 0
      obtain ⟨d, hd, h⟩ := Fallible.bind_eq_ok.mp h
      obtain ⟨-, rfl⟩ := copyIn_eq_ok hd
      obtain ⟨hlt, -, rfl⟩ := writeCircle_eq_ok h
      dsimp only at hlt ⊢
      have hr32 : sub32 c.readPos 0 = c.readPos := sub32_of_le (Nat.zero_le _) (by omega)
      have htake : (buf.take (size - c.writePos)).length = size - c.writePos := by
        rw [List.length_take]; omega
      have hdrop : (buf.drop (size - c.writePos)).length = buf.length - (size - c.writePos) :=
        List.length_drop
      rw [hr32] at hlt
      rw [add32_of_lt (by omega)]
      refine ⟨⟨fun _ => ⟨by dsimp only; omega, by dsimp only; omega⟩, fun hno => by cases hno⟩,
        ?_, rfl, fun _ => rfl, fun i hi => ?_⟩
      · have hend : c.writePos + (buf.take (size - c.writePos)).length = size := by omega
        have hfull : slice (patch c.buffer c.writePos _) c.writePos _ =
            buf.take (size - c.writePos) :=
          slice_patch_self
        rw [hend] at hfull
        simp only [CacheBuffer.contents, hcircle, if_true, Bool.false_eq_true, if_false]
        rw [slice_patch_self, slice_patch_disjoint (Or.inr (by omega)),
          ← slice_append hrw hw.le, hfull, slice_patch_disjoint (Or.inl le_rfl),
          List.append_assoc, List.take_append_drop]
      · simp only [Touches, hcircle, Bool.false_eq_true, if_false,
          if_neg (show ¬ buf.length < size - c.writePos by omega), not_or, not_and, not_lt] at hi
        obtain ⟨h₁, h₂⟩ := hi
        dsimp only
        rw [patch_of_le (by omega)]
        by_cases hlo : c.writePos ≤ i
        · exact patch_of_le (by have := h₁ hlo; omega)
        · exact patch_of_lt (by omega)

/-- A refused write leaves the queue as it was if the writer has wrapped before. Otherwise it
    has wrapped now, and the bytes that fill the buffer are queued. -/
theorem write_refused {c c' : CacheBuffer size} {buf : List UInt8} (hsize : size < 2 ^ 32)
    (hc : c.Shape) (h : c.write buf = .ok (false, c')) :
    c'.Shape ∧ c'.contents =
      if c.circle then c.contents else c.contents ++ buf.take (size - c.writePos) := by
  rw [write] at h
  split at h
  · next hcircle =>
    obtain rfl := writeCircle_refused h
    exact ⟨⟨hc.circle, hc.straight⟩, (if_pos hcircle).symm⟩
  · next hstraight =>
    have hcircle : c.circle = false := by simpa using hstraight
    obtain ⟨hrw, hw⟩ := hc.straight hcircle
    dsimp only at h
    rw [sub32_of_le hw.le hsize] at h
    split at h
    · obtain ⟨d, -, h⟩ := Fallible.bind_eq_ok.mp h
      cases Fallible.pure_eq_ok.mp h
    · obtain ⟨d, hd, h⟩ := Fallible.bind_eq_ok.mp h
      obtain ⟨-, rfl⟩ := copyIn_eq_ok hd
      obtain rfl := writeCircle_refused h
      have hend : c.writePos + (buf.take (size - c.writePos)).length = size := by
        rw [List.length_take]
        omega
      have hfull : slice (patch c.buffer c.writePos (buf.take (size - c.writePos))) c.writePos
          (c.writePos + (buf.take (size - c.writePos)).length) = buf.take (size - c.writePos) :=
        slice_patch_self
      rw [hend] at hfull
      refine ⟨⟨fun _ => ⟨Nat.zero_le _, hrw.trans_lt hw⟩, fun hno => by cases hno⟩, ?_⟩
      simp only [CacheBuffer.contents, hcircle, if_true, Bool.false_eq_true, if_false, slice_self,
        List.append_nil]
      rw [← slice_append hrw hw.le, hfull, slice_patch_disjoint (Or.inl le_rfl)]

end CacheBuffer

end RmMicroControllers
