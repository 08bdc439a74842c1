import Mathlib.Logic.Function.Basic
import RmMicroControllers.Library.Fallible
import RmMicroControllers.Library.Run
import RmMicroControllers.Library.Slice

/-!
# Sending over the virtual COM ports

`CDC_Transmit_FS` copies a message into `UserTxBufferFS` and has `USBD_CDC_TransmitPacket` hand
it to the endpoint of a port; `USBD_CDC_DataIn` is called when the endpoint has sent it.
`transportUxrCdcWrite` tries until it is not told that the transmitter is busy. The memory from
`UserTxBufferFS` on is modelled without its bound, and every copy into it is recorded.

## Main definitions

- `CdcDevice` — what the calls read and write, with the copies and the transfers so far
- `CdcDevice.cdcTransmitFs`, `CdcDevice.usbdCdcDataIn` — the two ends of a transfer
- `CdcDevice.transportUxrCdcWrite` — the retry loop

## Main results

- `CdcDevice.reportsSent_iff` — when the retry loop reports what it has sent
-/

namespace RmMicroControllers

open Memory

/-- `USBD_StatusTypeDef`, with the answer of a transmitter that is busy. -/
inductive TransmitStatus where
  | ok
  | busy
  | fail
  deriving DecidableEq

/-- `CDC_IN_EP`. -/
def cdcInEp : UInt8 := 0x81

/-- The number of the endpoint at an address, `addr & 0xF`. -/
def epNumber (addr : UInt8) : Fin 16 := Fin.ofNat 16 addr.toNat

/-- `APP_TX_DATA_SIZE`, the size of `UserTxBufferFS`. -/
def appTxDataSize : ℕ := 2048

/-- A transfer handed to the peripheral. -/
structure Transfer where
  epAddr : UInt8
  bytes : List UInt8
  deriving DecidableEq

/-- The device with the members of its class data that sending uses. `txState` tells whether
    `TxState` is not 0, `totalLength` are the members `ep_in[].total_length`, and
    `userTxBuffer` is the memory from `UserTxBufferFS` on. -/
structure CdcDevice where
  classData : Bool := true
  txState : Bool := false
  txLength : ℕ := 0
  totalLength : Fin 16 → ℕ := fun _ => 0
  userTxBuffer : ℕ → UInt8 := fun _ => 0
  copied : List ℕ := []
  submitted : List Transfer := []

namespace CdcDevice

/-- `memcpy` to `UserTxBufferFS`. -/
def copyToTxBuffer (s : CdcDevice) (bytes : List UInt8) : CdcDevice :=
  { s with
    userTxBuffer := patch s.userTxBuffer 0 bytes
    copied := s.copied ++ [bytes.length] }

/-- `USBD_CDC_SetTxBuffer`. The buffer is always `UserTxBufferFS`, and no caller looks at the
    answer. -/
def usbdCdcSetTxBuffer (s : CdcDevice) (length : ℕ) : CdcDevice :=
  if s.classData then { s with txLength := length } else s

/-- `USBD_LL_Transmit`. -/
def usbdLlTransmit (s : CdcDevice) (epAddr : UInt8) (bytes : List UInt8) : CdcDevice :=
  { s with submitted := s.submitted ++ [⟨epAddr, bytes⟩] }

/-- `USBD_CDC_TransmitPacket`. -/
def usbdCdcTransmitPacket (s : CdcDevice) (epindex : UInt8) : TransmitStatus × CdcDevice :=
  if s.classData then
    if s.txState then (.busy, s)
    else
      let s := { s with
        txState := true
        totalLength := Function.update s.totalLength (epNumber cdcInEp) s.txLength }
      (.ok, s.usbdLlTransmit (if epindex < 2 then cdcInEp else cdcInEp + 2)
        (slice s.userTxBuffer 0 s.txLength))
  else (.fail, s)

/-- `CDC_Transmit_FS`. `interrupt` is what happens before the call of
    `USBD_CDC_TransmitPacket`. -/
def cdcTransmitFs (interrupt : CdcDevice → CdcDevice) (s : CdcDevice) (buf : List UInt8)
    (len : UInt16) (epindex : UInt8) : TransmitStatus × CdcDevice :=
  if s.txState then (.busy, s)
  else
    let s := s.copyToTxBuffer (buf.take len.toNat)
    let s := s.usbdCdcSetTxBuffer len.toNat
    (interrupt s).usbdCdcTransmitPacket epindex

/-- The maximal packet that the HAL reports for the endpoints. -/
def maxpacket : ℕ := 64

/-- `USBD_CDC_DataIn`. The callback `TransmitCplt` does nothing. -/
def usbdCdcDataIn (s : CdcDevice) (epnum : Fin 16) : TransmitStatus × CdcDevice :=
  if s.classData then
    if 0 < s.totalLength epnum ∧ s.totalLength epnum % maxpacket = 0 then
      let s := { s with totalLength := Function.update s.totalLength epnum 0 }
      (.ok, s.usbdLlTransmit (UInt8.ofNat epnum.val) [])
    else (.ok, { s with txState := false })
  else (.fail, s)

/-! ### The retry loop -/

/-- What the layers below make of one attempt: whether `TxState` is set when `CDC_Transmit_FS`
    looks at it, and whether the class data is there and `TxState` set when
    `USBD_CDC_TransmitPacket` does. -/
structure Attempt where
  txState : Bool
  classData : Bool
  txStateAtPacket : Bool
  deriving DecidableEq

namespace Attempt

/-- The device as `CDC_Transmit_FS` finds it. -/
def before (a : Attempt) (s : CdcDevice) : CdcDevice :=
  { s with classData := true, txState := a.txState }

/-- The device as `USBD_CDC_TransmitPacket` finds it. -/
def between (a : Attempt) (s : CdcDevice) : CdcDevice :=
  { s with classData := a.classData, txState := a.txStateAtPacket }

/-- The answer that the attempt gets. -/
def answer (a : Attempt) : TransmitStatus :=
  if a.txState then .busy
  else if a.classData then if a.txStateAtPacket then .busy else .ok
  else .fail

end Attempt

/-- The loop of `transportUxrCdcWrite` from attempt `k` on, with `fuel` attempts at most. There
    is no result if all of them find the transmitter busy. The length is narrowed to
    `uint16_t` in the call. -/
def transportUxrCdcWrite (attempts : ℕ → Attempt) (buf : List UInt8) :
    ℕ → ℕ → CdcDevice → Option ℕ × CdcDevice
  | 0, _, s => (none, s)
  | fuel + 1, k, s =>
    match cdcTransmitFs (attempts k).between ((attempts k).before s) buf
      (UInt16.ofNat buf.length) 0 with
    | (.ok, s) => (some buf.length, s)
    | (.busy, s) => transportUxrCdcWrite attempts buf fuel (k + 1) s
    | (.fail, s) => (some 0, s)

/-- The device before a call, with no copies and transfers recorded. -/
def unrecorded (s : CdcDevice) : CdcDevice := { s with copied := [], submitted := [] }

/-- The call reports what it has sent: a result `n` means that nothing was submitted and `n` is
    0, or that the whole message has been copied into the buffer and submitted as one transfer
    of `n` bytes. And no copy goes beyond the buffer, whether or not the call returns. -/
structure ReportsSent (attempts : ℕ → Attempt) (buf : List UInt8) (s : CdcDevice) : Prop where
  sent : ∀ fuel n t, transportUxrCdcWrite attempts buf fuel 0 s.unrecorded = (some n, t) →
    (n = 0 ∧ t.submitted = []) ∨
      (n = buf.length ∧ slice t.userTxBuffer 0 n = buf ∧ t.submitted = [⟨cdcInEp, buf⟩])
  inside : ∀ fuel, ∀ len ∈ (transportUxrCdcWrite attempts buf fuel 0 s.unrecorded).2.copied,
    len ≤ appTxDataSize

/-- The length of the message as it is handed on. -/
def narrowed (buf : List UInt8) : ℕ := buf.length % 65536

section Write

variable {attempts : ℕ → Attempt} {buf : List UInt8}

theorem take_narrowed_length : (buf.take (narrowed buf)).length = narrowed buf := by
  rw [List.length_take]
  exact min_eq_left (Nat.mod_le _ _)

/-- One attempt: its answer, what it copies and what it submits. -/
theorem attempt_spec (a : Attempt) (buf : List UInt8) (s : CdcDevice) :
    ∃ t, cdcTransmitFs a.between (a.before s) buf (UInt16.ofNat buf.length) 0 = (a.answer, t) ∧
      t.copied = s.copied ++ (if a.txState then [] else [narrowed buf]) ∧
      (a.answer = .ok → slice t.userTxBuffer 0 (narrowed buf) = buf.take (narrowed buf) ∧
        t.submitted = s.submitted ++ [⟨cdcInEp, buf.take (narrowed buf)⟩]) ∧
      (a.answer ≠ .ok → t.submitted = s.submitted) := by
  have hlen : (UInt16.ofNat buf.length).toNat = narrowed buf := UInt16.toNat_ofNat'
  have hslice : slice (patch s.userTxBuffer 0 (buf.take (narrowed buf))) 0 (narrowed buf) =
      buf.take (narrowed buf) := by
    have h : slice (patch s.userTxBuffer 0 (buf.take (narrowed buf))) 0
        (0 + (buf.take (narrowed buf)).length) = buf.take (narrowed buf) := slice_patch_self
    rwa [Nat.zero_add, take_narrowed_length] at h
  obtain ⟨txState, classData, txStateAtPacket⟩ := a
  unfold cdcTransmitFs Attempt.before Attempt.between Attempt.answer
  cases txState with
  | true => exact ⟨_, rfl, by simp, fun h => (by cases h), fun _ => rfl⟩
  | false =>
    simp only [Bool.false_eq_true, if_false, hlen, copyToTxBuffer, usbdCdcSetTxBuffer, if_true,
      usbdCdcTransmitPacket, take_narrowed_length]
    cases classData with
    | false => exact ⟨_, rfl, rfl, fun h => (by cases h), fun _ => rfl⟩
    | true =>
      cases txStateAtPacket with
      | true => exact ⟨_, rfl, rfl, fun h => (by cases h), fun _ => rfl⟩
      | false =>
        refine ⟨_, rfl, rfl, fun _ => ⟨hslice, ?_⟩, fun h => absurd rfl h⟩
        simp only [usbdLlTransmit, hslice]
        rfl

/-- Attempt `k` is made: all attempts before it find the transmitter busy. -/
def Reached (attempts : ℕ → Attempt) (k : ℕ) : Prop := ∀ j < k, (attempts j).answer = .busy

theorem Reached.succ {k : ℕ} (hk : Reached attempts k) (h : (attempts k).answer = .busy) :
    Reached attempts (k + 1) := by
  intro j hj
  rcases Nat.lt_succ_iff_lt_or_eq.mp hj with hlt | rfl
  · exact hk j hlt
  · exact h

/-- One pass of the loop goes by the answer. -/
theorem write_succ (attempts : ℕ → Attempt) (buf : List UInt8) (fuel k : ℕ) (s : CdcDevice) :
    ∃ u, transportUxrCdcWrite attempts buf (fuel + 1) k s =
        (match (attempts k).answer with
          | .ok => (some buf.length, u)
          | .busy => transportUxrCdcWrite attempts buf fuel (k + 1) u
          | .fail => (some 0, u)) ∧
      u.copied = s.copied ++ (if (attempts k).txState then [] else [narrowed buf]) ∧
      ((attempts k).answer = .ok → slice u.userTxBuffer 0 (narrowed buf) = buf.take (narrowed buf) ∧
        u.submitted = s.submitted ++ [⟨cdcInEp, buf.take (narrowed buf)⟩]) ∧
      ((attempts k).answer ≠ .ok → u.submitted = s.submitted) := by
  obtain ⟨u, hu, hspec⟩ := attempt_spec (attempts k) buf s
  refine ⟨u, ?_, hspec⟩
  rw [transportUxrCdcWrite, hu]
  cases (attempts k).answer <;> rfl

/-- Where a call ends that returns. -/
theorem write_some {fuel k n : ℕ} {s t : CdcDevice} (hk : Reached attempts k)
    (h : transportUxrCdcWrite attempts buf fuel k s = (some n, t)) :
    ∃ j, Reached attempts j ∧
      ((attempts j).answer = .ok ∧ n = buf.length ∧
          slice t.userTxBuffer 0 (narrowed buf) = buf.take (narrowed buf) ∧
          t.submitted = s.submitted ++ [⟨cdcInEp, buf.take (narrowed buf)⟩] ∨
        (attempts j).answer = .fail ∧ n = 0 ∧ t.submitted = s.submitted) := by
  induction fuel generalizing k s with
  | zero => cases h
  | succ fuel ih =>
    obtain ⟨u, hu, -, hok, hother⟩ := write_succ attempts buf fuel k s
    rw [hu] at h
    cases hanswer : (attempts k).answer with
    | ok =>
      rw [hanswer] at h
      obtain ⟨hn, rfl⟩ := Prod.mk.inj h
      exact ⟨k, hk, .inl ⟨hanswer, (Option.some.inj hn).symm, hok hanswer⟩⟩
    | busy =>
      rw [hanswer] at h
      rw [← hother (by rw [hanswer]; decide)]
      exact ih (hk.succ hanswer) h
    | fail =>
      rw [hanswer] at h
      obtain ⟨hn, rfl⟩ := Prod.mk.inj h
      exact ⟨k, hk, .inr ⟨hanswer, (Option.some.inj hn).symm, hother (by rw [hanswer]; decide)⟩⟩

/-- Every copy has the narrowed length and is that of an attempt that finds `TxState` clear. -/
theorem write_copied {fuel k : ℕ} {s : CdcDevice} (hk : Reached attempts k) :
    ∀ len ∈ (transportUxrCdcWrite attempts buf fuel k s).2.copied, len ∈ s.copied ∨
      len = narrowed buf ∧ ∃ j, Reached attempts j ∧ (attempts j).txState = false := by
  induction fuel generalizing k s with
  | zero => exact fun len hlen => .inl hlen
  | succ fuel ih =>
    obtain ⟨u, hu, hcopied, -⟩ := write_succ attempts buf fuel k s
    have hmem : ∀ len ∈ u.copied, len ∈ s.copied ∨
        len = narrowed buf ∧ ∃ j, Reached attempts j ∧ (attempts j).txState = false := by
      intro len hlen
      rw [hcopied, List.mem_append] at hlen
      rcases hlen with hlen | hlen
      · exact .inl hlen
      · cases htx : (attempts k).txState with
        | true => simp [htx] at hlen
        | false => exact .inr ⟨by simpa [htx] using hlen, k, hk, htx⟩
    rw [hu]
    cases hanswer : (attempts k).answer with
    | ok => exact hmem
    | busy => exact fun len hlen => (ih (hk.succ hanswer) len hlen).elim (hmem len) .inr
    | fail => exact hmem

/-- An attempt that is reached is the last one for some number of attempts. -/
theorem write_reaches (buf : List UInt8) {k : ℕ} (hk : Reached attempts k) (s : CdcDevice) :
    ∃ u, transportUxrCdcWrite attempts buf (k + 1) 0 s =
      transportUxrCdcWrite attempts buf 1 k u := by
  have hskip : ∀ d, ∀ i s, (∀ j, i ≤ j → j < i + d → (attempts j).answer = .busy) →
      ∃ u, transportUxrCdcWrite attempts buf (d + 1) i s =
        transportUxrCdcWrite attempts buf 1 (i + d) u := by
    intro d
    induction d with
    | zero => exact fun i s _ => ⟨s, rfl⟩
    | succ d ih =>
      intro i s hbusy
      obtain ⟨u, hu, -⟩ := write_succ attempts buf (d + 1) i s
      rw [hbusy i le_rfl (by omega)] at hu
      obtain ⟨v, hv⟩ := ih (i + 1) u fun j h₁ h₂ => hbusy j (by omega) (by omega)
      exact ⟨v, hu.trans (by rw [hv, Nat.add_right_comm, Nat.add_assoc])⟩
  obtain ⟨u, hu⟩ := hskip k 0 s fun j _ h => hk j (by omega)
  exact ⟨u, by rw [hu, Nat.zero_add]⟩

/-- An attempt that is reached and finds `TxState` clear copies the message. -/
theorem copied_of_reached {k : ℕ} (hk : Reached attempts k) (htx : (attempts k).txState = false)
    (s : CdcDevice) :
    narrowed buf ∈ (transportUxrCdcWrite attempts buf (k + 1) 0 s).2.copied := by
  obtain ⟨u, hu⟩ := write_reaches buf hk s
  obtain ⟨v, hv, hcopied, -⟩ := write_succ attempts buf 0 k u
  have hmem : narrowed buf ∈ v.copied := by
    rw [hcopied, htx]
    simp
  rw [hu, hv]
  cases (attempts k).answer <;> exact hmem

/-- An attempt that is reached and submits the message ends the call. -/
theorem some_of_reached (buf : List UInt8) {k : ℕ} (hk : Reached attempts k)
    (hok : (attempts k).answer = .ok) (s : CdcDevice) :
    ∃ t, transportUxrCdcWrite attempts buf (k + 1) 0 s = (some buf.length, t) := by
  obtain ⟨u, hu⟩ := write_reaches buf hk s
  obtain ⟨v, hv, -⟩ := write_succ attempts buf 0 k u
  rw [hok] at hv
  exact ⟨v, hu.trans hv⟩

theorem txState_of_ok {a : Attempt} (h : a.answer = .ok) : a.txState = false := by
  rw [Attempt.answer] at h
  split at h
  · cases h
  · next htx => simpa using htx

end Write

/-- A call reports what it has sent exactly if the message fits the buffer; or no attempt that
    is made submits it, and what is left of its length in an `uint16_t` fits the buffer or no
    attempt finds `TxState` clear. -/
theorem reportsSent_iff (attempts : ℕ → Attempt) (buf : List UInt8) (s : CdcDevice) :
    ReportsSent attempts buf s ↔ buf.length ≤ appTxDataSize ∨
      (∀ k, Reached attempts k → (attempts k).answer ≠ .ok) ∧
        (buf.length % 65536 ≤ appTxDataSize ∨
          ∀ k, Reached attempts k → (attempts k).txState = true) := by
  have hzero : Reached attempts 0 := fun j hj => absurd hj (Nat.not_lt_zero j)
  constructor
  · intro h
    have hcopy : ∀ k, Reached attempts k → (attempts k).txState = false →
        narrowed buf ≤ appTxDataSize := fun k hk htx =>
      h.inside (k + 1) _ (copied_of_reached hk htx _)
    by_cases hfits : buf.length ≤ appTxDataSize
    · exact .inl hfits
    refine .inr ⟨fun k hk hok => hfits ?_, ?_⟩
    · -- the transfer has the narrowed length, so it is the message only if nothing is cut off
      obtain ⟨t, ht⟩ := some_of_reached buf hk hok s.unrecorded
      obtain ⟨j, -, hend⟩ := write_some hzero ht
      have hlen := hcopy k hk (txState_of_ok hok)
      rcases h.sent _ _ _ ht with ⟨hn, -⟩ | ⟨-, -, hsubmitted⟩
      · omega
      rcases hend with ⟨-, -, -, hsubmitted'⟩ | ⟨-, hn, -⟩
      · rw [hsubmitted] at hsubmitted'
        have hbuf : buf = buf.take (narrowed buf) :=
          congrArg Transfer.bytes (List.singleton_inj.mp hsubmitted')
        rw [hbuf, take_narrowed_length]
        exact hlen
      · omega
    · by_cases hcut : narrowed buf ≤ appTxDataSize
      · exact .inl hcut
      · refine .inr fun k hk => ?_
        by_contra htx
        exact hcut (hcopy k hk (by simpa using htx))
  · intro h
    constructor
    · intro fuel n t ht
      obtain ⟨j, hj, hend⟩ := write_some hzero ht
      rcases hend with ⟨hok, hn, hslice, hsubmitted⟩ | ⟨-, hn, hsubmitted⟩
      · rcases h with hfits | ⟨hnever, -⟩
        · have hnarrowed : narrowed buf = buf.length :=
            Nat.mod_eq_of_lt (hfits.trans_lt (by decide))
          rw [hnarrowed, List.take_length] at hslice hsubmitted
          exact .inr ⟨hn, hn ▸ hslice, hsubmitted⟩
        · exact absurd hok (hnever j hj)
      · exact .inl ⟨hn, hsubmitted⟩
    · intro fuel len hlen
      rcases write_copied hzero len hlen with hmem | ⟨rfl, j, hj, htx⟩
      · cases hmem
      rcases h with hfits | ⟨-, hcut | hbusy⟩
      · exact (Nat.mod_le _ _).trans hfits
      · exact hcut
      · rw [hbusy j hj] at htx
        cases htx

/-- A message one byte longer than the buffer is copied to its last byte. -/
theorem overlong_not_reported :
    ¬ ReportsSent (fun _ => ⟨false, true, false⟩) (List.replicate 2049 0) {} := by
  intro h
  have hlen : narrowed (List.replicate 2049 0) = 2049 := by
    rw [narrowed, List.length_replicate]
  have hreached : Reached (fun _ => ⟨false, true, false⟩) 0 := fun j hj =>
    absurd hj (Nat.not_lt_zero j)
  have hle := h.inside 1 _ (copied_of_reached hreached rfl _)
  rw [hlen] at hle
  exact absurd hle (by decide)

end CdcDevice

end RmMicroControllers
