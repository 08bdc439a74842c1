import Mathlib.Logic.Function.Basic
import Mathlib.Tactic.FinCases
import RmMicroControllers.Tool.CacheFifo

/-!
# Packets from the virtual COM ports

`USBD_CDC_DataOut`, `CDC_Receive_FS` and `transimitionUsbCdcRx`: a packet on one of the two OUT
endpoints goes into a queue of `gAcmCacheArray`. The endpoint is handed on as the number 0
or 2, and the last of the three functions indexes the two queues with it.

## Main results

- `UsbCdc.ready_of_run` — the queues keep their shape and record no error
- `UsbCdc.delivers_iff` — which packets get to the queue of their port
-/

namespace RmMicroControllers

open Transition

/-- How the path of a packet can fail to return: an index outside `gAcmCacheArray`, or a fault
    of the queue. -/
inductive AcmFault where
  | outOfBounds (i : ℕ)
  | cache (f : CacheFault)
  deriving DecidableEq

/-- `USBD_StatusTypeDef`, as far as the path uses it. -/
inductive UsbdStatus where
  | ok
  | fail
  deriving DecidableEq

/-- `CDC_OUT_EP`. -/
def cdcOutEp : UInt8 := 1

/-- The device, with the members of its class data that the path of a packet uses, and the
    queues. `prepared` are the endpoints that may receive; `USBD_CDC_Init` prepares
    `CDC_OUT_EP`. -/
structure UsbCdc where
  classData : Bool := true
  rxBuffer : List UInt8 := []
  rxLength : ℕ := 0
  prepared : UInt8 → Bool := fun ep => ep == cdcOutEp
  acmCacheArray : Fin 2 → CacheBuffer 1000 := fun _ => {}

namespace UsbCdc

/-- `USBD_CDC_ReceivePacket`. -/
def usbdCdcReceivePacket (s : UsbCdc) (epindex : UInt8) : UsbdStatus × UsbCdc :=
  if s.classData then
    let ep := if epindex < 2 then cdcOutEp else cdcOutEp + 2
    (.ok, { s with prepared := Function.update s.prepared ep true })
  else (.fail, s)

/-- `transimitionUsbCdcRx`. -/
def transimitionUsbCdcRx (s : UsbCdc) (buf : List UInt8) (index : UInt8) :
    Except AcmFault (Bool × UsbCdc) :=
  if h : index.toNat < 2 then
    match (s.acmCacheArray ⟨index.toNat, h⟩).write buf with
    | .ok (done, c) =>
      .ok (done, { s with
        acmCacheArray := Function.update s.acmCacheArray ⟨index.toNat, h⟩ c })
    | .error f => .error (.cache f)
  else .error (.outOfBounds index.toNat)

/-- `CDC_Receive_FS`, which drops what the two calls answer. -/
def cdcReceiveFs (s : UsbCdc) (buf : List UInt8) (epindex : UInt8) :
    Except AcmFault (UsbdStatus × UsbCdc) := do
  let s := { s with rxBuffer := buf }
  let (_, s) := s.usbdCdcReceivePacket epindex
  let (_, s) ← s.transimitionUsbCdcRx buf epindex
  return (.ok, s)

/-- `USBD_CDC_DataOut`, with the packet that the endpoint has received. -/
def usbdCdcDataOut (s : UsbCdc) (epnum : UInt8) (packet : List UInt8) :
    Except AcmFault (UsbdStatus × UsbCdc) :=
  if s.classData then
    { s with
      rxLength := packet.length
      prepared := Function.update s.prepared epnum false }.cdcReceiveFs packet
      (if epnum = cdcOutEp then 0 else 2)
  else .ok (.fail, s)

end UsbCdc

/-- The OUT endpoints of the two ports. -/
inductive CdcPort where
  | first
  | second
  deriving DecidableEq

namespace CdcPort

/-- The endpoint of a port. -/
def epnum : CdcPort → UInt8
  | .first => cdcOutEp
  | .second => cdcOutEp + 2

/-- The queue of a port. -/
def queue : CdcPort → Fin 2
  | .first => 0
  | .second => 1

end CdcPort

/-- A packet on one of the endpoints, or a read of one of the queues. -/
inductive UsbEvent where
  | packet (port : CdcPort) (bytes : List UInt8)
  | read (queue : Fin 2) (len : ℕ) (timeCheck : ℕ → Bool)

namespace UsbCdc

/-- Calls that return. -/
inductive Step : UsbCdc → UsbEvent → UsbCdc → Prop where
  | packet {s t : UsbCdc} {port : CdcPort} {bytes : List UInt8} {status : UsbdStatus} :
      s.usbdCdcDataOut port.epnum bytes = .ok (status, t) → Step s (.packet port bytes) t
  | read {s : UsbCdc} {queue : Fin 2} {len fuel : ℕ} {timeCheck : ℕ → Bool}
      {dest : List UInt8} {c : CacheBuffer 1000} : len < 2 ^ 32 →
      (s.acmCacheArray queue).read fuel len timeCheck = .ok (dest, c) →
      Step s (.read queue len timeCheck)
        { s with acmCacheArray := Function.update s.acmCacheArray queue c }

/-- A packet is appended to the queue of its own port, without an error, and the other queue
    is left alone. -/
def Delivers (s : UsbCdc) (port : CdcPort) (bytes : List UInt8) : Prop :=
  ∃ t, s.usbdCdcDataOut port.epnum bytes = .ok (.ok, t) ∧
    (t.acmCacheArray port.queue).contents =
      (s.acmCacheArray port.queue).contents ++ bytes ∧
    (t.acmCacheArray port.queue).error = false ∧
    ∀ queue, queue ≠ port.queue → t.acmCacheArray queue = s.acmCacheArray queue

/-- A packet comes on `CDC_OUT_EP` and leaves a byte of the first queue free. -/
def Fits (s : UsbCdc) : UsbEvent → Prop
  | .packet port bytes =>
    port = .first ∧ (s.acmCacheArray 0).contents.length + bytes.length < 1000
  | .read _ _ _ => True

/-- The device while all packets fit. -/
structure Ready (s : UsbCdc) : Prop where
  classData : s.classData = true
  shape : ∀ queue, (s.acmCacheArray queue).Shape
  error : ∀ queue, (s.acmCacheArray queue).error = false

theorem ready_start : Ready {} :=
  ⟨rfl, fun _ => CacheBuffer.shape_fresh (by decide), fun _ => rfl⟩

/-- A packet on `CDC_OUT_EP` is written to the first queue, whatever comes of it. -/
theorem dataOut_first {s : UsbCdc} (hs : s.Ready) (bytes : List UInt8) :
    ∃ c t, (s.acmCacheArray 0).write bytes =
        .ok (decide ((s.acmCacheArray 0).contents.length + bytes.length < 1000), c) ∧
      c.error = !decide ((s.acmCacheArray 0).contents.length + bytes.length < 1000) ∧
      s.usbdCdcDataOut cdcOutEp bytes = .ok (.ok, t) ∧ t.classData = true ∧
      t.acmCacheArray = Function.update s.acmCacheArray 0 c := by
  obtain ⟨c, hwrite, herror⟩ := CacheBuffer.write_room (by decide) (hs.shape 0) bytes
  rw [hs.error 0, Bool.false_or] at herror
  refine ⟨c, { s with
    rxBuffer := bytes
    rxLength := bytes.length
    prepared := Function.update (Function.update s.prepared cdcOutEp false) cdcOutEp true
    acmCacheArray := Function.update s.acmCacheArray 0 c }, hwrite, herror, ?_, hs.classData, rfl⟩
  unfold usbdCdcDataOut cdcReceiveFs usbdCdcReceivePacket transimitionUsbCdcRx
  simp only [hs.classData, if_true]
  rw [dif_pos (by decide)]
  simp only [show (⟨(0 : UInt8).toNat, by decide⟩ : Fin 2) = 0 from rfl]
  rw [hwrite]
  rfl

/-- A packet on the other endpoint ends in an access beyond `gAcmCacheArray`. -/
theorem dataOut_second {s : UsbCdc} (hs : s.classData = true) (bytes : List UInt8) :
    s.usbdCdcDataOut (cdcOutEp + 2) bytes = .error (.outOfBounds 2) := by
  have hne : cdcOutEp + 2 ≠ cdcOutEp := by decide
  unfold usbdCdcDataOut cdcReceiveFs usbdCdcReceivePacket transimitionUsbCdcRx
  simp only [hs, if_true, if_neg hne]
  rw [dif_neg (by decide)]
  rfl

/-! ### Runs in which every packet fits -/

/-- Packets that fit, and reads, in any order. -/
abbrev FittingRuns (es : List UsbEvent) (s : UsbCdc) : Prop :=
  Run (Guarded Fits Step) {} es s

theorem ready_step {s t : UsbCdc} {e : UsbEvent} (hs : s.Ready) (he : Fits s e)
    (h : Step s e t) : t.Ready := by
  cases h with
  | @packet _ port bytes status h =>
    obtain ⟨rfl, hroom⟩ := he
    obtain ⟨c, t', hwrite, herror, ht', hclass, hacm⟩ := dataOut_first hs bytes
    rw [decide_eq_true hroom] at hwrite herror
    obtain rfl : t' = t := congrArg Prod.snd (Except.ok.inj (ht'.symm.trans h))
    have hshape := (CacheBuffer.write_spec (by decide) (hs.shape 0) hwrite).shape
    refine ⟨hclass, fun queue => ?_, fun queue => ?_⟩ <;> rw [hacm] <;>
      by_cases hq : queue = 0
    · rw [hq, Function.update_self]
      exact hshape
    · rw [Function.update_of_ne hq]
      exact hs.shape queue
    · rw [hq, Function.update_self]
      exact herror
    · rw [Function.update_of_ne hq]
      exact hs.error queue
  | @read queue len fuel timeCheck dest c hlen h =>
    have hshape := (CacheBuffer.readLoop_le (by decide) hlen (hs.shape queue) (Nat.zero_le _) h).1
    have herror :=
      CacheBuffer.readLoop_error (by decide) hlen (hs.shape queue) (Nat.zero_le _) h
    refine ⟨hs.classData, fun queue' => ?_, fun queue' => ?_⟩ <;>
      by_cases hq : queue' = queue
    · rw [hq]
      simpa using hshape
    · simpa [hq] using hs.shape queue'
    · rw [hq]
      simpa using herror.trans (hs.error queue)
    · simpa [hq] using hs.error queue'

theorem ready_of_run {es : List UsbEvent} {s : UsbCdc} (h : FittingRuns es s) : s.Ready :=
  h.invariant (fun _ _ _ hs hstep => ready_step hs hstep.1 hstep.2) ready_start

/-- In every state that packets which fit and reads lead to, the next packet is delivered
    exactly when it fits too. -/
theorem delivers_iff {es : List UsbEvent} {s : UsbCdc} (h : FittingRuns es s) (port : CdcPort)
    (bytes : List UInt8) : Delivers s port bytes ↔ Fits s (.packet port bytes) := by
  have hs := ready_of_run h
  cases port with
  | first =>
    obtain ⟨c, t, hwrite, herror, ht, -, hacm⟩ := dataOut_first hs bytes
    constructor
    · rintro ⟨t', ht', -, herror', -⟩
      obtain rfl : t = t' := congrArg Prod.snd (Except.ok.inj (ht.symm.trans ht'))
      rw [hacm, CdcPort.queue, Function.update_self, herror] at herror'
      refine ⟨rfl, ?_⟩
      simpa using herror'
    · rintro ⟨-, hroom⟩
      rw [decide_eq_true hroom] at hwrite herror
      refine ⟨t, ht, ?_, ?_, fun queue hq => ?_⟩ <;> rw [hacm]
      · rw [CdcPort.queue, Function.update_self]
        exact (CacheBuffer.write_spec (by decide) (hs.shape 0) hwrite).contents
      · rw [CdcPort.queue, Function.update_self]
        exact herror
      · exact Function.update_of_ne hq _ _
  | second =>
    refine iff_of_false ?_ fun hfits => nomatch hfits.1
    rintro ⟨t, ht, -⟩
    rw [CdcPort.epnum, dataOut_second hs.classData] at ht
    cases ht

/-- The first packet on the second port is not delivered: its index is 2. -/
theorem delivers_fails_second :
    FittingRuns [] {} ∧ ¬ Delivers {} .second [1] ∧
      UsbCdc.usbdCdcDataOut {} CdcPort.second.epnum [1] = .error (.outOfBounds 2) := by
  have hfault := dataOut_second (s := {}) rfl [1]
  refine ⟨.nil, ?_, hfault⟩
  rintro ⟨t, ht, -⟩
  rw [CdcPort.epnum, hfault] at ht
  cases ht

/-- A packet on the first port is. -/
theorem delivers_first : Delivers {} .first [1] :=
  (delivers_iff .nil .first [1]).mpr ⟨rfl, by decide⟩

end UsbCdc

end RmMicroControllers
