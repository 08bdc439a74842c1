import RmMicroControllers.Tool.UsbCdc
import RmMicroControllers.Tool.UsbTransmit

/-!
# The transfers of the two ports

The two ports share one `TxState`. A transfer whose length is a positive multiple of the
maximal packet has to be ended by a zero-length packet: `USBD_CDC_DataIn` finds the length of
the last transfer in `ep_in[epnum].total_length`, where `USBD_CDC_TransmitPacket` has left it.
The latter leaves the length of every transfer at `CDC_IN_EP`.

## Main definitions

- `UsbLine` — the device and the transfers that the peripheral has not completed
- `UsbLine.Conforms` — what has been submitted, by the calls that were accepted

## Main results

- `UsbLine.conforms` — while no transfer of the second port lacks its zero-length packet
-/

namespace RmMicroControllers

open Memory Transition

namespace CdcPort

/-- The number of a port in a call. -/
def epindex : CdcPort → UInt8
  | .first => 0
  | .second => 2

/-- The IN endpoint of a port. -/
def inEp : CdcPort → UInt8
  | .first => cdcInEp
  | .second => cdcInEp + 2

end CdcPort

namespace Transfer

/-- A transfer that the host cannot tell to be over. -/
def NeedsEnd (t : Transfer) : Prop :=
  0 < t.bytes.length ∧ t.bytes.length % CdcDevice.maxpacket = 0

instance (t : Transfer) : Decidable t.NeedsEnd := inferInstanceAs (Decidable (_ ∧ _))

/-- The zero-length packet on the endpoint of a transfer. -/
def zeroPacket (t : Transfer) : Transfer := ⟨UInt8.ofNat (epNumber t.epAddr).val, []⟩

/-- What has to be submitted for a transfer. -/
def exchange (t : Transfer) : List Transfer := if t.NeedsEnd then [t, t.zeroPacket] else [t]

end Transfer

/-- A call of `CDC_Transmit_FS`, or the end of a transfer. -/
inductive UsbLineEvent where
  | transmit (port : CdcPort) (buf : List UInt8) (len : UInt16)
  | inComplete (t : Transfer)

/-- The device with the transfers that the peripheral has not completed, and the transfers of
    the calls that have been accepted. -/
structure UsbLine where
  device : CdcDevice := {}
  outstanding : List Transfer := []
  accepted : List Transfer := []

namespace UsbLine

/-- What a call has submitted. -/
def news (s d : CdcDevice) : List Transfer := d.submitted.drop s.submitted.length

/-- Calls on either port, and transfers that complete once. -/
inductive Step : UsbLine → UsbLineEvent → UsbLine → Prop where
  | transmit {s : UsbLine} {port : CdcPort} {buf : List UInt8} {len : UInt16}
      {status : TransmitStatus} {d : CdcDevice} :
      s.device.cdcTransmitFs id buf len port.epindex = (status, d) →
      Step s (.transmit port buf len)
        { device := d
          outstanding := s.outstanding ++ news s.device d
          accepted := if status = .ok then s.accepted ++ news s.device d else s.accepted }
  | inComplete {s : UsbLine} {t : Transfer} {status : TransmitStatus} {d : CdcDevice} :
      t ∈ s.outstanding → s.device.usbdCdcDataIn (epNumber t.epAddr) = (status, d) →
      Step s (.inComplete t)
        { s with device := d, outstanding := s.outstanding.erase t ++ news s.device d }

/-- `TxState` is set exactly while a transfer or its zero-length packet is outstanding. Whenever
    it is clear, every accepted transfer has been followed by its zero-length packet if it
    needs one, and nothing else has been submitted; while it is set, the same holds of all
    transfers but the last. -/
structure Conforms (s : UsbLine) : Prop where
  txState : s.device.txState = true ↔ s.outstanding ≠ []
  returned : s.device.txState = false →
    s.device.submitted = s.accepted.flatMap Transfer.exchange
  during : s.device.txState = true → ∃ before t, s.accepted = before ++ [t] ∧
    (s.outstanding = [t] ∧
        s.device.submitted = before.flatMap Transfer.exchange ++ [t] ∨
      t.NeedsEnd ∧ s.outstanding = [t.zeroPacket] ∧
        s.device.submitted = s.accepted.flatMap Transfer.exchange)

/-- The transfer that completes is not one of the second port that needs a zero-length
    packet. -/
def Ended (_ : UsbLine) : UsbLineEvent → Prop
  | .transmit _ _ _ => True
  | .inComplete t => ¬ (t.epAddr = CdcPort.second.inEp ∧ t.NeedsEnd)

/-- Runs in which no such transfer has completed. -/
abbrev EndedRuns (es : List UsbLineEvent) (s : UsbLine) : Prop :=
  Run (Guarded Ended Step) {} es s

/-! ### The invariant -/

/-- Where the device is with the last accepted transfer. The length left at `CDC_IN_EP` is that
    of a transfer of the first port while it is outstanding; nothing is ever left at the
    endpoint of the second port. -/
inductive Phase (s : UsbLine) : Prop where
  | idle : s.device.txState = false → s.outstanding = [] →
      s.device.submitted = s.accepted.flatMap Transfer.exchange → Phase s
  | sending (before : List Transfer) (port : CdcPort) (bytes : List UInt8) :
      s.device.txState = true → s.accepted = before ++ [⟨port.inEp, bytes⟩] →
      s.outstanding = [⟨port.inEp, bytes⟩] →
      s.device.submitted = before.flatMap Transfer.exchange ++ [⟨port.inEp, bytes⟩] →
      s.device.totalLength (epNumber cdcInEp) = bytes.length → Phase s
  | ending (before : List Transfer) (t : Transfer) :
      s.device.txState = true → s.accepted = before ++ [t] → t.epAddr = cdcInEp → t.NeedsEnd →
      s.outstanding = [t.zeroPacket] →
      s.device.submitted = s.accepted.flatMap Transfer.exchange →
      s.device.totalLength (epNumber cdcInEp) = 0 → Phase s

structure Tracks (s : UsbLine) : Prop where
  classData : s.device.classData = true
  second : s.device.totalLength (epNumber CdcPort.second.inEp) = 0
  phase : Phase s

theorem tracks_start : Tracks {} := ⟨rfl, rfl, .idle rfl rfl rfl⟩

theorem Tracks.conforming {s : UsbLine} (h : s.Tracks) : s.Conforms := by
  cases h.phase with
  | idle htx hout hsub =>
    exact ⟨by simp [htx, hout], fun _ => hsub, fun hyes => by simp [htx] at hyes⟩
  | sending before port bytes htx hacc hout hsub _ =>
    exact ⟨by simp [htx, hout], fun hno => by simp [htx] at hno,
      fun _ => ⟨before, _, hacc, .inl ⟨hout, hsub⟩⟩⟩
  | ending before t htx hacc _ hneeds hout hsub _ =>
    exact ⟨by simp [htx, hout], fun hno => by simp [htx] at hno,
      fun _ => ⟨before, t, hacc, .inr ⟨hneeds, hout, hsub⟩⟩⟩

theorem exchange_of_needsEnd {t : Transfer} (h : t.NeedsEnd) : t.exchange = [t, t.zeroPacket] :=
  if_pos h

theorem exchange_of_not {t : Transfer} (h : ¬ t.NeedsEnd) : t.exchange = [t] := if_neg h

theorem endpoints_ne : epNumber CdcPort.second.inEp ≠ epNumber cdcInEp := by decide

/-- A call is refused while `TxState` is set, and else submits one transfer. -/
theorem transmit_cases {s d : CdcDevice} (hs : s.classData = true) {port : CdcPort}
    {buf : List UInt8} {len : UInt16} {status : TransmitStatus}
    (h : s.cdcTransmitFs id buf len port.epindex = (status, d)) :
    (s.txState = true ∧ status = .busy ∧ d = s) ∨
      (s.txState = false ∧ status = .ok ∧ d.classData = true ∧ d.txState = true ∧
        ∃ bytes : List UInt8, d.submitted = s.submitted ++ [⟨port.inEp, bytes⟩] ∧
          d.totalLength = Function.update s.totalLength (epNumber cdcInEp) bytes.length) := by
  rw [CdcDevice.cdcTransmitFs] at h
  cases htx : s.txState with
  | true =>
    rw [htx, if_pos rfl] at h
    obtain ⟨rfl, rfl⟩ := Prod.mk.inj h
    exact .inl ⟨rfl, rfl, rfl⟩
  | false =>
    have hport : (if port.epindex < 2 then cdcInEp else cdcInEp + 2) = port.inEp := by
      cases port <;> rfl
    simp only [htx, Bool.false_eq_true, if_false, CdcDevice.copyToTxBuffer,
      CdcDevice.usbdCdcSetTxBuffer, hs, if_true, id_eq, CdcDevice.usbdCdcTransmitPacket,
      CdcDevice.usbdLlTransmit, hport] at h
    obtain ⟨rfl, rfl⟩ := Prod.mk.inj h
    refine .inr ⟨rfl, rfl, rfl, rfl, _, rfl, ?_⟩
    rw [slice_length, Nat.sub_zero]

/-- The end of a transfer is answered by a zero-length packet, or `TxState` is cleared. -/
theorem dataIn_cases {s d : CdcDevice} (hs : s.classData = true) {epnum : Fin 16}
    {status : TransmitStatus} (h : s.usbdCdcDataIn epnum = (status, d)) :
    ((0 < s.totalLength epnum ∧ s.totalLength epnum % CdcDevice.maxpacket = 0) ∧
        d.classData = true ∧ d.txState = s.txState ∧
        d.submitted = s.submitted ++ [⟨UInt8.ofNat epnum.val, []⟩] ∧
        d.totalLength = Function.update s.totalLength epnum 0) ∨
      (¬ (0 < s.totalLength epnum ∧ s.totalLength epnum % CdcDevice.maxpacket = 0) ∧
        d.classData = true ∧ d.txState = false ∧ d.submitted = s.submitted ∧
        d.totalLength = s.totalLength) := by
  rw [CdcDevice.usbdCdcDataIn] at h
  rw [hs, if_pos rfl] at h
  split at h <;> obtain ⟨rfl, rfl⟩ := Prod.mk.inj h
  · next hneeds => exact .inl ⟨hneeds, rfl, rfl, rfl, rfl⟩
  · next hdone => exact .inr ⟨hdone, rfl, rfl, rfl, rfl⟩

theorem tracks_transmit {s : UsbLine} (hs : s.Tracks) {port : CdcPort} {buf : List UInt8}
    {len : UInt16} {status : TransmitStatus} {d : CdcDevice}
    (h : s.device.cdcTransmitFs id buf len port.epindex = (status, d)) :
    Tracks { device := d
             outstanding := s.outstanding ++ news s.device d
             accepted := if status = .ok then s.accepted ++ news s.device d else s.accepted } := by
  rcases transmit_cases hs.classData h with
    ⟨-, rfl, rfl⟩ | ⟨htx, rfl, hclass, htx', bytes, hsub, htotal⟩
  · have hnews : news s.device s.device = [] := List.drop_length
    rw [hnews, List.append_nil, if_neg (by decide)]
    exact hs
  · have hnews : news s.device d = [⟨port.inEp, bytes⟩] := by
      rw [news, hsub, List.drop_left]
    cases hs.phase with
    | idle _ hout hlog =>
      rw [hnews, hout, if_pos rfl, List.nil_append]
      refine ⟨hclass, ?_, .sending s.accepted port bytes htx' rfl rfl ?_ ?_⟩
      · rw [htotal, Function.update_of_ne endpoints_ne]
        exact hs.second
      · rw [hsub, hlog]
      · rw [htotal, Function.update_self]
    | sending _ _ _ hyes => simp [htx] at hyes
    | ending _ _ hyes => simp [htx] at hyes

/-- Clearing `TxState` after the last transfer leaves nothing outstanding. -/
theorem Tracks.returned {s : UsbLine} (hs : s.Tracks) {t : Transfer} {d : CdcDevice}
    (hout : s.outstanding = [t]) (hclass : d.classData = true) (htx : d.txState = false)
    (hsub : d.submitted = s.device.submitted) (htotal : d.totalLength = s.device.totalLength)
    (hlog : s.device.submitted = s.accepted.flatMap Transfer.exchange) :
    Tracks { s with device := d, outstanding := s.outstanding.erase t ++ news s.device d } := by
  have hnews : news s.device d = [] := by rw [news, hsub, List.drop_length]
  refine ⟨hclass, ?_, .idle htx ?_ (hsub.trans hlog)⟩
  · rw [htotal]
    exact hs.second
  · simp [hnews, hout]

theorem tracks_inComplete {s : UsbLine} (hs : s.Tracks) {t : Transfer}
    {status : TransmitStatus} {d : CdcDevice} (ht : t ∈ s.outstanding)
    (hended : Ended s (.inComplete t))
    (h : s.device.usbdCdcDataIn (epNumber t.epAddr) = (status, d)) :
    Tracks { s with device := d, outstanding := s.outstanding.erase t ++ news s.device d } := by
  cases hs.phase with
  | idle _ hout => simp [hout] at ht
  | sending before port bytes htx hacc hout hlog hlen =>
    have hu : t = ⟨port.inEp, bytes⟩ := List.mem_singleton.mp (hout ▸ ht)
    rw [← hu] at hacc hout hlog
    have hexchange : ¬ t.NeedsEnd →
        s.device.submitted = s.accepted.flatMap Transfer.exchange := by
      intro hno
      rw [hlog, hacc, List.flatMap_append, List.flatMap_singleton, exchange_of_not hno]
    cases port with
    | first =>
      -- the length that was left at the submission is that of the transfer
      have hneeds : t.NeedsEnd ↔ 0 < s.device.totalLength (epNumber t.epAddr) ∧
          s.device.totalLength (epNumber t.epAddr) % CdcDevice.maxpacket = 0 := by
        have hlen' : s.device.totalLength (epNumber t.epAddr) = bytes.length := by
          rw [hu]
          exact hlen
        rw [hlen', hu]
        rfl
      rcases dataIn_cases hs.classData h with
        ⟨hyes, hclass, htx', hsub, htotal⟩ | ⟨hno, hclass, htx', hsub, htotal⟩
      · have hnews : news s.device d = [t.zeroPacket] := by
          rw [news, hsub, List.drop_left]
          rfl
        refine ⟨hclass, ?_, .ending before t (htx'.trans htx) hacc (by rw [hu]; rfl)
          (hneeds.mpr hyes) ?_ ?_ ?_⟩
        · rw [htotal, hu]
          exact (Function.update_of_ne endpoints_ne _ _).trans hs.second
        · simp [hnews, hout]
        · change d.submitted = s.accepted.flatMap Transfer.exchange
          rw [hsub, hlog, hacc, List.flatMap_append, List.flatMap_singleton,
            exchange_of_needsEnd (hneeds.mpr hyes), List.append_assoc]
          rfl
        · rw [htotal, hu]
          exact Function.update_self _ _ _
      · exact hs.returned hout hclass htx' hsub htotal (hexchange (hneeds.not.mpr hno))
    | second =>
      -- no length is ever left for the second port
      have hzero : s.device.totalLength (epNumber t.epAddr) = 0 := by
        rw [hu]
        exact hs.second
      rcases dataIn_cases hs.classData h with
        ⟨hyes, -⟩ | ⟨-, hclass, htx', hsub, htotal⟩
      · exact absurd hzero hyes.1.ne'
      · exact hs.returned hout hclass htx' hsub htotal
          (hexchange fun hneeds => hended ⟨by rw [hu], hneeds⟩)
  | ending before u htx hacc hep hneeds hout hlog hlen =>
    have hu : t = u.zeroPacket := List.mem_singleton.mp (hout ▸ ht)
    rw [← hu] at hout
    have hzero : s.device.totalLength (epNumber t.epAddr) = 0 := by
      rw [hu, Transfer.zeroPacket, hep]
      exact hlen
    rcases dataIn_cases hs.classData h with
      ⟨hyes, -⟩ | ⟨-, hclass, htx', hsub, htotal⟩
    · exact absurd hzero hyes.1.ne'
    · exact hs.returned hout hclass htx' hsub htotal hlog

/-- In every run in which no transfer of the second port has completed whose length is a
    positive multiple of 64, the device conforms. -/
theorem conforms {es : List UsbLineEvent} {s : UsbLine} (h : EndedRuns es s) : s.Conforms := by
  refine Tracks.conforming (h.invariant (fun s e t hs hstep => ?_) tracks_start)
  obtain ⟨hended, hstep⟩ := hstep
  cases hstep with
  | transmit h => exact tracks_transmit hs h
  | inComplete ht h => exact tracks_inComplete hs ht hended h

/-- Sixty-four bytes for a port. -/
def fullPacket (port : CdcPort) : Transfer := ⟨port.inEp, List.replicate 64 0⟩

/-- Sixty-four bytes on the second port get no zero-length packet. -/
theorem second_not_conforms :
    ∃ s, Run Step {} [.transmit .second (List.replicate 64 0) 64,
      .inComplete (fullPacket .second)] s ∧ ¬ s.Conforms := by
  refine ⟨_, (Run.single (.transmit rfl)).snoc (.inComplete (by decide) rfl), fun h => ?_⟩
  have hlog := h.returned rfl
  revert hlog
  decide

/-- On the first port they do. -/
theorem first_conforms :
    ∃ s, EndedRuns [.transmit .first (List.replicate 64 0) 64, .inComplete (fullPacket .first)] s ∧
      s.Conforms ∧ s.outstanding = [(fullPacket .first).zeroPacket] := by
  obtain ⟨s, hrun, hout⟩ : ∃ s, EndedRuns
      [.transmit .first (List.replicate 64 0) 64, .inComplete (fullPacket .first)] s ∧
      s.outstanding = [(fullPacket .first).zeroPacket] := by
    have hcall : ∀ t, Step {} (.transmit .first (List.replicate 64 0) 64) t →
        Guarded Ended Step {} (.transmit .first (List.replicate 64 0) 64) t :=
      fun _ h => ⟨trivial, h⟩
    refine ⟨_, (Run.single (hcall _ (.transmit rfl))).snoc ⟨?_, .inComplete ?_ rfl⟩, ?_⟩
    · exact fun h => absurd h.1 (by decide)
    · decide
    · decide
  exact ⟨s, hrun, conforms hrun, hout⟩

end UsbLine

end RmMicroControllers
