import RmMicroControllers.Library.Packets
import RmMicroControllers.Tool.UsbTransfer

/-!
# Messages on the first port

`transportUxrCdcWrite` returns as soon as its message has been submitted, while the peripheral
still reads `UserTxBufferFS`, a packet whenever the host asks for one. The next message is copied
into the same buffer. Nothing but `TxState` keeps it from getting in between the packets, and
nothing but the lengths of the packets tells the host where a message ends.

## Main definitions

- `UsbStream` — the device, the call of `transportUxrCdcWrite`, the endpoint and the packets
- `UsbStream.Delivered` — what the host has got of the messages that were reported as sent

## Main results

- `UsbStream.attempt_eq_write` — an attempt is one pass of `transportUxrCdcWrite`
- `UsbStream.delivered_of_run` — every message arrives whole, in order and once
- `UsbStream.drained` — a host that goes on asking gets all of them
-/

namespace RmMicroControllers

open Memory Packets Transition

/-- The transfer that the IN endpoint is at: its length, how much of it has been read, and
whether its last packet has. -/
structure InTransfer where
  length : ℕ
  sent : ℕ := 0
  finished : Bool := false
  deriving DecidableEq

/-- The task in `transportUxrCdcWrite` with its message, the messages for which it has returned
their length, and the packets that the host has read. -/
structure UsbStream where
  device : CdcDevice := {}
  writer : Option (List UInt8) := none
  reported : List (List UInt8) := []
  active : Option InTransfer := none
  wire : List (List UInt8) := []

/-- A call of `transportUxrCdcWrite`, one pass of its loop, the host asking for a packet, and the
interrupt for a transfer that is finished. -/
inductive UsbStreamEvent where
  | write (buf : List UInt8)
  | attempt
  | inToken
  | inComplete

namespace UsbStream

/-- A transfer that has just been submitted takes the endpoint. -/
def submitted (active : Option InTransfer) (s d : CdcDevice) : Option InTransfer :=
  match UsbLine.news s d with
  | [] => active
  | t :: _ => some { length := t.bytes.length }

/-- The device on one event. -/
def step (s : UsbStream) : UsbStreamEvent → UsbStream
  | .write buf => if s.writer = none then { s with writer := some buf } else s
  | .attempt =>
    match s.writer with
    | none => s
    | some buf =>
      match s.device.cdcTransmitFs id buf (UInt16.ofNat buf.length) 0 with
      | (.ok, d) =>
        { s with
          device := d
          writer := none
          reported := s.reported ++ [buf]
          active := submitted s.active s.device d }
      | (.busy, d) => { s with device := d }
      | (.fail, d) => { s with device := d, writer := none }
  | .inToken =>
    match s.active with
    | some ⟨length, sent, false⟩ =>
      let stop := min (sent + CdcDevice.maxpacket) length
      { s with
        active := some ⟨length, stop, decide (stop = length)⟩
        wire := s.wire ++ [slice s.device.userTxBuffer sent stop] }
    | _ => s
  | .inComplete =>
    match s.active with
    | some ⟨_, _, true⟩ =>
      let d := (s.device.usbdCdcDataIn (epNumber cdcInEp)).2
      { s with device := d, active := submitted none s.device d }
    | _ => s

/-- A message fits the buffer. -/
def Fits (_ : UsbStream) : UsbStreamEvent → Prop
  | .write buf => buf.length ≤ appTxDataSize
  | _ => True

/-- Any order of calls, passes, packets and interrupts, with messages that fit the buffer. -/
abbrev Runs (es : List UsbStreamEvent) (s : UsbStream) : Prop :=
  Run (Guarded Fits fun s e t => t = s.step e) {} es s

/-- The host has every message that was reported as sent, or all but the last one and a beginning
of that. -/
structure Delivered (s : UsbStream) : Prop where
  idle : s.device.txState = false →
    reassemble CdcDevice.maxpacket s.wire = (s.reported, [])
  busy : s.device.txState = true → ∃ before msg, s.reported = before ++ [msg] ∧
    (reassemble CdcDevice.maxpacket s.wire = (s.reported, []) ∨
      ∃ got, got <+: msg ∧ reassemble CdcDevice.maxpacket s.wire = (before, got))

/-! ### The two ends of a transfer -/

/-- What `transportUxrCdcWrite` finds if no interrupt comes in between. -/
def found (d : CdcDevice) : CdcDevice.Attempt := ⟨d.txState, d.classData, d.txState⟩

theorem transmit_found {d : CdcDevice} (hclass : d.classData = true) (buf : List UInt8)
    (len : UInt16) :
    CdcDevice.cdcTransmitFs (found d).between ((found d).before d) buf len 0 =
      d.cdcTransmitFs id buf len 0 := by
  obtain ⟨classData, txState, txLength, totalLength, userTxBuffer, copied, submitted⟩ := d
  obtain rfl : classData = true := hclass
  cases txState <;> rfl

theorem step_attempt {s : UsbStream} {buf : List UInt8} (hwriter : s.writer = some buf) :
    s.step .attempt =
      match s.device.cdcTransmitFs id buf (UInt16.ofNat buf.length) 0 with
      | (.ok, d) =>
        { s with
          device := d
          writer := none
          reported := s.reported ++ [buf]
          active := submitted s.active s.device d }
      | (.busy, d) => { s with device := d }
      | (.fail, d) => { s with device := d, writer := none } := by
  rw [step, hwriter]

/-- An attempt is one pass of the loop. -/
theorem attempt_eq_write {s : UsbStream} {buf : List UInt8} (hclass : s.device.classData = true)
    (hwriter : s.writer = some buf) {attempts : ℕ → CdcDevice.Attempt} {k : ℕ}
    (hk : attempts k = found s.device) (fuel : ℕ) :
    CdcDevice.transportUxrCdcWrite attempts buf (fuel + 1) k s.device =
      if (s.step .attempt).writer = none then (some buf.length, (s.step .attempt).device)
      else CdcDevice.transportUxrCdcWrite attempts buf fuel (k + 1) (s.step .attempt).device := by
  rw [CdcDevice.transportUxrCdcWrite, hk, transmit_found hclass, step_attempt hwriter]
  rcases h : s.device.cdcTransmitFs id buf (UInt16.ofNat buf.length) 0 with ⟨status, d⟩
  rcases @UsbLine.transmit_cases s.device d hclass .first buf _ status h with
    ⟨-, rfl, -⟩ | ⟨-, rfl, -⟩
  · dsimp only
    rw [hwriter, if_neg (Option.some_ne_none buf)]
  · exact (if_pos rfl).symm

/-- A call copies the message and submits it, unless a transfer is outstanding. -/
theorem transmit_spec {d : CdcDevice} (hclass : d.classData = true) {buf : List UInt8}
    (hfits : buf.length ≤ appTxDataSize) :
    (d.txState = true ∧ d.cdcTransmitFs id buf (UInt16.ofNat buf.length) 0 = (.busy, d)) ∨
      (d.txState = false ∧ ∃ d',
        d.cdcTransmitFs id buf (UInt16.ofNat buf.length) 0 = (.ok, d') ∧
        d'.classData = true ∧ d'.txState = true ∧
        UsbLine.news d d' = [⟨cdcInEp, buf⟩] ∧ slice d'.userTxBuffer 0 buf.length = buf ∧
        d'.totalLength (epNumber cdcInEp) = buf.length) := by
  have hlen : (UInt16.ofNat buf.length).toNat = buf.length := by
    rw [UInt16.toNat_ofNat']
    exact Nat.mod_eq_of_lt (Nat.lt_of_le_of_lt hfits (by decide))
  have hslice : slice (patch d.userTxBuffer 0 buf) 0 buf.length = buf := by
    have h : slice (patch d.userTxBuffer 0 buf) 0 (0 + buf.length) = buf := slice_patch_self
    rwa [Nat.zero_add] at h
  cases htx : d.txState with
  | true =>
    refine .inl ⟨rfl, ?_⟩
    rw [CdcDevice.cdcTransmitFs]
    rw [if_pos htx]
  | false =>
    refine .inr ⟨rfl, { d with
      userTxBuffer := patch d.userTxBuffer 0 buf
      copied := d.copied ++ [buf.length]
      txLength := buf.length
      txState := true
      totalLength := Function.update d.totalLength (epNumber cdcInEp) buf.length
      submitted := d.submitted ++ [⟨cdcInEp, buf⟩] }, ?_, hclass, rfl, ?_, hslice, ?_⟩
    · simp only [CdcDevice.cdcTransmitFs, htx, Bool.false_eq_true, if_false, hlen,
        CdcDevice.copyToTxBuffer, List.take_length, CdcDevice.usbdCdcSetTxBuffer, hclass, if_true,
        id_eq, CdcDevice.usbdCdcTransmitPacket, CdcDevice.usbdLlTransmit, hslice]
      rfl
    · exact List.drop_left
    · exact Function.update_self (epNumber cdcInEp) buf.length d.totalLength

/-- The packets of a transfer that the host has not read, for the message that it carries or
ends. The length that is left at the endpoint decides about an empty packet. -/
inductive Stage (d : CdcDevice) (msg : List UInt8) : InTransfer → List (List UInt8) → Prop where
  | sending (sent : ℕ) : slice d.userTxBuffer 0 msg.length = msg →
      d.totalLength (epNumber cdcInEp) = msg.length → sent % CdcDevice.maxpacket = 0 →
      sent < msg.length ∨ msg.length = 0 ∧ sent = 0 →
      Stage d msg ⟨msg.length, sent, false⟩ (packets CdcDevice.maxpacket (msg.drop sent))
  | sent : d.totalLength (epNumber cdcInEp) = msg.length →
      ¬Transfer.NeedsEnd ⟨cdcInEp, msg⟩ → Stage d msg ⟨msg.length, msg.length, true⟩ []
  | unended : d.totalLength (epNumber cdcInEp) = msg.length →
      Transfer.NeedsEnd ⟨cdcInEp, msg⟩ → Stage d msg ⟨msg.length, msg.length, true⟩ [[]]
  | ending : d.totalLength (epNumber cdcInEp) = 0 → Stage d msg ⟨0, 0, false⟩ [[]]
  | ended : d.totalLength (epNumber cdcInEp) = 0 → Stage d msg ⟨0, 0, true⟩ []

/-- The end of a transfer is the end of the message, or an empty packet follows. -/
theorem Stage.inComplete {d : CdcDevice} {msg : List UInt8} {length sent : ℕ}
    {rest : List (List UInt8)} (h : Stage d msg ⟨length, sent, true⟩ rest)
    (hclass : d.classData = true) {status : TransmitStatus} {d' : CdcDevice}
    (hd : d.usbdCdcDataIn (epNumber cdcInEp) = (status, d')) :
    d'.classData = true ∧
      (rest = [] ∧ d'.txState = false ∧ submitted none d d' = none ∨
        rest = [[]] ∧ d'.txState = d.txState ∧ submitted none d d' = some ⟨0, 0, false⟩ ∧
          Stage d' msg ⟨0, 0, false⟩ [[]]) := by
  rcases UsbLine.dataIn_cases hclass hd with
    ⟨hneeds, hclass', htx, hsub, htotal⟩ | ⟨hdone, hclass', htx, hsub, htotal⟩
  · have hnews : submitted none d d' = some ⟨0, 0, false⟩ := by
      rw [submitted, UsbLine.news, hsub, List.drop_left]
      rfl
    have hzero : d'.totalLength (epNumber cdcInEp) = 0 := by
      rw [htotal, Function.update_self]
    refine ⟨hclass', .inr ⟨?_, htx, hnews, .ending hzero⟩⟩
    cases h with
    | sent hlen hno =>
      rw [hlen] at hneeds
      exact absurd hneeds hno
    | unended hlen hyes => rfl
    | ended hlen => exact absurd hlen hneeds.1.ne'
  · have hnews : submitted none d d' = none := by
      rw [submitted, UsbLine.news, hsub, List.drop_length]
    refine ⟨hclass', .inl ⟨?_, htx, hnews⟩⟩
    cases h with
    | sent hlen hno => rfl
    | unended hlen hyes =>
      rw [hlen] at hdone
      exact absurd hyes hdone
    | ended hlen => rfl

/-- The host reads the next packet of the message. -/
theorem Stage.inToken {d : CdcDevice} {msg : List UInt8} {length sent : ℕ}
    {rest : List (List UInt8)} (h : Stage d msg ⟨length, sent, false⟩ rest) :
    ∃ rest', rest = slice d.userTxBuffer sent (min (sent + CdcDevice.maxpacket) length) :: rest' ∧
      Stage d msg ⟨length, min (sent + CdcDevice.maxpacket) length,
        decide (min (sent + CdcDevice.maxpacket) length = length)⟩ rest' := by
  cases h with
  | ending hlen => exact ⟨[], rfl, .ended hlen⟩
  | sending _ hbuf hlen hmod hsent =>
    have hslice : ∀ stop, sent ≤ stop → stop ≤ msg.length →
        slice d.userTxBuffer sent stop = (msg.take stop).drop sent := by
      intro stop hlo hhi
      have htake := slice_eq_take (m := d.userTxBuffer) (Nat.zero_le stop) hhi
      have hdrop := slice_eq_drop (m := d.userTxBuffer) (Nat.zero_le sent) hlo
      rw [hdrop, htake, hbuf, Nat.sub_zero, Nat.sub_zero]
    have hxs : (msg.drop sent).length = msg.length - sent := List.length_drop
    by_cases hfull : sent + CdcDevice.maxpacket ≤ msg.length
    · have hpackets : packets CdcDevice.maxpacket (msg.drop sent) =
          slice d.userTxBuffer sent (sent + CdcDevice.maxpacket) ::
            packets CdcDevice.maxpacket (msg.drop (sent + CdcDevice.maxpacket)) := by
        rw [packets_full (by decide) (by omega), List.drop_drop, hslice _ (by omega) hfull,
          List.drop_take, Nat.add_sub_cancel_left]
      have hmod' : (sent + CdcDevice.maxpacket) % CdcDevice.maxpacket = 0 := by
        rw [Nat.add_mod_right, hmod]
      rw [min_eq_left hfull]
      refine ⟨_, hpackets, ?_⟩
      by_cases hend : sent + CdcDevice.maxpacket = msg.length
      · have hempty : packets CdcDevice.maxpacket (msg.drop msg.length) = [[]] := by
          rw [List.drop_length]
          exact packets_short (by decide)
        rw [decide_eq_true hend, hend, hempty]
        rw [hend] at hmod'
        refine .unended hlen ⟨?_, hmod'⟩
        rw [← hend]
        exact Nat.add_pos_right _ (by decide)
      · rw [decide_eq_false hend]
        exact .sending _ hbuf hlen hmod' (.inl (by omega))
    · -- what is left does not fill a packet
      have hpackets : packets CdcDevice.maxpacket (msg.drop sent) =
          [slice d.userTxBuffer sent msg.length] := by
        rw [packets_short (by omega), hslice _ (by omega) le_rfl, List.take_length]
      rw [min_eq_right (by omega), decide_eq_true rfl]
      refine ⟨[], hpackets, .sent hlen fun hneeds => ?_⟩
      obtain ⟨hpos, hdvd⟩ : 0 < msg.length ∧ msg.length % CdcDevice.maxpacket = 0 := hneeds
      simp only [CdcDevice.maxpacket] at hfull hmod hdvd
      omega

/-! ### The invariant -/

/-- What has been read of the packets, and what the endpoint still has of the last message. -/
inductive Phase (s : UsbStream) : Prop where
  | idle : s.device.txState = false → s.active = none →
      s.wire = s.reported.flatMap (packets CdcDevice.maxpacket) → Phase s
  | busy (before : List (List UInt8)) (msg : List UInt8) (pre rest : List (List UInt8))
      (t : InTransfer) : s.device.txState = true → s.reported = before ++ [msg] →
      s.active = some t → Stage s.device msg t rest →
      pre ++ rest = packets CdcDevice.maxpacket msg →
      s.wire = before.flatMap (packets CdcDevice.maxpacket) ++ pre → Phase s

structure Tracks (s : UsbStream) : Prop where
  classData : s.device.classData = true
  writer : ∀ buf, s.writer = some buf → buf.length ≤ appTxDataSize
  phase : Phase s

theorem tracks_start : Tracks {} := ⟨rfl, fun _ h => (nomatch h), .idle rfl rfl rfl⟩

theorem Tracks.delivered {s : UsbStream} (h : s.Tracks) : s.Delivered := by
  cases h.phase with
  | idle htx _ hwire =>
    refine ⟨fun _ => ?_, fun hbusy => (nomatch htx.symm.trans hbusy)⟩
    rw [hwire]
    exact reassemble_packets (by decide) _
  | busy before msg pre rest t htx hreported _ _ hpre hwire =>
    refine ⟨fun hidle => (nomatch htx.symm.trans hidle), fun _ => ⟨before, msg, hreported, ?_⟩⟩
    rw [hwire]
    by_cases hrest : rest = []
    · rw [hrest, List.append_nil] at hpre
      have hall : before.flatMap (packets CdcDevice.maxpacket) ++ pre =
          s.reported.flatMap (packets CdcDevice.maxpacket) := by
        rw [hreported, List.flatMap_append, List.flatMap_singleton, hpre]
      rw [hall]
      exact .inl (reassemble_packets (by decide) _)
    · exact .inr (reassemble_unfinished (by decide) hpre hrest before)

theorem Tracks.write {s : UsbStream} (h : s.Tracks) {buf : List UInt8}
    (hfits : buf.length ≤ appTxDataSize) : (s.step (.write buf)).Tracks := by
  rw [step]
  split
  · refine ⟨h.classData, fun buf' hbuf => ?_, ?_⟩
    · obtain rfl : buf = buf' := Option.some.inj hbuf
      exact hfits
    · cases h.phase with
      | idle htx hactive hwire => exact .idle htx hactive hwire
      | busy before msg pre rest t htx hreported hactive hstage hpre hwire =>
        exact .busy before msg pre rest t htx hreported hactive hstage hpre hwire
  · exact h

theorem Tracks.attempt {s : UsbStream} (h : s.Tracks) : (s.step .attempt).Tracks := by
  cases hwriter : s.writer with
  | none =>
    rw [step, hwriter]
    exact h
  | some buf =>
    rw [step_attempt hwriter]
    rcases transmit_spec h.classData (h.writer buf hwriter) with
      ⟨-, hcall⟩ | ⟨htx, d, hcall, hclass, htx', hnews, hbuf, hlen⟩
    · rw [hcall]
      exact h
    · rw [hcall]
      have hactive : submitted s.active s.device d = some ⟨buf.length, 0, false⟩ := by
        rw [submitted, hnews]
      refine ⟨hclass, fun _ h => (nomatch h), ?_⟩
      cases h.phase with
      | busy _ _ _ _ _ hbusy => exact nomatch htx.symm.trans hbusy
      | idle _ _ hwire =>
        have hsent : 0 < buf.length ∨ buf.length = 0 ∧ 0 = 0 := by omega
        exact .busy s.reported buf [] _ _ htx' rfl hactive (.sending 0 hbuf hlen rfl hsent) rfl
          (hwire.trans (List.append_nil _).symm)

theorem Tracks.inToken {s : UsbStream} (h : s.Tracks) : (s.step .inToken).Tracks := by
  rw [step]
  split
  · next length sent hactive =>
    refine ⟨h.classData, h.writer, ?_⟩
    cases h.phase with
    | idle _ hnone => exact nomatch hactive.symm.trans hnone
    | busy before msg pre rest t htx hreported ht hstage hpre hwire =>
      obtain rfl := Option.some.inj (hactive.symm.trans ht)
      obtain ⟨rest', rfl, hstage'⟩ := hstage.inToken
      refine .busy before msg
        (pre ++ [slice s.device.userTxBuffer sent (min (sent + CdcDevice.maxpacket) length)])
        rest' _ htx hreported rfl hstage' ?_ ?_
      · exact (List.append_assoc pre _ rest').trans hpre
      · dsimp only
        rw [hwire, List.append_assoc]
  · exact h

theorem Tracks.inComplete {s : UsbStream} (h : s.Tracks) : (s.step .inComplete).Tracks := by
  rw [step]
  split
  · next length sent hactive =>
    cases h.phase with
    | idle _ hnone => exact nomatch hactive.symm.trans hnone
    | busy before msg pre rest t htx hreported ht hstage hpre hwire =>
      obtain rfl := Option.some.inj (hactive.symm.trans ht)
      obtain ⟨hclass, ⟨rfl, htx', hnone⟩ | ⟨rfl, htx', hzero, hstage'⟩⟩ :=
        hstage.inComplete h.classData rfl
      · refine ⟨hclass, h.writer, .idle htx' hnone ?_⟩
        rw [List.append_nil] at hpre
        dsimp only
        rw [hwire, hreported, hpre, List.flatMap_append, List.flatMap_singleton]
      · exact ⟨hclass, h.writer,
          .busy before msg pre _ _ (htx'.trans htx) hreported hzero hstage' hpre hwire⟩
  · exact h

theorem tracks_of_run {es : List UsbStreamEvent} {s : UsbStream} (hrun : Runs es s) :
    s.Tracks := by
  refine hrun.invariant (fun s e t hs hstep => ?_) tracks_start
  obtain ⟨hfits, rfl⟩ := hstep
  cases e with
  | write buf => exact hs.write hfits
  | attempt => exact hs.attempt
  | inToken => exact hs.inToken
  | inComplete => exact hs.inComplete

/-- Every order of events is a run. -/
theorem runs_foldl {es : List UsbStreamEvent} (hfits : ∀ e ∈ es, ∀ s, Fits s e) :
    Runs es (es.foldl step {}) := by
  induction es using List.reverseRecOn with
  | nil => exact .nil
  | append_singleton es e ih =>
    rw [List.foldl_append]
    exact (ih fun e he => hfits e (List.mem_append_left _ he)).snoc
      ⟨hfits e (List.mem_append_right _ List.mem_cons_self) _, rfl⟩

/-- Every message arrives whole, in order and once. -/
theorem delivered_of_run {es : List UsbStreamEvent} {s : UsbStream} (hrun : Runs es s) :
    s.Delivered :=
  (tracks_of_run hrun).delivered

/-- A call that begins while the message before it is being read. -/
theorem delivered_of_run_two : ∃ s, Runs [.write [1, 2], .attempt, .write [3], .attempt, .inToken,
      .inComplete, .attempt, .inToken, .inComplete] s ∧ s.reported = [[1, 2], [3]] ∧
    reassemble CdcDevice.maxpacket s.wire = ([[1, 2], [3]], []) := by
  have hrun := @runs_foldl [.write [1, 2], .attempt, .write [3], .attempt, .inToken, .inComplete,
    .attempt, .inToken, .inComplete] (by simp [Fits, appTxDataSize])
  exact ⟨_, hrun, rfl, (delivered_of_run hrun).idle rfl⟩

/-! ### A host that goes on asking -/

/-- The host asks for a packet, and the interrupt comes if that was the last one. -/
def poll (s : UsbStream) : UsbStream := (s.step .inToken).step .inComplete

/-- How far the endpoint is from having sent the last message: two for each packet, and one for
the interrupt. -/
def Left (s : UsbStream) (n : ℕ) : Prop :=
  ∃ msg t rest, s.active = some t ∧ Stage s.device msg t rest ∧
    n = 2 * rest.length + t.finished.toNat

theorem Tracks.poll {s : UsbStream} (h : s.Tracks) : s.poll.Tracks := h.inToken.inComplete

theorem poll_reported (s : UsbStream) : s.poll.reported = s.reported := by
  have htoken : (s.step .inToken).reported = s.reported := by
    rw [step]
    split <;> rfl
  have hcomplete : ∀ u : UsbStream, (u.step .inComplete).reported = u.reported := by
    intro u
    rw [step]
    split <;> rfl
  exact (hcomplete _).trans htoken

theorem inComplete_unfinished {s : UsbStream} {length sent : ℕ}
    (hactive : s.active = some ⟨length, sent, false⟩) : s.step .inComplete = s := by
  rw [step, hactive]

/-- The interrupt for the last packet clears `TxState`, or an empty packet is left. -/
theorem inComplete_left {s : UsbStream} (hclass : s.device.classData = true) {msg : List UInt8}
    {length sent : ℕ} {rest : List (List UInt8)} (hactive : s.active = some ⟨length, sent, true⟩)
    (hstage : Stage s.device msg ⟨length, sent, true⟩ rest) :
    (s.step .inComplete).device.txState = false ∨
      rest = [[]] ∧ Left (s.step .inComplete) 2 := by
  obtain ⟨-, ⟨-, htx, -⟩ | ⟨hrest, -, hzero, hstage'⟩⟩ := hstage.inComplete hclass rfl
  · left
    rw [step, hactive]
    exact htx
  · right
    refine ⟨hrest, msg, ⟨0, 0, false⟩, [[]], ?_, ?_, rfl⟩
    · rw [step, hactive]
      exact hzero
    · rw [step, hactive]
      exact hstage'

/-- Whatever is left, asking once leaves less. -/
theorem poll_left {s : UsbStream} {n : ℕ} (h : s.Tracks) (hleft : Left s n) :
    s.poll.device.txState = false ∨ ∃ m < n, Left s.poll m := by
  obtain ⟨msg, ⟨length, sent, finished⟩, rest, hactive, hstage, rfl⟩ := hleft
  cases finished with
  | true =>
    have htoken : s.step .inToken = s := by rw [step, hactive]
    rw [UsbStream.poll, htoken]
    rcases inComplete_left h.classData hactive hstage with hidle | ⟨rfl, hleft⟩
    · exact .inl hidle
    · exact .inr ⟨2, Nat.lt_succ_self 2, hleft⟩
  | false =>
    obtain ⟨rest', rfl, hstage'⟩ := hstage.inToken
    have hu : (s.step .inToken).active = some ⟨length, min (sent + CdcDevice.maxpacket) length,
        decide (min (sent + CdcDevice.maxpacket) length = length)⟩ := by rw [step, hactive]
    have hdevice : (s.step .inToken).device = s.device := by rw [step, hactive]
    rw [← hdevice] at hstage'
    rw [UsbStream.poll]
    by_cases hend : min (sent + CdcDevice.maxpacket) length = length
    · rw [decide_eq_true hend] at hu hstage'
      rcases inComplete_left h.inToken.classData hu hstage' with hidle | ⟨rfl, hleft⟩
      · exact .inl hidle
      · exact .inr ⟨2, (by decide : 2 < 4), hleft⟩
    · rw [decide_eq_false hend] at hu hstage'
      rw [inComplete_unfinished hu]
      refine .inr ⟨_, ?_, msg, _, rest', hu, hstage', rfl⟩
      simp only [List.length_cons, Bool.toNat_false]
      omega

theorem drained_of_left {s : UsbStream} {n : ℕ} (h : s.Tracks) (hleft : Left s n) :
    ∃ k, (poll^[k] s).device.txState = false := by
  induction n using Nat.strong_induction_on generalizing s with
  | _ n ih =>
    rcases poll_left h hleft with hidle | ⟨m, hm, hleft'⟩
    · exact ⟨1, hidle⟩
    · obtain ⟨k, hk⟩ := ih m hm h.poll hleft'
      exact ⟨k + 1, hk⟩

/-- The next pass of the loop submits the message it has, whichever that is. -/
def Accepts (s : UsbStream) : Prop :=
  ∀ buf, buf.length ≤ appTxDataSize →
    (step { s with writer := some buf } .attempt).writer = none ∧
      (step { s with writer := some buf } .attempt).reported = s.reported ++ [buf]

theorem Tracks.accepts {s : UsbStream} (h : s.Tracks) (hidle : s.device.txState = false) :
    s.Accepts := by
  intro buf hfits
  rw [step_attempt (s := { s with writer := some buf }) rfl]
  rcases transmit_spec h.classData hfits with ⟨hbusy, -⟩ | ⟨-, d, hcall, -⟩
  · exact nomatch hidle.symm.trans hbusy
  · rw [hcall]
    exact ⟨rfl, rfl⟩

/-- A host that goes on asking gets every message that was reported as sent, and frees the
transmitter for the next one. -/
theorem drained {es : List UsbStreamEvent} {s : UsbStream} (hrun : Runs es s) :
    ∃ k, (poll^[k] s).device.txState = false ∧
      reassemble CdcDevice.maxpacket (poll^[k] s).wire = (s.reported, []) ∧
      (poll^[k] s).Accepts := by
  have h := tracks_of_run hrun
  have hkept : ∀ k, (poll^[k] s).Tracks ∧ (poll^[k] s).reported = s.reported := by
    intro k
    induction k with
    | zero => exact ⟨h, rfl⟩
    | succ k ih =>
      rw [Function.iterate_succ_apply', poll_reported]
      exact ⟨ih.1.poll, ih.2⟩
  obtain ⟨k, hk⟩ : ∃ k, (poll^[k] s).device.txState = false := by
    cases h.phase with
    | idle htx => exact ⟨0, htx⟩
    | busy before msg pre rest t _ _ hactive hstage =>
      exact drained_of_left h ⟨msg, t, rest, hactive, hstage, rfl⟩
  obtain ⟨htracks, hreported⟩ := hkept k
  refine ⟨k, hk, ?_, htracks.accepts hk⟩
  rw [← hreported]
  exact htracks.delivered.idle hk

/-- A message of one full packet. -/
theorem drained_full : ∃ s k, Runs [.write (List.replicate 64 7), .attempt] s ∧
    reassemble CdcDevice.maxpacket (poll^[k] s).wire = ([List.replicate 64 7], []) ∧
    (poll^[k] s).Accepts := by
  have hrun := @runs_foldl [.write (List.replicate 64 7), .attempt] (by simp [Fits, appTxDataSize])
  obtain ⟨k, -, hwire, haccepts⟩ := drained hrun
  exact ⟨_, k, hrun, hwire, haccepts⟩

end UsbStream

end RmMicroControllers
