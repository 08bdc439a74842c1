import RmMicroControllers.Tool.BlockRead
import RmMicroControllers.Tool.UsbCdc

/-!
# From the host to the reader

The interrupt of the USB stack writes the packets of the first port into the queue that
`transportUxrCdcRead` reads with a time-out, and a time-out may end a call anywhere. What a call
has not taken is left to the next one.

## Main definitions

- `UsbReceive` — the device and the reader, with the queues between them
- `UsbReceive.Conserved` — where the bytes of the host are

## Main results

- `UsbReceive.conserved_of_run` — none is lost, repeated or corrupted, whatever times out
-/

namespace RmMicroControllers

open Transition

/-- The device and the reader of the queues, and the bytes that the host has sent. The queues are
those of the reader. -/
structure UsbReceive where
  device : UsbCdc := {}
  reads : BlockReads := {}
  sent : List UInt8 := []

/-- A packet on the first port, a call of `transportUxrCdcRead`, its next step, or a tick. -/
inductive ReceiveEvent where
  | packet (bytes : List UInt8)
  | read (len timeOut : ℕ)
  | advance
  | tick

/-- A fault of the interrupt or of the reader. -/
inductive ReceiveFault where
  | usb (f : AcmFault)
  | reader (f : ReaderFault)
  deriving DecidableEq

namespace UsbReceive

/-- The queue of the first port, with its reader. -/
def queue (s : UsbReceive) : CacheReader 1000 := s.reads.queue 0

/-- The device with the queues as they are. -/
def atInterrupt (s : UsbReceive) : UsbCdc :=
  { s.device with acmCacheArray := fun i => (s.reads.queue i).cache }

/-- One event. `transportUxrCdcRead` reads from the first queue. -/
def step (s : UsbReceive) : ReceiveEvent → Except ReceiveFault UsbReceive
  | .packet bytes =>
    match s.atInterrupt.usbdCdcDataOut cdcOutEp bytes with
    | .ok (_, d) =>
      .ok
        { device := d
          reads := { s.reads with
            queue := fun i => { s.reads.queue i with cache := d.acmCacheArray i } }
          sent := s.sent ++ bytes }
    | .error f => .error (.usb f)
  | .read len timeOut =>
    match s.reads.step (.call 0 len timeOut) with
    | .ok x => .ok { s with reads := x }
    | .error f => .error (.reader f)
  | .advance =>
    match s.reads.step .advance with
    | .ok x => .ok { s with reads := x }
    | .error f => .error (.reader f)
  | .tick => .ok { s with reads := { s.reads with tick := s.reads.tick + 1 } }

/-- Where the reader moves, fewer than 256 bytes are queued, and at most 255 are asked for. The
queue takes every packet, which does not race with the reader. -/
def Calm (s : UsbReceive) : ReceiveEvent → Prop
  | .packet bytes => CacheReader.NoRace s.queue (.write bytes) ∧
      (s.queue.cache.write bytes).toOption.map Prod.fst = some true
  | .read len _ => s.queue.queued.length < 256 ∧ len ≤ 255
  | .advance => s.queue.queued.length < 256
  | .tick => True

/-- Calls with any time-outs, packets between any two of their steps, and ticks. -/
abbrev Runs (es : List ReceiveEvent) (s : UsbReceive) : Prop :=
  Run (Guarded Calm (ofExcept step)) {} es s

/-- The bytes that the calls have returned, those that the current call has taken and is about to
take, and those queued are the bytes that the host has sent. What the calls have reported adds up
to what they have returned. -/
structure Conserved (s : UsbReceive) : Prop where
  bytes : s.queue.delivered ++ (s.queue.dest ++ s.queue.pending) ++ s.queue.queued = s.sent
  between : s.reads.current = none → s.queue.delivered ++ s.queue.cache.contents = s.sent
  reported : (s.reads.outcomes.map Outcome.returned).sum = s.queue.delivered.length

/-! ### The reader and the interrupt -/

section Reader

variable {q r : CacheReader 1000} {more : Bool}

/-- The record of the bytes written is no part of the reader. -/
theorem readerStep_written (h : q.readerStep more = .ok r) (sent : List UInt8) :
    CacheReader.readerStep { q with written := sent } more = .ok { r with written := sent } := by
  rw [CacheReader.readerStep] at h ⊢
  cases hpc : q.pc <;> simp only [hpc] at h ⊢
  case idle => cases h
  case copy src k n =>
    split at h
    · next hlt =>
      rw [if_pos hlt]
      split at h <;> cases h
      next hin => exact if_pos hin
    · next hge =>
      rw [if_neg hge]
      split at h <;> cases h
      · next hmore => exact if_pos hmore
      · next hdone => exact if_neg hdone
  case maxLen src =>
    split at h
    · next hcircle =>
      rw [if_pos hcircle]
      split at h <;> cases h
      · next hlt => exact if_pos hlt
      · next hge => exact if_neg hge
    · next hcircle =>
      rw [if_neg hcircle]
      cases h
      rfl
  all_goals first
    | (cases h; rfl)
    | (split at h <;> cases h
       · next hyes => exact if_pos hyes
       · next hno => exact if_neg hno)

/-- Only the end of a call returns bytes. -/
theorem readerStep_delivered (h : q.readerStep more = .ok r) (hbusy : r.pc ≠ .idle) :
    r.delivered = q.delivered := by
  rw [CacheReader.readerStep] at h
  cases hpc : q.pc <;> simp only [hpc] at h
  case idle => cases h
  case copy src k n =>
    split at h
    · split at h <;> cases h
      rfl
    · split at h <;> cases h
      · rfl
      · exact absurd rfl hbusy
  case timeCheck src =>
    split at h <;> cases h
    · rfl
    · exact absurd rfl hbusy
  case maxLen src =>
    split at h
    · split at h <;> cases h <;> rfl
    · cases h
      rfl
  all_goals first | (cases h; rfl) | (split at h <;> cases h <;> rfl)

end Reader

/-- A packet that the queue takes gets there. -/
theorem dataOut_accepted {d : UsbCdc} (hclass : d.classData = true) {bytes : List UInt8}
    {done : Bool} {c : CacheBuffer 1000}
    (hwrite : (d.acmCacheArray 0).write bytes = .ok (done, c)) :
    ∃ t, d.usbdCdcDataOut cdcOutEp bytes = .ok (.ok, t) ∧ t.classData = true ∧
      t.acmCacheArray = Function.update d.acmCacheArray 0 c := by
  refine ⟨{ d with
    rxBuffer := bytes
    rxLength := bytes.length
    prepared := Function.update (Function.update d.prepared cdcOutEp false) cdcOutEp true
    acmCacheArray := Function.update d.acmCacheArray 0 c }, ?_, hclass, rfl⟩
  unfold UsbCdc.usbdCdcDataOut UsbCdc.cdcReceiveFs UsbCdc.usbdCdcReceivePacket
    UsbCdc.transimitionUsbCdcRx
  simp only [hclass, if_true]
  rw [dif_pos (by decide)]
  simp only [show (⟨(0 : UInt8).toNat, by decide⟩ : Fin 2) = 0 from rfl]
  rw [hwrite]
  rfl

/-! ### The invariant -/

/-- The queue is sound for the bytes that the host has sent, and the call is one of the first
queue. -/
structure Kept (s : UsbReceive) : Prop where
  classData : s.device.classData = true
  sound : CacheReader.Sound { s.queue with written := s.sent }
  index : ∀ call ∈ s.reads.current, call.index = 0
  idle : s.reads.current = none → s.queue.pc = .idle
  reported : (s.reads.outcomes.map Outcome.returned).sum = s.queue.delivered.length

theorem kept_start : Kept {} := by
  refine ⟨rfl, CacheReader.sound_start (by decide), fun call hmem => ?_, fun _ => rfl, rfl⟩
  cases hmem

theorem Kept.conserved {s : UsbReceive} (h : s.Kept) : s.Conserved := by
  have hfifo := h.sound.fifo
  exact ⟨hfifo.conserved, fun hnone => hfifo.idle (h.idle hnone), h.reported⟩

theorem Kept.packet {s t : UsbReceive} (h : s.Kept) {bytes : List UInt8}
    (hcalm : s.Calm (.packet bytes)) (hstep : s.step (.packet bytes) = .ok t) : t.Kept := by
  obtain ⟨hrace, haccepted⟩ := hcalm
  obtain ⟨c, hwrite⟩ : ∃ c, s.queue.cache.write bytes = .ok (true, c) := by
    cases hw : s.queue.cache.write bytes with
    | error f =>
      rw [hw] at haccepted
      cases haccepted
    | ok r =>
      obtain ⟨done, c⟩ := r
      rw [hw] at haccepted
      obtain rfl : done = true := Option.some.inj haccepted
      exact ⟨c, rfl⟩
  obtain ⟨d, hd, hclass, hacm⟩ := dataOut_accepted (d := s.atInterrupt) h.classData hwrite
  rw [step, hd] at hstep
  obtain rfl := Except.ok.inj hstep
  have hcache : d.acmCacheArray 0 = c := by rw [hacm, Function.update_self]
  have hsound := CacheReader.sound_write (by decide) h.sound hrace hwrite
  refine ⟨hclass, ?_, h.index, h.idle, h.reported⟩
  change CacheReader.Sound { s.queue with
    cache := d.acmCacheArray 0, written := s.sent ++ bytes }
  rw [hcache]
  exact hsound

theorem Kept.read {s t : UsbReceive} (h : s.Kept) {len timeOut : ℕ}
    (hcalm : s.Calm (.read len timeOut)) (hstep : s.step (.read len timeOut) = .ok t) :
    t.Kept := by
  obtain ⟨hqueued, hlen⟩ := hcalm
  rw [step, BlockReads.step] at hstep
  cases hcurrent : s.reads.current with
  | some call =>
    rw [hcurrent] at hstep
    cases hstep
  | none =>
    rw [hcurrent] at hstep
    have hidle := h.idle hcurrent
    have hcall : s.queue.step (.call len) =
        .ok { s.queue with pc := .entry, len := len, dest := [] } := if_pos hidle
    have hcall' : CacheReader.step { s.queue with written := s.sent } (.call len) =
        .ok { s.queue with pc := .entry, len := len, dest := [], written := s.sent } :=
      if_pos hidle
    have hsound := CacheReader.sound_step (e := .call len) (by decide) h.sound ⟨hqueued, hlen⟩
      trivial hcall'
    rw [queue] at hcall
    simp only [hcall] at hstep
    obtain rfl := Except.ok.inj hstep
    refine ⟨h.classData, ?_, fun call hmem => ?_, fun hnone => ?_, ?_⟩
    · simp only [queue, Function.update_self]
      exact hsound
    · obtain rfl := Option.some.inj hmem
      rfl
    · cases hnone
    · simp only [queue, Function.update_self]
      exact h.reported

theorem Kept.setReader {s : UsbReceive} (h : s.Kept) (hqueued : s.queue.queued.length < 256)
    {call : ReadCall} (hindex : call.index = 0) {more : Bool} {q : CacheReader 1000}
    (hq : s.queue.readerStep more = .ok q) (asks : List Ask) :
    Kept { s with reads := BlockReads.setReader { s.reads with asks := asks } call q } := by
  have hsound := CacheReader.sound_reader (by decide) h.sound hqueued (readerStep_written hq s.sent)
  have hqueue : queue { s with
      reads := BlockReads.setReader { s.reads with asks := asks } call q } = q := by
    rw [queue, BlockReads.setReader, hindex]
    exact Function.update_self (0 : Fin 2) q s.reads.queue
  refine ⟨h.classData, ?_, ?_, ?_, ?_⟩
  · rw [hqueue]
    exact hsound
  · intro call' hmem
    rw [BlockReads.setReader] at hmem
    dsimp only at hmem
    split at hmem
    · cases hmem
    · obtain rfl := Option.some.inj hmem
      exact hindex
  · intro hnone
    rw [BlockReads.setReader] at hnone
    dsimp only at hnone
    rw [hqueue]
    split at hnone
    · next hidle => exact hidle
    · cases hnone
  · rw [hqueue, BlockReads.setReader]
    dsimp only
    split
    · next hidle =>
      obtain ⟨hdelivered, -⟩ := BlockReads.readerStep_returns hq hidle
      have hold : s.reads.queue call.index = s.queue := congrArg s.reads.queue hindex
      rw [List.map_append, List.sum_append, h.reported, List.map_singleton, List.sum_singleton,
        hold, hdelivered, List.length_append]
      dsimp only
      omega
    · next hbusy =>
      rw [readerStep_delivered hq hbusy]
      exact h.reported

/-- The next step of the call, whether it asks for the time or not. -/
theorem Kept.advance {s t : UsbReceive} (h : s.Kept) (hqueued : s.queue.queued.length < 256)
    (hstep : s.step .advance = .ok t) : t.Kept := by
  rw [step, BlockReads.step] at hstep
  cases hcurrent : s.reads.current with
  | none =>
    rw [hcurrent] at hstep
    cases hstep
  | some call =>
    rw [hcurrent] at hstep
    have hindex : call.index = 0 := h.index call hcurrent
    have hqueue : s.reads.queue call.index = s.queue := congrArg s.reads.queue hindex
    dsimp only at hstep
    split at hstep
    · next x hx =>
      obtain rfl := Except.ok.inj hstep
      rw [BlockReads.advance] at hx
      split at hx
      · split at hx
        · -- the static variable is initialised, and the reader has not moved
          obtain rfl := Except.ok.inj hx
          refine ⟨h.classData, h.sound, fun call' hmem => ?_, fun hnone => ?_, h.reported⟩
          · obtain rfl := Option.some.inj hmem
            exact hindex
          · cases hnone
        · obtain ⟨q, hq, hx⟩ := Fallible.bind_eq_ok.mp hx
          obtain rfl := Fallible.pure_eq_ok.mp hx
          rw [hqueue] at hq
          refine h.setReader hqueued ?_ hq _
          exact hindex
      · obtain ⟨q, hq, hx⟩ := Fallible.bind_eq_ok.mp hx
        obtain rfl := Fallible.pure_eq_ok.mp hx
        rw [hqueue] at hq
        exact h.setReader hqueued hindex hq s.reads.asks
    · cases hstep

theorem kept_step {s t : UsbReceive} (h : s.Kept) {e : ReceiveEvent} (hcalm : s.Calm e)
    (hstep : s.step e = .ok t) : t.Kept := by
  cases e with
  | packet bytes => exact h.packet hcalm hstep
  | read len timeOut => exact h.read hcalm hstep
  | advance => exact h.advance hcalm hstep
  | tick =>
    obtain rfl := Except.ok.inj hstep
    exact ⟨h.classData, h.sound, h.index, h.idle, h.reported⟩

/-- Whatever the order of the packets, the steps and the ticks, and whatever times out: the calls
return the bytes of the host in the order in which it has sent them. What a call that times out has
not taken is still in the queue. -/
theorem conserved_of_run {es : List ReceiveEvent} {s : UsbReceive} (h : Runs es s) :
    s.Conserved := by
  have hkept : s.Kept := h.invariant (fun _ _ _ hs hg => kept_step hs hg.1 hg.2) kept_start
  exact hkept.conserved

instance (s : UsbReceive) (e : ReceiveEvent) : Decidable (Calm s e) := by
  unfold Calm
  cases e <;> infer_instance

/-- Two bytes of three are read. A call for three more finds one, and the others come after its
time-out. -/
def lateBytes : List ReceiveEvent :=
  [.packet [1, 2, 3], .read 2 5] ++ List.replicate 9 .advance ++ [.read 3 5] ++
    List.replicate 13 .advance ++ List.replicate 5 .tick ++ [.advance, .packet [4, 5]]

/-- The late bytes are left to the next call. -/
theorem lateBytes_conserved : ∃ s : UsbReceive, Runs lateBytes s ∧
    s.queue.delivered = [1, 2, 3] ∧ s.queue.queued = [4, 5] ∧ s.sent = [1, 2, 3, 4, 5] ∧
    s.Conserved := by
  obtain ⟨s, hrun, hs⟩ := Run.of_check Calm step {} lateBytes
    (fun s => (s.queue.delivered, s.queue.queued, s.sent))
    (x := ([1, 2, 3], [4, 5], [1, 2, 3, 4, 5])) (by decide +kernel)
  obtain ⟨hdelivered, hqueued, hsent⟩ := by simpa only [Prod.mk.injEq] using hs
  exact ⟨s, hrun, hdelivered, hqueued, hsent, conserved_of_run hrun⟩

end UsbReceive

end RmMicroControllers
