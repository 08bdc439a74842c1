import Mathlib.Algebra.Group.Nat.Even
import Mathlib.Data.List.Induction
import Mathlib.Logic.Function.Basic

/-!
# The double buffer of the serial receiver

`transimitionDmaInit`, `transimitionIdleHandler` and the legacy callback of
`transimition.cpp`. The DMA fills one of two sections; every idle event makes it fill the other
one, and a frame of the right length is published by a pointer to its section.

## Main results

- `tracked_of_events` — where the pointer is, and what it points to, after any idle events
- `published_iff` — when the published frame is safe from the DMA
-/

namespace RmMicroControllers

/-- `HAL_StatusTypeDef`, as far as the callbacks use it. -/
inductive HalStatus where
  | ok
  | error
  deriving DecidableEq

/-- The registers of a UART and of its receiving DMA stream that the receiver uses; `β` are
    addresses. `ct` is `DMA_SxCR_CT`, the buffer that the DMA fills. -/
structure Uart (β : Type) where
  ct : Bool := false
  en : Bool := false
  dbm : Bool := false
  m0ar : Option β := none
  m1ar : Option β := none
  ndtr : UInt16 := 0
  idleFlag : Bool := false
  rxneIe : Bool := false
  idleIe : Bool := false
  dmar : Bool := false
  rxXferSize : UInt16 := 0
  toIdle : Bool := false
  deriving DecidableEq

namespace Uart

variable {β : Type}

/-- `transimitionDmaInit`. -/
def transimitionDmaInit (u : Uart β) (rx1Buf rx2Buf : β) (bufferByteLen : UInt16) :
    Bool × Uart β :=
  (true, { u with
    en := true
    dbm := true
    m0ar := some rx1Buf
    m1ar := some rx2Buf
    ndtr := bufferByteLen
    idleFlag := false
    rxneIe := false
    idleIe := true
    rxXferSize := bufferByteLen
    toIdle := true
    dmar := true })

/-- `transimitionIdleHandler`: the other buffer is next, and a frame of the right length goes
    to the callback. -/
def transimitionIdleHandler {α : Type} (u : Uart β)
    (rxByteLen bufferByteLen frameByteLen : UInt16) (callback : Bool → α → HalStatus × α) (a : α) :
    HalStatus × Uart β × α :=
  let (retVal, a) := if rxByteLen ^^^ frameByteLen ≠ 0 then (.error, a) else callback u.ct a
  (retVal, { u with
    ct := !u.ct
    en := true
    ndtr := bufferByteLen
    idleFlag := false
    idleIe := true
    toIdle := true }, a)

end Uart

/-- `LEGACY_CACHE_BYTE_LEN`. -/
def legacyCacheByteLen : ℕ := 64

/-- `LEGACY_FRAME_BYTE_LEN`. -/
def legacyFrameByteLen : UInt16 := 32

/-- One of the two sections of `gLegacyCacheArray`. -/
abbrev Section := Fin 64 → UInt8

/-- The receiver of the legacy frames. `result` is `gLegacyResultArray`: a section, or
    `gSafeArray`, which is `none`. -/
structure Legacy where
  uart : Uart Bool := {}
  cache : Bool → Section := fun _ _ => 0
  result : Option Bool := none

/-- `transimitionLegacyRx`. -/
def transimitionLegacyRx (used : Bool) (_ : Option Bool) : HalStatus × Option Bool :=
  (.ok, some used)

/-- An idle event: the DMA has left `buffer` in the section it fills, and `size` bytes are
    reported. -/
structure IdleEvent where
  size : UInt16
  buffer : Section

namespace Legacy

/-- The receiver after `transimitionDmaInit`. -/
def start : Legacy where
  uart := (Uart.transimitionDmaInit {} false true (UInt16.ofNat legacyCacheByteLen)).2

/-- `HAL_UARTEx_RxEventCallback` for `HUART_LEGACY`. -/
def rxEventCallback (x : Legacy) (size : UInt16) : HalStatus × Legacy :=
  let uart := { x.uart with en := false }
  let (retVal, uart, result) := uart.transimitionIdleHandler size
    (UInt16.ofNat legacyCacheByteLen) legacyFrameByteLen transimitionLegacyRx x.result
  (retVal, { x with uart := uart, result := result })

/-- What the DMA, the UART and the handler do at an idle event. -/
def idle (x : Legacy) (e : IdleEvent) : Legacy :=
  let x := { x with
    cache := Function.update x.cache x.uart.ct e.buffer
    uart := { x.uart with idleFlag := true } }
  (x.rxEventCallback e.size).2

/-- The receiver after some idle events. -/
def afterEvents (es : List IdleEvent) : Legacy := es.foldl idle start

end Legacy

/-! ### What has been received -/

/-- The contents of a frame. -/
abbrev LegacyFrame := Fin 32 → UInt8

/-- The frame that a section starts with. -/
def Section.frame (b : Section) : LegacyFrame := fun i => b (i.castLE (by decide))

/-- An idle event that reports a frame of the right length. -/
def IdleEvent.IsFrame (e : IdleEvent) : Prop := e.size = legacyFrameByteLen

instance (e : IdleEvent) : Decidable e.IsFrame := inferInstanceAs (Decidable (_ = _))

namespace Legacy

/-- The last frame among some idle events, and the events after it. -/
def trail (es : List IdleEvent) : Option (LegacyFrame × List IdleEvent) :=
  es.foldl (fun tr e =>
    if e.IsFrame then some (e.buffer.frame, [])
    else tr.map fun (frame, bads) => (frame, bads ++ [e])) none

/-- The section that held the last frame, with the frame, as the events come. -/
def lastGood (es : List IdleEvent) : Option (Bool × LegacyFrame) :=
  (es.foldl (fun (x, last) e =>
    (idle x e, if e.IsFrame then some (x.uart.ct, e.buffer.frame) else last)) (start, none)).2

/-- The published section is not the one that the DMA fills, and once a frame has come it is
    the section of the last one, with its contents. -/
structure Published (x : Legacy) (last : Option (Bool × LegacyFrame)) : Prop where
  free : x.result ≠ some x.uart.ct
  recent : ∀ used frame, last = some (used, frame) →
    x.result = some used ∧ (x.cache used).frame = frame

/-- No frame has come, or an even number of other events has followed the last one and the
    last of these has left the bytes of the frame in the section. -/
def Undisturbed (es : List IdleEvent) : Prop :=
  ∀ frame bads, trail es = some (frame, bads) →
    Even bads.length ∧ ∀ e, bads.getLast? = some e → e.buffer.frame = frame

/-! ### One event -/

@[simp] theorem idle_ct (x : Legacy) (e : IdleEvent) : (x.idle e).uart.ct = !x.uart.ct := by
  unfold idle rxEventCallback Uart.transimitionIdleHandler
  split <;> rfl

@[simp] theorem idle_cache (x : Legacy) (e : IdleEvent) :
    (x.idle e).cache = Function.update x.cache x.uart.ct e.buffer := rfl

/-- An idle event publishes the section it found exactly when a whole frame has come. -/
theorem idle_result (x : Legacy) (e : IdleEvent) :
    (x.idle e).result = if e.IsFrame then some x.uart.ct else x.result := by
  have hxor : e.size ^^^ legacyFrameByteLen ≠ 0 ↔ ¬ e.IsFrame :=
    not_congr UInt16.xor_eq_zero_iff
  rw [idle, rxEventCallback, Uart.transimitionIdleHandler]
  by_cases he : e.IsFrame
  · simp only [hxor, he, not_true, if_true, if_false]
    rfl
  · simp only [hxor, he, not_false_iff, if_true, if_false]

/-! ### All events -/

theorem afterEvents_snoc (es : List IdleEvent) (e : IdleEvent) :
    afterEvents (es ++ [e]) = (afterEvents es).idle e := by
  simp [afterEvents]

/-- A frame starts the trail again, and another event joins it. -/
theorem trail_snoc (es : List IdleEvent) (e : IdleEvent) :
    trail (es ++ [e]) = if e.IsFrame then some (e.buffer.frame, [])
      else (trail es).map fun (frame, bads) => (frame, bads ++ [e]) := by
  simp [trail]

/-- A frame is recorded with the section that the DMA was filling. -/
theorem lastGood_snoc (es : List IdleEvent) (e : IdleEvent) :
    lastGood (es ++ [e]) =
      if e.IsFrame then some ((afterEvents es).uart.ct, e.buffer.frame) else lastGood es := by
  have hstate : ∀ (es : List IdleEvent) (x : Legacy) (last : Option (Bool × LegacyFrame)),
      (es.foldl (fun (x, last) e =>
        (idle x e, if e.IsFrame then some (x.uart.ct, e.buffer.frame) else last)) (x, last)).1 =
      es.foldl idle x := by
    intro es
    induction es with
    | nil => intro x last; rfl
    | cons e es ih => intro x last; exact ih _ _
  unfold lastGood afterEvents
  rw [List.foldl_append, List.foldl_cons, List.foldl_nil, ← hstate es start none]

/-- The receiver against the last frame and the events after it. With every event the DMA
    changes sides, so after an odd number of them it is back in the published section. -/
def Tracked (x : Legacy) (last : Option (Bool × LegacyFrame)) :
    Option (LegacyFrame × List IdleEvent) → Prop
  | none => x.result = none ∧ last = none
  | some (frame, bads) => ∃ used, x.result = some used ∧ last = some (used, frame) ∧
      (Even bads.length ↔ used ≠ x.uart.ct) ∧
      (Even bads.length →
        (x.cache used).frame = (bads.getLast?.map (·.buffer.frame)).getD frame)

/-- A frame leaves the DMA in the other section. -/
theorem tracked_frame (x : Legacy) {e : IdleEvent} (he : e.IsFrame) :
    Tracked (x.idle e) (some (x.uart.ct, e.buffer.frame)) (some (e.buffer.frame, [])) := by
  refine ⟨x.uart.ct, ?_, rfl, ?_, fun _ => ?_⟩
  · rw [idle_result, if_pos he]
  · rw [idle_ct]
    exact iff_of_true ⟨0, rfl⟩ (by cases x.uart.ct <;> decide)
  · rw [idle_cache, Function.update_self]
    rfl

/-- An event without a frame moves the DMA and leaves what is published. -/
theorem tracked_bad {x : Legacy} {last : Option (Bool × LegacyFrame)} {e : IdleEvent}
    {tr : Option (LegacyFrame × List IdleEvent)} (he : ¬ e.IsFrame) (hx : Tracked x last tr) :
    Tracked (x.idle e) last (tr.map fun (frame, bads) => (frame, bads ++ [e])) := by
  cases tr with
  | none => exact ⟨by rw [idle_result, if_neg he]; exact hx.1, hx.2⟩
  | some tr =>
    obtain ⟨frame, bads⟩ := tr
    obtain ⟨used, hresult, hlast, hparity, -⟩ := hx
    refine ⟨used, by rw [idle_result, if_neg he, hresult], hlast, ?_, fun heven => ?_⟩
    · rw [List.length_append, List.length_singleton, Nat.even_add_one, hparity, idle_ct]
      cases used <;> cases x.uart.ct <;> decide
    · -- the DMA was in the published section, so this event rewrote it
      rw [List.length_append, List.length_singleton, Nat.even_add_one, hparity, not_not] at heven
      rw [idle_cache, heven, Function.update_self, List.getLast?_concat]
      rfl

/-- After any idle events the receiver stands as the trail of its last frame says. -/
theorem tracked_of_events (es : List IdleEvent) :
    Tracked (afterEvents es) (lastGood es) (trail es) := by
  induction es using List.reverseRecOn with
  | nil => exact ⟨rfl, rfl⟩
  | append_singleton es e ih =>
    rw [afterEvents_snoc, lastGood_snoc, trail_snoc]
    by_cases he : e.IsFrame
    · rw [if_pos he, if_pos he]
      exact tracked_frame _ he
    · rw [if_neg he, if_neg he]
      exact tracked_bad he ih

/-- After any idle events the published frame is safe exactly when it is undisturbed. -/
theorem published_iff (es : List IdleEvent) :
    Published (afterEvents es) (lastGood es) ↔ Undisturbed es := by
  have hx := tracked_of_events es
  rw [Undisturbed]
  cases htrail : trail es with
  | none =>
    rw [htrail] at hx
    refine iff_of_true ⟨?_, fun used frame hlast => ?_⟩ fun frame bads h => by cases h
    · rw [hx.1]
      simp
    · rw [hx.2] at hlast
      cases hlast
  | some tr =>
    obtain ⟨frame, bads⟩ := tr
    rw [htrail] at hx
    obtain ⟨used, hresult, hlast, hparity, hcache⟩ := hx
    constructor
    · rintro ⟨hfree, hrecent⟩ frame' bads' heq
      obtain ⟨rfl, rfl⟩ := Prod.mk.inj (Option.some.inj heq)
      have heven : Even bads.length := hparity.mpr fun h => hfree (hresult.trans (congrArg some h))
      refine ⟨heven, fun e he => ?_⟩
      have hintact := (hrecent used frame hlast).2
      rw [hcache heven, he] at hintact
      exact hintact
    · intro h
      obtain ⟨heven, hbytes⟩ := h frame bads rfl
      refine ⟨fun heq => hparity.mp heven (Option.some.inj (hresult.symm.trans heq)), ?_⟩
      intro used' frame' heq
      obtain ⟨rfl, rfl⟩ := Prod.mk.inj (Option.some.inj (hlast.symm.trans heq))
      refine ⟨hresult, ?_⟩
      rw [hcache heven]
      cases hbads : bads.getLast? with
      | none => rfl
      | some e => exact hbytes e hbads

/-- A frame, and then an idle event of another length. -/
def shortAfterFrame : List IdleEvent :=
  [⟨32, fun i => if i.val < 32 then 1 else 0⟩, ⟨5, fun i => if i.val < 5 then 2 else 0⟩]

/-- The DMA fills the published section. -/
theorem shortAfterFrame_overwritten :
    ¬ Published (afterEvents shortAfterFrame) (lastGood shortAfterFrame) ∧
      (afterEvents shortAfterFrame).result = some false ∧
      (afterEvents shortAfterFrame).uart.ct = false := by
  refine ⟨fun h => h.free ?_, rfl, rfl⟩
  decide

end Legacy

end RmMicroControllers
