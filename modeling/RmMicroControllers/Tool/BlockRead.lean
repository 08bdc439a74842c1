import RmMicroControllers.Tool.CacheReader

/-!
# Reads with a time-out

`transimitionUsbCdcReadBlock` reads from one of the two queues and gives up after a time-out.
The callback keeps its deadline in a `static` variable, which is initialised when the callback
is first asked at all, and compares it with the tick counter as unsigned numbers. `tick` counts
all ticks; the counter is `tick` modulo `2 ^ 32`.

## Main definitions

- `BlockReads` — the two queues with their readers, the clock and the static variable
- `BlockReads.Timely` — every call waits its own time-out

## Main results

- `BlockReads.timely_of_run` — when all calls of a run do
-/

namespace RmMicroControllers

open Transition

/-- A call of `transimitionUsbCdcReadBlock`: its arguments, the tick at which it was made, and
    the tick at which it has first asked the callback. -/
structure ReadCall where
  index : Fin 2
  len : ℕ
  timeOut : ℕ
  entry : ℕ
  first : Option ℕ := none

/-- An evaluation of the callback. -/
structure Ask where
  timeOut : ℕ
  first : ℕ
  now : ℕ
  answer : Bool
  deriving DecidableEq

/-- A call that has returned. -/
structure Outcome where
  len : ℕ
  returned : ℕ
  timeOut : ℕ
  elapsed : ℕ
  deriving DecidableEq

/-- The two queues, the clock, the static `stamp` of the callback, the call that is being made,
    and a record of all evaluations of the callback and all calls that have returned. -/
structure BlockReads where
  queue : Fin 2 → CacheReader 1000 := fun _ => {}
  tick : ℕ := 0
  stamp : Option ℕ := none
  current : Option ReadCall := none
  asks : List Ask := []
  outcomes : List Outcome := []

/-- A call, the next step of the call that is being made, a packet for one of the queues, or a
    tick. -/
inductive BlockEvent where
  | call (index : Fin 2) (len timeOut : ℕ)
  | advance
  | write (index : Fin 2) (buf : List UInt8)
  | tick

namespace BlockReads

/-- `xTaskGetTickCount`. -/
def xTaskGetTickCount (x : BlockReads) : ℕ := x.tick % 4294967296

/-- The reader is about to ask the callback. -/
def asking (q : CacheReader 1000) : Bool :=
  match q.pc with
  | .timeCheck _ => true
  | _ => false

/-- The queue of a call after a step of its reader, who may have returned. -/
def setReader (x : BlockReads) (call : ReadCall) (q : CacheReader 1000) : BlockReads :=
  { x with
    queue := Function.update x.queue call.index q
    current := if q.pc = .idle then none else some call
    outcomes := if q.pc = .idle then
        x.outcomes ++ [Outcome.mk call.len
          (q.delivered.length - (x.queue call.index).delivered.length) call.timeOut
          (x.tick - call.entry)]
      else x.outcomes }

/-- The callback initialises its static variable. -/
def initStamp (x : BlockReads) (call : ReadCall) : BlockReads :=
  { x with
    stamp := some (add32 x.xTaskGetTickCount call.timeOut)
    current := some { call with first := some x.tick } }

/-- The callback answers. -/
def ask (x : BlockReads) (call : ReadCall) (stamp : ℕ) : Except ReaderFault BlockReads := do
  let answer := decide (stamp > x.xTaskGetTickCount)
  let first := call.first.getD x.tick
  let q ← (x.queue call.index).readerStep answer
  return setReader { x with asks := x.asks ++ [⟨call.timeOut, first, x.tick, answer⟩] }
    { call with first := some first } q

/-- The next step of the call that is being made. -/
def advance (x : BlockReads) (call : ReadCall) : Except ReaderFault BlockReads :=
  if asking (x.queue call.index) then
    match x.stamp with
    | none => .ok (x.initStamp call)
    | some stamp => x.ask call stamp
  else do
    let q ← (x.queue call.index).readerStep false
    return x.setReader call q

/-- One event. Nobody looks at the answer of `write`. -/
def step (x : BlockReads) : BlockEvent → Except ReaderFault BlockReads
  | .call index len timeOut =>
    match x.current with
    | some _ => .error .outOfTurn
    | none => do
      let q ← (x.queue index).step (.call len)
      return { x with
        queue := Function.update x.queue index q
        current := some { index := index, len := len, timeOut := timeOut, entry := x.tick } }
  | .advance =>
    match x.current with
    | some call => x.advance call
    | none => .error .outOfTurn
  | .write index buf =>
    match (x.queue index).cache.write buf with
    | .ok (_, c) =>
      .ok { x with
        queue := Function.update x.queue index { x.queue index with cache := c } }
    | .error f => .error (.cache f)
  | .tick => .ok { x with tick := x.tick + 1 }

/-- A call that returns less than it was asked for has waited its time-out, and the callback
    has always answered what it would have answered if this had been the first call. -/
structure Timely (x : BlockReads) : Prop where
  waits : ∀ o ∈ x.outcomes, o.returned < o.len → o.timeOut ≤ o.elapsed
  independent : ∀ a ∈ x.asks,
    a.answer = decide ((a.first + a.timeOut) % 4294967296 > a.now % 4294967296)

/-- When a call first asks the callback, its deadline does not go beyond the last value of the
    counter. The static variable is not set yet, or set to this deadline, or it has expired and
    so has the deadline of a call with no time-out. -/
def FreshStamp (x : BlockReads) : BlockEvent → Prop
  | .advance => ∀ call ∈ x.current, asking (x.queue call.index) = true → call.first = none →
      x.xTaskGetTickCount + call.timeOut < 4294967296 ∧
        ∀ stamp ∈ x.stamp, stamp = x.xTaskGetTickCount + call.timeOut ∨
          call.timeOut = 0 ∧ stamp ≤ x.xTaskGetTickCount
  | _ => True

instance (x : BlockReads) : (e : BlockEvent) → Decidable (x.FreshStamp e)
  | .advance => inferInstanceAs (Decidable (∀ call ∈ x.current, _ = true → call.first = none → _))
  | .call _ _ _ => inferInstanceAs (Decidable True)
  | .write _ _ => inferInstanceAs (Decidable True)
  | .tick => inferInstanceAs (Decidable True)

/-! ### One step of the reader -/

section Reader

variable {q r : CacheReader 1000} {more : Bool}

theorem readerStep_len (h : q.readerStep more = .ok r) : r.len = q.len := by
  rw [CacheReader.readerStep] at h
  cases hpc : q.pc <;> simp only [hpc] at h
  case idle => cases h
  case copy src k n =>
    split at h
    · split at h <;> cases h
      rfl
    · split at h <;> cases h <;> rfl
  case maxLen src =>
    split at h
    · split at h <;> cases h <;> rfl
    · cases h
      rfl
  all_goals first | (cases h; rfl) | (split at h <;> cases h <;> rfl)

/-- A call returns what it has copied, when this is all it was asked for or when the callback
    says so. -/
theorem readerStep_returns (h : q.readerStep more = .ok r) (hidle : r.pc = .idle) :
    r.delivered = q.delivered ++ q.dest ∧
      (q.dest.length = q.len ∨ asking q = true ∧ more = false) := by
  rw [CacheReader.readerStep] at h
  cases hpc : q.pc <;> simp only [hpc] at h
  case idle => cases h
  case timeCheck src =>
    split at h <;> cases h
    · cases hidle
    · next hstop => exact ⟨rfl, Or.inr ⟨by rw [asking, hpc], by simpa using hstop⟩⟩
  case copy src k n =>
    split at h
    · split at h <;> cases h
      cases hidle
    · split at h <;> cases h
      · cases hidle
      · next hfilled => exact ⟨rfl, Or.inl (not_not.mp hfilled)⟩
  case maxLen src =>
    split at h
    · split at h <;> cases h <;> cases hidle
    · cases h
      cases hidle
  all_goals first | (cases h; cases hidle) | (split at h <;> cases h <;> cases hidle)

/-- The callback can stop the reader where it is asked. -/
theorem readerStep_stops (hasking : asking q = true) (h : q.readerStep false = .ok r) :
    r.pc = .idle := by
  rw [asking] at hasking
  split at hasking
  · next hpc =>
    rw [CacheReader.readerStep, hpc] at h
    cases h
    rfl
  · cases hasking

end Reader

/-! ### The deadline of a call -/

/-- What is known of the call that is being made. Once it has asked the callback, the static
    variable holds its deadline, and the deadline can be compared with the counter. -/
structure Waiting (x : BlockReads) (call : ReadCall) : Prop where
  len : (x.queue call.index).len = call.len
  entry : call.entry ≤ x.tick
  asked : ∀ t ∈ call.first, call.entry ≤ t ∧ t ≤ x.tick ∧
    t % 4294967296 + call.timeOut < 4294967296 ∧ x.stamp = some (t % 4294967296 + call.timeOut)

/-- The invariant of the runs. -/
structure OnTime (x : BlockReads) : Prop where
  timely : x.Timely
  waiting : ∀ call ∈ x.current, x.Waiting call

/-- A deadline that the counter does not jump over is reached after the time-out. -/
theorem elapsed_of_expired {t now timeOut : ℕ} (ht : t ≤ now)
    (hexpired : ¬ t % 4294967296 + timeOut > now % 4294967296) : timeOut ≤ now - t := by
  by_contra hearly
  have hnow : now % 4294967296 = t % 4294967296 + (now - t) := by omega
  omega

theorem Timely.setReader {x : BlockReads} (hx : x.Timely) {call : ReadCall}
    {q : CacheReader 1000}
    (hwaits : q.pc = .idle →
      q.delivered.length - (x.queue call.index).delivered.length < call.len →
      call.timeOut ≤ x.tick - call.entry) :
    (x.setReader call q).Timely := by
  refine ⟨?_, hx.independent⟩
  intro o ho
  rw [BlockReads.setReader] at ho
  dsimp only at ho
  split at ho
  · next hidle =>
    obtain ho | ho := List.mem_append.mp ho
    · exact hx.waits o ho
    · obtain rfl := List.mem_singleton.mp ho
      exact hwaits hidle
  · exact hx.waits o ho

theorem Waiting.setReader {x : BlockReads} {call : ReadCall} {q : CacheReader 1000}
    (hcall : q.pc ≠ .idle → x.Waiting call) (hlen : q.len = (x.queue call.index).len) :
    ∀ call' ∈ (x.setReader call q).current, (x.setReader call q).Waiting call' := by
  intro call' hcall'
  rw [BlockReads.setReader] at hcall'
  dsimp only at hcall'
  split at hcall'
  · cases hcall'
  · next hbusy =>
    obtain rfl := Option.some.inj hcall'
    obtain ⟨hsame, hentry, hasked⟩ := hcall hbusy
    refine ⟨?_, hentry, hasked⟩
    have hqueue : (x.setReader call q).queue call.index = q := Function.update_self _ _ _
    rw [hqueue, hlen]
    exact hsame

/-- The callback sets its deadline. -/
theorem onTime_initStamp {x : BlockReads} (hx : x.OnTime) {call : ReadCall}
    (hcurrent : x.current = some call)
    (hfits : x.xTaskGetTickCount + call.timeOut < 4294967296) : (x.initStamp call).OnTime := by
  have hcall := hx.waiting call hcurrent
  refine ⟨⟨hx.timely.waits, hx.timely.independent⟩, ?_⟩
  intro call' hcall'
  obtain rfl := Option.some.inj hcall'
  refine ⟨hcall.len, hcall.entry, ?_⟩
  intro t ht
  obtain rfl := Option.some.inj ht
  refine ⟨hcall.entry, le_rfl, hfits, ?_⟩
  rw [initStamp, add32_of_lt (by simpa using hfits)]
  rfl

/-- The callback answers by a deadline that is set: as it would by that of the call, and no
    earlier than the call wants. -/
theorem onTime_ask {x y : BlockReads} (hx : x.OnTime) {call : ReadCall}
    (hcurrent : x.current = some call) (hasking : asking (x.queue call.index) = true) {stamp : ℕ}
    (hstamp : x.stamp = some stamp)
    (hfresh : call.first = none → x.xTaskGetTickCount + call.timeOut < 4294967296 ∧
      (stamp = x.xTaskGetTickCount + call.timeOut ∨
        call.timeOut = 0 ∧ stamp ≤ x.xTaskGetTickCount))
    (h : x.ask call stamp = .ok y) : y.OnTime := by
  have hcall := hx.waiting call hcurrent
  obtain ⟨q, hq, h⟩ := Fallible.bind_eq_ok.mp h
  obtain rfl := Fallible.pure_eq_ok.mp h
  generalize hfirst : call.first.getD x.tick = first at hq ⊢
  have hbetween : call.entry ≤ first ∧ first ≤ x.tick ∧
      first % 4294967296 + call.timeOut < 4294967296 ∧
      (stamp = first % 4294967296 + call.timeOut ∨
        first = x.tick ∧ call.timeOut = 0 ∧ stamp ≤ x.xTaskGetTickCount) := by
    cases hf : call.first with
    | none =>
      rw [hf] at hfirst
      obtain rfl : x.tick = first := hfirst
      obtain ⟨hfits, hset⟩ := hfresh hf
      exact ⟨hcall.entry, le_rfl, hfits, hset.imp_right fun hset => ⟨rfl, hset⟩⟩
    | some t =>
      rw [hf] at hfirst
      obtain rfl : t = first := hfirst
      obtain ⟨hentry, htick, hfits, hset⟩ := hcall.asked t hf
      exact ⟨hentry, htick, hfits, Or.inl (Option.some.inj (hstamp.symm.trans hset))⟩
  obtain ⟨hentry, htick, hfits, hset⟩ := hbetween
  generalize hanswer : decide (stamp > x.xTaskGetTickCount) = answer at hq ⊢
  rw [xTaskGetTickCount] at hset hanswer
  have hindependent :
      answer = decide ((first + call.timeOut) % 4294967296 > x.tick % 4294967296) := by
    rw [← hanswer]
    apply decide_eq_decide.mpr
    omega
  have hasked : Timely { x with
      asks := x.asks ++ [⟨call.timeOut, first, x.tick, answer⟩] } := by
    refine ⟨hx.timely.waits, ?_⟩
    intro a ha
    obtain ha | ha := List.mem_append.mp ha
    · exact hx.timely.independent a ha
    · obtain rfl := List.mem_singleton.mp ha
      exact hindependent
  refine ⟨hasked.setReader ?_, Waiting.setReader ?_ (readerStep_len hq)⟩
  · intro hidle hshort
    dsimp only at hshort ⊢
    obtain ⟨hdelivered, hfilled | ⟨-, rfl⟩⟩ := readerStep_returns hq hidle
    · rw [hdelivered, List.length_append, hfilled, hcall.len] at hshort
      omega
    · have hexpired := of_decide_eq_false hanswer
      have hwaited : call.timeOut ≤ x.tick - first := by
        obtain rfl | ⟨-, hzero, -⟩ := hset
        · exact elapsed_of_expired htick hexpired
        · omega
      omega
  · intro hbusy
    refine ⟨hcall.len, hcall.entry, ?_⟩
    intro t ht
    obtain rfl := Option.some.inj ht
    cases answer with
    | false => exact absurd (readerStep_stops hasking hq) hbusy
    | true =>
      have hrunning := of_decide_eq_true hanswer
      obtain rfl : stamp = first % 4294967296 + call.timeOut := by omega
      exact ⟨hentry, htick, hfits, hstamp⟩

/-- Steps of the reader other than asking the callback. -/
theorem onTime_reader {x : BlockReads} (hx : x.OnTime) {call : ReadCall}
    (hcurrent : x.current = some call) (hasking : asking (x.queue call.index) = false)
    {more : Bool} {q : CacheReader 1000} (hq : (x.queue call.index).readerStep more = .ok q) :
    (x.setReader call q).OnTime := by
  have hcall := hx.waiting call hcurrent
  refine ⟨hx.timely.setReader ?_, Waiting.setReader (fun _ => hcall) (readerStep_len hq)⟩
  intro hidle hshort
  obtain ⟨hdelivered, hfilled | ⟨hask, -⟩⟩ := readerStep_returns hq hidle
  · rw [hdelivered, List.length_append, hfilled, hcall.len] at hshort
    omega
  · rw [hasking] at hask
    cases hask

theorem onTime_advance {x y : BlockReads} (hx : x.OnTime) {call : ReadCall}
    (hcurrent : x.current = some call) (hfresh : x.FreshStamp .advance)
    (h : x.advance call = .ok y) : y.OnTime := by
  have hguard := hfresh call hcurrent
  rw [advance] at h
  split at h
  · next hasking =>
    split at h
    · next hstamp =>
      -- the first evaluation at all, so the call cannot have asked before
      have hfirst : call.first = none := by
        apply Option.eq_none_iff_forall_ne_some.mpr
        intro t ht
        have hset := ((hx.waiting call hcurrent).asked t ht).2.2.2
        rw [hstamp] at hset
        cases hset
      obtain rfl := Except.ok.inj h
      exact onTime_initStamp hx hcurrent (hguard hasking hfirst).1
    · next stamp hstamp =>
      refine onTime_ask hx hcurrent hasking hstamp ?_ h
      intro hfirst
      obtain ⟨hfits, hequal⟩ := hguard hasking hfirst
      exact ⟨hfits, hequal stamp hstamp⟩
  · next hasking =>
    obtain ⟨q, hq, h⟩ := Fallible.bind_eq_ok.mp h
    obtain rfl := Fallible.pure_eq_ok.mp h
    exact onTime_reader hx hcurrent (by simpa using hasking) hq

/-- A new call. -/
theorem onTime_call {x : BlockReads} (hx : x.OnTime) {index : Fin 2} {len timeOut : ℕ}
    {q : CacheReader 1000} (hq : (x.queue index).step (.call len) = .ok q) :
    OnTime { x with
      queue := Function.update x.queue index q
      current := some { index := index, len := len, timeOut := timeOut, entry := x.tick } } := by
  refine ⟨⟨hx.timely.waits, hx.timely.independent⟩, ?_⟩
  intro call hcall
  obtain rfl := Option.some.inj hcall
  refine ⟨?_, le_rfl, fun t ht => by cases ht⟩
  rw [CacheReader.step] at hq
  dsimp only
  rw [Function.update_self]
  split at hq <;> cases hq
  rfl

/-- The interrupt. -/
theorem onTime_write {x : BlockReads} (hx : x.OnTime) (index : Fin 2) (c : CacheBuffer 1000) :
    OnTime { x with
      queue := Function.update x.queue index { x.queue index with cache := c } } := by
  refine ⟨⟨hx.timely.waits, hx.timely.independent⟩, ?_⟩
  intro call hcall
  obtain ⟨hlen, hentry, hasked⟩ := hx.waiting call hcall
  refine ⟨?_, hentry, hasked⟩
  dsimp only
  by_cases hindex : call.index = index
  · subst hindex
    rw [Function.update_self]
    exact hlen
  · rw [Function.update_of_ne hindex]
    exact hlen

theorem onTime_tick {x : BlockReads} (hx : x.OnTime) : OnTime { x with tick := x.tick + 1 } := by
  refine ⟨⟨hx.timely.waits, hx.timely.independent⟩, ?_⟩
  intro call hcall
  obtain ⟨hlen, hentry, hasked⟩ := hx.waiting call hcall
  refine ⟨hlen, Nat.le_succ_of_le hentry, ?_⟩
  intro t ht
  obtain ⟨hafter, htick, hrest⟩ := hasked t ht
  exact ⟨hafter, Nat.le_succ_of_le htick, hrest⟩

theorem onTime_step {x y : BlockReads} {e : BlockEvent} (hx : x.OnTime) (hfresh : x.FreshStamp e)
    (h : x.step e = .ok y) : y.OnTime := by
  cases e with
  | call index len timeOut =>
    rw [step] at h
    split at h
    · cases h
    · obtain ⟨q, hq, h⟩ := Fallible.bind_eq_ok.mp h
      obtain rfl := Fallible.pure_eq_ok.mp h
      exact onTime_call hx hq
  | advance =>
    rw [step] at h
    split at h
    · next call hcurrent => exact onTime_advance hx hcurrent hfresh h
    · cases h
  | write index buf =>
    rw [step] at h
    split at h <;> cases h
    exact onTime_write hx index _
  | tick =>
    cases h
    exact onTime_tick hx

/-! ### The runs -/

/-- As long as every call that asks the callback finds the static variable unset or set to its
    own deadline, and the deadline does not wrap, every call waits its own time-out, whatever
    the tick at the start. Once the variable has expired, calls with no time-out do so too. -/
theorem timely_of_run {t₀ : ℕ} {es : List BlockEvent} {x : BlockReads}
    (h : Run (Guarded FreshStamp (ofExcept step)) { tick := t₀ } es x) : x.Timely := by
  refine OnTime.timely (h.invariant ?_ ?_)
  · rintro s e t hs ⟨hfresh, hstep⟩
    exact onTime_step hs hfresh hstep
  · constructor
    · constructor <;> intro _ hmem <;> cases hmem
    · intro call hcall
      cases hcall

/-- One byte is asked for and the callback sets its deadline, five ticks pass, and the call gives
    up. -/
def emptyRead : List BlockEvent :=
  .call 0 1 5 :: List.replicate 4 .advance ++ List.replicate 5 .tick ++ [.advance]

/-- A call that finds a byte does not ask. -/
def fullRead : List BlockEvent :=
  .write 0 [7] :: .call 0 1 5 :: List.replicate 9 .advance

/-- The first call of all gives up after its time-out, and the next one finds a byte. -/
theorem emptyRead_timely : ∃ x : BlockReads,
    Run (Guarded FreshStamp (ofExcept step)) { tick := 0 } (emptyRead ++ fullRead) x ∧
      x.outcomes = [⟨1, 0, 5, 5⟩, ⟨1, 1, 5, 0⟩] ∧ x.Timely := by
  obtain ⟨x, hrun, hx⟩ := Run.of_check FreshStamp step { tick := 0 } (emptyRead ++ fullRead)
    outcomes (x := [⟨1, 0, 5, 5⟩, ⟨1, 1, 5, 0⟩]) (by decide +kernel)
  exact ⟨x, hrun, hx, timely_of_run hrun⟩

/-- The second call finds the deadline of the first one, and gives up at once. -/
theorem secondRead_gives_up : ∃ x : BlockReads,
    Run (ofExcept step) { tick := 0 } (emptyRead ++ .call 0 1 5 :: List.replicate 4 .advance) x ∧
      ¬ x.Timely := by
  obtain ⟨x, hrun, hx⟩ := Run.of_check (fun _ _ => True) step { tick := 0 }
    (emptyRead ++ .call 0 1 5 :: List.replicate 4 .advance) outcomes
    (x := [⟨1, 0, 5, 5⟩, ⟨1, 0, 5, 0⟩]) (by decide +kernel)
  refine ⟨x, hrun.forget_guard, fun htimely => ?_⟩
  have hwaits := htimely.waits ⟨1, 0, 5, 0⟩ (by rw [hx]; decide)
  exact absurd hwaits (by decide)

end BlockReads

end RmMicroControllers
