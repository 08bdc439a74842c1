import RmMicroControllers.Tool.CacheFifo

/-!
# The reader under the USB interrupt

`CacheBuffer::read` as a party whose steps are its loads and stores of `circle_`, `write_pos_`
and `read_pos_` and the copies of single bytes, and `CacheBuffer::write` as one step of the
interrupt that may come between any two of them. Only the reader stores `read_pos_`, so a load
of it is taken together with the step it is needed for.

## Main definitions

- `CacheReader.readerStep` — the next step of a call of `read`
- `CacheReader.NoRace` — what the interrupt must not do between two steps

## Main results

- `CacheReader.read_run` — without the interrupt the steps make up `read`
- `CacheReader.fifo_of_run` — without these races the queue stays a FIFO
-/

namespace RmMicroControllers

open Memory Transition

/-- Where a call of `read` is. `src` is the position that `buffer_at_read` points to, `n` is
    `max_len`, and `k` of these bytes have been copied. -/
inductive ReaderPc where
  | idle
  | entry
  | waitCircle (src : ℕ)
  | waitWrite (src : ℕ)
  | timeCheck (src : ℕ)
  | maxLen (src : ℕ)
  | sample (src : ℕ)
  | advance (src n : ℕ)
  | wrapRead (src n : ℕ)
  | clearCircle (src n : ℕ)
  | loadWrite (src n : ℕ)
  | storeRead (src n pos : ℕ)
  | copy (src k n : ℕ)
  deriving DecidableEq

/-- The queue with its reader. `dest` are the bytes that the call has copied so far; all bytes
    written, and all bytes delivered by completed calls, are recorded. -/
structure CacheReader (size : ℕ) where
  cache : CacheBuffer size := {}
  pc : ReaderPc := .idle
  len : ℕ := 0
  dest : List UInt8 := []
  written : List UInt8 := []
  delivered : List UInt8 := []

/-- A call of `read`, the next step of the reader, or a call of `write`. The callback answers
    `more` if this step asks it. -/
inductive ReaderEvent where
  | call (len : ℕ)
  | reader (more : Bool)
  | write (buf : List UInt8)

/-- Why an event is not a step: a call out of turn, a write that returns false, or a fault of
    the queue. -/
inductive ReaderFault where
  | outOfTurn
  | refused
  | cache (f : CacheFault)
  deriving DecidableEq

namespace CacheReader

variable {size : ℕ}

/-- `expected_len`. -/
def expectedLen (x : CacheReader size) : ℕ := sub32 x.len x.dest.length % 256

/-- The call returns. -/
def finish (x : CacheReader size) : CacheReader size :=
  { x with pc := .idle, delivered := x.delivered ++ x.dest, dest := [] }

/-- The next step of a call of `read`. -/
def readerStep (x : CacheReader size) (more : Bool) : Except ReaderFault (CacheReader size) :=
  match x.pc with
  | .idle => .error .outOfTurn
  | .entry => .ok { x with pc := .waitCircle x.cache.readPos }
  | .waitCircle src =>
    if x.cache.circle then .ok { x with pc := .maxLen src } else .ok { x with pc := .waitWrite src }
  | .waitWrite src =>
    if x.cache.writePos > x.cache.readPos then .ok { x with pc := .maxLen src }
    else .ok { x with pc := .timeCheck src }
  | .timeCheck src => if more then .ok { x with pc := .waitCircle src } else .ok x.finish
  | .maxLen src =>
    if x.cache.circle then
      let tmpLen := sub32 size x.cache.readPos % 256
      if tmpLen > x.expectedLen then .ok { x with pc := .advance src x.expectedLen }
      else .ok { x with pc := .wrapRead src tmpLen }
    else .ok { x with pc := .sample src }
  | .sample src =>
    let tmpLen := sub32 x.cache.writePos x.cache.readPos % 256
    if tmpLen > x.expectedLen then .ok { x with pc := .advance src x.expectedLen }
    else .ok { x with pc := .loadWrite src tmpLen }
  | .advance src n =>
    .ok { x with cache.readPos := add32 x.cache.readPos n, pc := .copy src 0 n }
  | .wrapRead src n => .ok { x with cache.readPos := 0, pc := .clearCircle src n }
  | .clearCircle src n => .ok { x with cache.circle := false, pc := .copy src 0 n }
  | .loadWrite src n => .ok { x with pc := .storeRead src n x.cache.writePos }
  | .storeRead src n pos => .ok { x with cache.readPos := pos, pc := .copy src 0 n }
  | .copy src k n =>
    if k < n then
      if src + k < size then
        .ok { x with dest := x.dest ++ [x.cache.buffer (src + k)], pc := .copy src (k + 1) n }
      else .error (.cache .overrun)
    else if x.dest.length ≠ x.len then .ok { x with pc := .entry }
    else .ok x.finish

/-- One event. -/
def step (x : CacheReader size) : ReaderEvent → Except ReaderFault (CacheReader size)
  | .call len =>
    if x.pc = .idle then .ok { x with pc := .entry, len := len, dest := [] } else .error .outOfTurn
  | .reader more => x.readerStep more
  | .write buf =>
    match x.cache.write buf with
    | .ok (true, c) => .ok { x with cache := c, written := x.written ++ buf }
    | .ok (false, _) => .error .refused
    | .error f => .error (.cache f)

/-! ### Without the interrupt -/

section Alone

/-- The reader gets from one state to another without an interrupt. -/
def RunsAlone (x y : CacheReader size) : Prop :=
  ∃ answers : List Bool, Run (ofExcept step) x (answers.map .reader) y

theorem RunsAlone.refl (x : CacheReader size) : RunsAlone x x := ⟨[], .nil⟩

theorem RunsAlone.trans {x y z : CacheReader size} (h₁ : RunsAlone x y) (h₂ : RunsAlone y z) :
    RunsAlone x z := by
  obtain ⟨l₁, h₁⟩ := h₁
  obtain ⟨l₂, h₂⟩ := h₂
  exact ⟨l₁ ++ l₂, by simpa using h₁.append h₂⟩

theorem RunsAlone.head {x y z : CacheReader size} {more : Bool} (h : x.readerStep more = .ok y)
    (h' : RunsAlone y z) : RunsAlone x z :=
  .trans ⟨[more], Run.single h⟩ h'

/-- The inner loop. -/
theorem waitData_run {x : CacheReader size} {src : ℕ} (hpc : x.pc = .waitCircle src)
    {timeCheck : ℕ → Bool} {fuel calls calls' : ℕ} {ready : Bool}
    (h : x.cache.waitData timeCheck fuel calls = .ok (ready, calls')) :
    RunsAlone x (if ready then { x with pc := .maxLen src } else x.finish) := by
  induction fuel generalizing calls with
  | zero => cases h
  | succ fuel ih =>
    unfold CacheBuffer.waitData CacheBuffer.readWaitPos at h
    cases hcircle : x.cache.circle with
    | true =>
      have hmax : x.readerStep false = .ok { x with pc := .maxLen src } := by
        rw [readerStep, hpc]
        exact if_pos hcircle
      rw [hcircle] at h
      obtain ⟨rfl, -⟩ := Prod.mk.inj (Except.ok.inj h)
      exact .head hmax (.refl _)
    | false =>
      have hwrite : x.readerStep false = .ok { x with pc := .waitWrite src } := by
        rw [readerStep, hpc]
        exact if_neg (by simp [hcircle])
      refine .head hwrite ?_
      rw [hcircle] at h
      by_cases hlt : x.cache.writePos > x.cache.readPos
      · rw [if_neg (by simp [hlt])] at h
        obtain ⟨rfl, -⟩ := Prod.mk.inj (Except.ok.inj h)
        have hmax : readerStep { x with pc := .waitWrite src } false =
            .ok { x with pc := .maxLen src } := if_pos hlt
        exact .head hmax (.refl _)
      · rw [if_pos (by simp [hlt])] at h
        have hask : readerStep { x with pc := .waitWrite src } false =
            .ok { x with pc := .timeCheck src } := if_neg hlt
        refine .head hask ?_
        split at h
        · have hmore : readerStep { x with pc := .timeCheck src } true =
              .ok { x with pc := .waitCircle src } := rfl
          refine .head hmore ?_
          have hx : ({ x with pc := .waitCircle src } : CacheReader size) = x := by rw [← hpc]
          rw [hx]
          exact ih h
        · obtain ⟨rfl, -⟩ := Prod.mk.inj (Except.ok.inj h)
          have hstop : readerStep { x with pc := .timeCheck src } false = .ok x.finish := rfl
          exact .head hstop (.refl _)

/-- The choice of the length. -/
theorem maxLen_run {x : CacheReader size} {src : ℕ} (hpc : x.pc = .maxLen src) {n : ℕ}
    {d : CacheBuffer size} (h : x.cache.readMaxLenChangePos x.expectedLen = (n, d)) :
    RunsAlone x { x with cache := d, pc := .copy src 0 n } := by
  have hstep : x.readerStep false = if x.cache.circle then
      if sub32 size x.cache.readPos % 256 > x.expectedLen then
        .ok { x with pc := .advance src x.expectedLen }
      else .ok { x with pc := .wrapRead src (sub32 size x.cache.readPos % 256) }
    else .ok { x with pc := .sample src } := by
    rw [readerStep, hpc]
  unfold CacheBuffer.readMaxLenChangePos at h
  split at h
  · next hcircle =>
    rw [if_pos hcircle] at hstep
    dsimp only at h
    split at h <;> obtain ⟨rfl, rfl⟩ := Prod.mk.inj h
    · next hlt =>
      rw [if_pos hlt] at hstep
      exact .head hstep ⟨[false], Run.single rfl⟩
    · next hge =>
      rw [if_neg hge] at hstep
      generalize sub32 size x.cache.readPos % 256 = m at hstep ⊢
      have hwrap : readerStep { x with pc := .wrapRead src m } false =
          .ok { x with cache.readPos := 0, pc := .clearCircle src m } := rfl
      exact .head hstep (.head hwrap ⟨[false], Run.single rfl⟩)
  · next hcircle =>
    rw [if_neg hcircle] at hstep
    refine .head hstep ?_
    dsimp only at h
    have hsample : readerStep { x with pc := .sample src } false =
      if sub32 x.cache.writePos x.cache.readPos % 256 > x.expectedLen then
        .ok { x with pc := .advance src x.expectedLen }
      else .ok { x with pc := .loadWrite src (sub32 x.cache.writePos x.cache.readPos % 256) } := rfl
    split at h <;> obtain ⟨rfl, rfl⟩ := Prod.mk.inj h
    · next hlt =>
      rw [if_pos hlt] at hsample
      exact .head hsample ⟨[false], Run.single rfl⟩
    · next hge =>
      rw [if_neg hge] at hsample
      generalize sub32 x.cache.writePos x.cache.readPos % 256 = m at hsample ⊢
      have hload : readerStep { x with pc := .loadWrite src m } false =
          .ok { x with pc := .storeRead src m x.cache.writePos } := rfl
      exact .head hsample (.head hload ⟨[false], Run.single rfl⟩)

/-- The copy. -/
theorem copy_run {x : CacheReader size} {src k n : ℕ} (hpc : x.pc = .copy src k n) (hk : k ≤ n)
    (hend : src + n ≤ size) :
    RunsAlone x { x with
      dest := x.dest ++ slice x.cache.buffer (src + k) (src + n), pc := .copy src n n } := by
  obtain ⟨m, rfl⟩ := Nat.exists_eq_add_of_le hk
  induction m generalizing x k with
  | zero =>
    rw [Nat.add_zero, slice_self, List.append_nil]
    rw [Nat.add_zero] at hpc
    have hx : ({ x with pc := .copy src k k } : CacheReader size) = x := by rw [← hpc]
    rw [hx]
    exact .refl x
  | succ m ih =>
    have hstep : x.readerStep false = .ok { x with
        dest := x.dest ++ [x.cache.buffer (src + k)], pc := .copy src (k + 1) (k + (m + 1)) } := by
      rw [readerStep, hpc]
      dsimp only
      rw [if_pos (by omega), if_pos (by omega)]
    have hcount : k + (m + 1) = k + 1 + m := by omega
    refine .head hstep ?_
    have hrest := ih (x := { x with
      dest := x.dest ++ [x.cache.buffer (src + k)], pc := .copy src (k + 1) (k + (m + 1)) })
      (k := k + 1) (by rw [hcount]) (by omega) (by omega)
    rw [List.append_assoc] at hrest
    rw [slice_cons (by omega), hcount]
    rw [hcount] at hrest
    exact hrest

/-- The outer loop. -/
theorem readLoop_run {x : CacheReader size} (hpc : x.pc = .entry) {timeCheck : ℕ → Bool}
    {fuel calls : ℕ} {out : List UInt8} {c : CacheBuffer size}
    (h : CacheBuffer.readLoop timeCheck x.len fuel calls x.cache x.dest = .ok (out, c)) :
    RunsAlone x { x with
      cache := c, pc := .idle, dest := [], delivered := x.delivered ++ out } := by
  induction fuel generalizing x calls with
  | zero => cases h
  | succ fuel ih =>
    unfold CacheBuffer.readLoop at h
    obtain ⟨⟨ready, calls'⟩, hwait, h⟩ := Fallible.bind_eq_ok.mp h
    have hentry : x.readerStep false = .ok { x with pc := .waitCircle x.cache.readPos } := by
      rw [readerStep, hpc]
    refine .head hentry (.trans (waitData_run rfl hwait) ?_)
    dsimp only at h
    cases ready with
    | false =>
      obtain ⟨rfl, rfl⟩ := Prod.mk.inj (Fallible.pure_eq_ok.mp h)
      exact .refl _
    | true =>
      rw [if_pos rfl] at h
      generalize htake : x.cache.readMaxLenChangePos (sub32 x.len x.dest.length % 256) = r at h
      obtain ⟨n, d⟩ := r
      obtain ⟨bytes, hbytes, h⟩ := Fallible.bind_eq_ok.mp h
      unfold CacheBuffer.copyOut at hbytes
      split at hbytes
      · next hend =>
        obtain rfl := Except.ok.inj hbytes
        have hchoice : RunsAlone { x with pc := .maxLen x.cache.readPos }
            { x with cache := d, pc := .copy x.cache.readPos 0 n } := maxLen_run rfl htake
        refine .trans hchoice (.trans (copy_run rfl (Nat.zero_le n) hend) ?_)
        dsimp only [Nat.add_zero]
        generalize x.dest ++ slice d.buffer x.cache.readPos (x.cache.readPos + n) = dest at h ⊢
        generalize x.cache.readPos = src
        have hdone : readerStep { x with cache := d, dest := dest, pc := .copy src n n } false =
            if dest.length ≠ x.len then .ok { x with cache := d, dest := dest, pc := .entry }
            else .ok (finish { x with cache := d, dest := dest, pc := .copy src n n }) :=
          if_neg (lt_irrefl n)
        split at h
        · next hmore =>
          rw [if_pos hmore] at hdone
          exact .head hdone (ih (x := { x with cache := d, dest := dest, pc := .entry }) rfl h)
        · next hfilled =>
          rw [if_neg hfilled] at hdone
          obtain ⟨rfl, rfl⟩ := Prod.mk.inj (Fallible.pure_eq_ok.mp h)
          exact .head hdone (.refl _)
      · cases hbytes

/-- Without the interrupt the steps make up `read`. -/
theorem read_run {x : CacheReader size} (hpc : x.pc = .idle) {timeCheck : ℕ → Bool}
    {fuel len : ℕ} {out : List UInt8} {c : CacheBuffer size}
    (h : x.cache.read fuel len timeCheck = .ok (out, c)) :
    ∃ answers : List Bool, Run (ofExcept step) x (.call len :: answers.map .reader)
      { x with cache := c, len := len, dest := [], delivered := x.delivered ++ out } := by
  have hcall : x.step (.call len) = .ok { x with pc := .entry, len := len, dest := [] } := by
    rw [step, if_pos hpc]
  obtain ⟨answers, hrun⟩ :=
    readLoop_run (x := { x with pc := .entry, len := len, dest := [] }) rfl h
  refine ⟨answers, Run.cons hcall ?_⟩
  rw [← hpc] at hrun
  exact hrun

end Alone

/-! ### What is queued and what is on its way -/

/-- The bytes queued. While `circle_` is about to be cleared, `read_pos_` is already that of the
    wrapped piece. -/
def queued (x : CacheReader size) : List UInt8 :=
  match x.pc with
  | .clearCircle _ _ => slice x.cache.buffer 0 x.cache.writePos
  | _ => x.cache.contents

/-- The bytes that the reader has passed over and not yet copied. -/
def pending (x : CacheReader size) : List UInt8 :=
  match x.pc with
  | .clearCircle src n => slice x.cache.buffer src (src + n)
  | .copy src k n => slice x.cache.buffer (src + k) (src + n)
  | _ => []

/-- Delivered bytes and queued bytes are the bytes written, and so is what has been delivered
    so far, with what a call has on its way. -/
structure Fifo (x : CacheReader size) : Prop where
  conserved : x.delivered ++ (x.dest ++ x.pending) ++ x.queued = x.written
  idle : x.pc = .idle → x.delivered ++ x.cache.contents = x.written
  delivered : x.delivered <+: x.written

/-- Fewer than 256 bytes are queued, and at most 255 are asked for. -/
def Small (x : CacheReader size) (e : ReaderEvent) : Prop :=
  x.queued.length < 256 ∧
    match e with
    | .call len => len ≤ 255
    | _ => True

/-- What a write must not do at some points of the reader. After the reader has found `circle_`
    clear, the write must not wrap before `write_pos_` is loaded. Between the two loads of
    `write_pos_` it must not write anything. And it must not touch a byte that the reader has
    passed over and not yet copied. -/
def NoRace (x : CacheReader size) : ReaderEvent → Prop
  | .write buf =>
    match x.pc with
    | .sample _ => buf.length < size - x.cache.writePos
    | .loadWrite _ _ => buf = []
    | .clearCircle src n => ∀ i, src ≤ i → i < src + n → ¬ x.cache.Touches buf.length i
    | .copy src k n => ∀ i, src + k ≤ i → i < src + n → ¬ x.cache.Touches buf.length i
    | _ => True
  | _ => True

/-! ### What a write keeps -/

section Write

open CacheBuffer

variable {c d : CacheBuffer size} {buf : List UInt8}

/-- Passing over bytes of the piece at the read position, all of it included. -/
theorem contents_skip (hc : c.Shape) {n : ℕ} (hn : n ≤ c.run) :
    c.contents = slice c.buffer c.readPos (c.readPos + n) ++ (c.skip n).contents := by
  have hbound := run_bound hc
  rw [contents_eq hc, ← slice_append (Nat.le_add_right _ n) (Nat.add_le_add_left hn _),
    List.append_assoc]
  congr 1
  unfold CacheBuffer.run at hn ⊢
  unfold CacheBuffer.skip CacheBuffer.contents tail
  cases hcircle : c.circle with
  | true =>
    obtain ⟨-, hr⟩ := hc.circle hcircle
    simp only [if_true]
    rw [Nat.add_sub_cancel' hr.le]
  | false =>
    obtain ⟨hrw, -⟩ := hc.straight hcircle
    simp only [Bool.false_eq_true, if_false, List.append_nil]
    rw [Nat.add_sub_cancel' hrw]

theorem shape_skip (hc : c.Shape) {n : ℕ} (hn : n ≤ c.run) (hend : c.readPos + n < size) :
    (c.skip n).Shape := by
  unfold CacheBuffer.run at hn
  constructor <;> intro hcircle <;> change c.circle = _ at hcircle
  · have h := hc.circle hcircle
    exact ⟨Nat.le_add_right_of_le h.1, hend⟩
  · have h := hc.straight hcircle
    simp only [hcircle, Bool.false_eq_true, if_false] at hn
    exact ⟨by simp only [CacheBuffer.skip]; omega, h.2⟩

/-- A write never shortens the piece at the read position. -/
theorem run_le_of_written (hc : c.Shape) (h : Written c buf d) : c.run ≤ d.run := by
  have hlen := congrArg List.length h.contents
  rw [List.length_append, contents_length, contents_length] at hlen
  have hread := h.readPos
  unfold CacheBuffer.run
  cases hcircle : c.circle with
  | true => simp [h.circle hcircle, hread]
  | false =>
    obtain ⟨hrw, hw⟩ := hc.straight hcircle
    simp only [hcircle, Bool.false_eq_true, if_false] at hlen ⊢
    cases hcircle' : d.circle with
    | true =>
      simp only [if_true]
      omega
    | false =>
      simp only [hcircle', Bool.false_eq_true, if_false] at hlen ⊢
      omega

/-- A write that fits before the end of the buffer does not wrap. -/
theorem write_straight (hsize : size < 2 ^ 32) (hc : c.Shape) (hcircle : c.circle = false)
    (hfits : buf.length < size - c.writePos) (h : c.write buf = .ok (true, d)) :
    d.circle = false ∧ d.writePos = c.writePos + buf.length := by
  obtain ⟨-, hw⟩ := hc.straight hcircle
  unfold CacheBuffer.write at h
  rw [if_neg (by simp [hcircle])] at h
  dsimp only at h
  rw [sub32_of_le hw.le hsize, if_pos hfits] at h
  obtain ⟨e, he, h⟩ := Fallible.bind_eq_ok.mp h
  obtain ⟨-, rfl⟩ := copyIn_eq_ok he
  simp only [Fallible.pure_eq_ok, Prod.mk.injEq, true_and] at h
  subst h
  exact ⟨hcircle, add32_of_lt (by omega)⟩

end Write

/-! ### The invariant -/

/-- How the stale values of a call fit the queue as it is now. -/
def PcFacts (x : CacheReader size) : Prop :=
  match x.pc with
  | .idle => x.dest = []
  | .entry => True
  | .waitCircle src => src = x.cache.readPos
  | .waitWrite src => src = x.cache.readPos
  | .timeCheck src => src = x.cache.readPos
  | .maxLen src => src = x.cache.readPos
  | .sample src => src = x.cache.readPos ∧ x.cache.circle = false
  | .advance src n => src = x.cache.readPos ∧ n < x.cache.run
  | .wrapRead src n =>
    src = x.cache.readPos ∧ x.cache.circle = true ∧ x.cache.readPos + n = size
  | .clearCircle src n =>
    x.cache.circle = true ∧ x.cache.readPos = 0 ∧ x.cache.writePos ≤ src ∧ src < size ∧
      src + n = size
  | .loadWrite src n =>
    src = x.cache.readPos ∧ x.cache.circle = false ∧ x.cache.writePos = x.cache.readPos + n
  | .storeRead src n pos =>
    src = x.cache.readPos ∧ pos = x.cache.readPos + n ∧ n ≤ x.cache.run ∧ pos < size
  | .copy _ k n => k ≤ n

/-- The positions lie as they should, but for the moment before `circle_` is cleared. -/
def Placed (x : CacheReader size) : Prop :=
  match x.pc with
  | .clearCircle _ _ => True
  | _ => x.cache.Shape

structure Sound (x : CacheReader size) : Prop where
  placed : Placed x
  facts : PcFacts x
  conserved : x.delivered ++ (x.dest ++ x.pending) ++ x.queued = x.written

/-- The steps at which nothing is on its way. -/
def ReaderPc.plain : ReaderPc → Bool
  | .clearCircle _ _ => false
  | .copy _ _ _ => false
  | _ => true

theorem Sound.of_plain {x : CacheReader size} (hplain : ReaderPc.plain x.pc = true)
    (hshape : x.cache.Shape) (hfacts : PcFacts x)
    (hconserved : x.delivered ++ x.dest ++ x.cache.contents = x.written) : x.Sound := by
  refine ⟨?_, hfacts, ?_⟩
  · unfold Placed
    split
    · trivial
    · exact hshape
  · unfold pending queued
    cases hpc : x.pc <;> simp_all [ReaderPc.plain]

theorem Sound.plain {x : CacheReader size} (hx : x.Sound) (hplain : ReaderPc.plain x.pc = true) :
    x.cache.Shape ∧ x.queued = x.cache.contents ∧
      x.delivered ++ x.dest ++ x.cache.contents = x.written := by
  obtain ⟨hplaced, -, hconserved⟩ := hx
  unfold Placed at hplaced
  unfold pending queued at hconserved
  unfold queued
  cases hpc : x.pc <;> simp_all [ReaderPc.plain]

theorem sound_start (h : 0 < size) : Sound ({} : CacheReader size) :=
  .of_plain rfl (CacheBuffer.shape_fresh h) rfl (by simp [CacheBuffer.contents])

theorem Sound.fifo {x : CacheReader size} (h : Sound x) : x.Fifo := by
  have hconserved := h.conserved
  refine ⟨hconserved, fun hidle => ?_, ?_⟩
  · have hdest := h.facts
    simp only [PcFacts, hidle] at hdest
    simpa [hdest, pending, queued, hidle] using hconserved
  · rw [List.append_assoc] at hconserved
    exact ⟨_, hconserved⟩

/-- The call returns in order. -/
theorem sound_finish {x : CacheReader size} (hshape : x.cache.Shape)
    (hconserved : x.delivered ++ x.dest ++ x.cache.contents = x.written) : x.finish.Sound :=
  .of_plain rfl hshape rfl (by simpa [finish] using hconserved)

/-- Passing over bytes of the first piece puts them on their way. -/
theorem sound_skip {x : CacheReader size} {src n : ℕ} (hshape : x.cache.Shape)
    (hconserved : x.delivered ++ x.dest ++ x.cache.contents = x.written)
    (hsrc : src = x.cache.readPos) (hn : n ≤ x.cache.run) (hend : x.cache.readPos + n < size) :
    Sound { x with cache := x.cache.skip n, pc := .copy src 0 n } := by
  refine ⟨shape_skip hshape hn hend, Nat.zero_le n, ?_⟩
  rw [contents_skip hshape hn] at hconserved
  simp only [pending, queued, hsrc, Nat.add_zero]
  rw [← hconserved]
  simp [CacheBuffer.skip]

/-- A step between two points at which nothing is on its way. -/
theorem Sound.goto {x : CacheReader size} (hx : x.Sound) (hplain : ReaderPc.plain x.pc = true)
    {pc : ReaderPc} (hplain' : ReaderPc.plain pc = true) (hfacts : PcFacts { x with pc := pc }) :
    Sound { x with pc := pc } := by
  obtain ⟨hshape, -, hconserved⟩ := hx.plain hplain
  exact .of_plain hplain' hshape hfacts hconserved

/-- The lengths are not cut off as long as fewer than 256 bytes are queued. -/
theorem tmpLen_eq (hsize : size < 2 ^ 32) {x : CacheReader size} (hx : x.Sound)
    (hplain : ReaderPc.plain x.pc = true) (hsmall : x.queued.length < 256) :
    (if x.cache.circle then sub32 size x.cache.readPos % 256
      else sub32 x.cache.writePos x.cache.readPos % 256) = x.cache.run := by
  obtain ⟨hshape, hqueued, -⟩ := hx.plain hplain
  rw [hqueued, CacheBuffer.contents_length] at hsmall
  unfold CacheBuffer.run
  cases hcircle : x.cache.circle with
  | true =>
    obtain ⟨-, hr⟩ := hshape.circle hcircle
    simp only [hcircle, if_true] at hsmall ⊢
    rw [sub32_of_le hr.le hsize]
    omega
  | false =>
    obtain ⟨hrw, hw⟩ := hshape.straight hcircle
    simp only [hcircle, Bool.false_eq_true, if_false] at hsmall ⊢
    rw [sub32_of_le hrw (by omega)]
    omega

/-- Clearing `circle_` turns the wrapped piece into the first one. -/
theorem sound_clearCircle {x : CacheReader size} (hx : x.Sound) {src n : ℕ}
    (hpc : x.pc = .clearCircle src n) :
    Sound ({ x with cache.circle := false, pc := .copy src 0 n } : CacheReader size) := by
  obtain ⟨-, hfacts, hconserved⟩ := hx
  simp only [PcFacts, hpc] at hfacts
  simp only [pending, queued, hpc] at hconserved
  obtain ⟨-, hread, hws, hs, hend⟩ := hfacts
  refine ⟨⟨fun hyes => ?_, fun _ => ⟨?_, ?_⟩⟩, Nat.zero_le n, ?_⟩
  · cases hyes
  · dsimp only
    omega
  · dsimp only
    omega
  · simp only [pending, queued, CacheBuffer.contents, Nat.add_zero, Bool.false_eq_true, if_false,
      hread]
    exact hconserved

/-- One byte more has been copied. -/
theorem sound_copy {x : CacheReader size} (hx : x.Sound) {src k n : ℕ} (hpc : x.pc = .copy src k n)
    (hlt : k < n) :
    Sound { x with
      dest := x.dest ++ [x.cache.buffer (src + k)], pc := .copy src (k + 1) n } := by
  obtain ⟨hshape, -, hconserved⟩ := hx
  simp only [Placed, hpc] at hshape
  simp only [pending, queued, hpc] at hconserved
  refine ⟨hshape, hlt, ?_⟩
  rw [slice_cons (by omega)] at hconserved
  simp only [pending, queued]
  rw [← hconserved]
  simp [Nat.add_assoc]

/-- Nothing is on its way when all bytes of a pass have been copied. -/
theorem copied_plain {x : CacheReader size} (hx : x.Sound) {src n : ℕ}
    (hpc : x.pc = .copy src n n) :
    x.cache.Shape ∧ x.delivered ++ x.dest ++ x.cache.contents = x.written := by
  obtain ⟨hshape, -, hconserved⟩ := hx
  simp only [Placed, hpc] at hshape
  simp only [pending, queued, hpc, slice_self, List.append_nil] at hconserved
  exact ⟨hshape, hconserved⟩

theorem sound_reader (hsize : size < 2 ^ 32) {x y : CacheReader size} (hx : x.Sound)
    (hsmall : x.queued.length < 256) {more : Bool} (h : x.readerStep more = .ok y) : y.Sound := by
  have hfacts := hx.facts
  have hplain := hx.plain
  have hgoto := hx.goto
  have htmp := tmpLen_eq hsize hx
  unfold readerStep at h
  unfold PcFacts at hfacts
  cases hpc : x.pc with
  | idle => simp [hpc] at h
  | entry =>
    simp only [hpc] at h hgoto
    cases h
    exact hgoto rfl rfl rfl
  | waitCircle src =>
    simp only [hpc] at h hgoto hfacts
    split at h <;> cases h
    · exact hgoto rfl rfl hfacts
    · exact hgoto rfl rfl hfacts
  | waitWrite src =>
    simp only [hpc] at h hgoto hfacts
    split at h <;> cases h
    · exact hgoto rfl rfl hfacts
    · exact hgoto rfl rfl hfacts
  | timeCheck src =>
    simp only [hpc] at h hgoto hplain hfacts
    split at h <;> cases h
    · exact hgoto rfl rfl hfacts
    · obtain ⟨hshape, -, hconserved⟩ := hplain rfl
      exact sound_finish hshape hconserved
  | maxLen src =>
    simp only [hpc] at h hgoto hplain hfacts htmp
    obtain ⟨hshape, -, -⟩ := hplain rfl
    have hrun := htmp rfl hsmall
    split at h
    · next hcircle =>
      obtain ⟨-, hr⟩ := hshape.circle hcircle
      rw [if_pos hcircle] at hrun
      have hfirst : x.cache.run = size - x.cache.readPos := if_pos hcircle
      rw [hrun] at h
      split at h <;> cases h
      · next hlt => exact hgoto rfl rfl ⟨hfacts, hlt⟩
      · exact hgoto rfl rfl ⟨hfacts, hcircle, by dsimp only; omega⟩
    · next hcircle =>
      cases h
      exact hgoto rfl rfl ⟨hfacts, by simpa using hcircle⟩
  | sample src =>
    simp only [hpc] at h hgoto hplain hfacts htmp
    obtain ⟨hsrc, hcircle⟩ := hfacts
    obtain ⟨hshape, -, -⟩ := hplain rfl
    obtain ⟨hrw, -⟩ := hshape.straight hcircle
    have hrun := htmp rfl hsmall
    rw [if_neg (by simp [hcircle])] at hrun
    have hfirst : x.cache.run = x.cache.writePos - x.cache.readPos := if_neg (by simp [hcircle])
    rw [hrun] at h
    split at h <;> cases h
    · next hlt => exact hgoto rfl rfl ⟨hsrc, hlt⟩
    · exact hgoto rfl rfl ⟨hsrc, hcircle, by dsimp only; omega⟩
  | advance src n =>
    simp only [hpc] at h hplain hfacts
    obtain ⟨hsrc, hn⟩ := hfacts
    obtain ⟨hshape, -, hconserved⟩ := hplain rfl
    have hbound := CacheBuffer.run_bound hshape
    rw [add32_of_lt (by omega)] at h
    cases h
    -- fewer bytes than the first piece has, so `read_pos_` stays inside the buffer
    exact sound_skip hshape hconserved hsrc hn.le (by omega)
  | wrapRead src n =>
    simp only [hpc] at h hplain hfacts
    obtain ⟨hsrc, hcircle, hend⟩ := hfacts
    obtain ⟨hshape, -, hconserved⟩ := hplain rfl
    obtain ⟨hwr, hr⟩ := hshape.circle hcircle
    cases h
    -- `read_pos_` is that of the wrapped piece while `circle_` is still set
    refine ⟨trivial, ⟨hcircle, rfl, hsrc ▸ hwr, hsrc ▸ hr, hsrc ▸ hend⟩, ?_⟩
    rw [CacheBuffer.contents, if_pos hcircle] at hconserved
    simp only [pending, queued, hsrc, hend]
    rw [← hconserved]
    simp
  | clearCircle src n =>
    simp only [hpc] at h
    cases h
    exact sound_clearCircle hx hpc
  | loadWrite src n =>
    simp only [hpc] at h hgoto hplain hfacts
    obtain ⟨hsrc, hcircle, hwrite⟩ := hfacts
    obtain ⟨hshape, -, -⟩ := hplain rfl
    obtain ⟨-, hw⟩ := hshape.straight hcircle
    have hrun : x.cache.run = x.cache.writePos - x.cache.readPos := if_neg (by simp [hcircle])
    cases h
    exact hgoto rfl rfl ⟨hsrc, hwrite, by dsimp only; omega, hw⟩
  | storeRead src n pos =>
    simp only [hpc] at h hplain hfacts
    -- what has been written since the load stays behind the stored position
    obtain ⟨hsrc, rfl, hn, hend⟩ := hfacts
    obtain ⟨hshape, -, hconserved⟩ := hplain rfl
    cases h
    exact sound_skip hshape hconserved hsrc hn hend
  | copy src k n =>
    simp only [hpc] at h hfacts
    split at h
    · next hlt =>
      split at h <;> cases h
      exact sound_copy hx hpc hlt
    · next hge =>
      obtain rfl : k = n := by omega
      obtain ⟨hshape, hconserved⟩ := copied_plain hx hpc
      split at h <;> cases h
      · exact .of_plain rfl hshape trivial hconserved
      · exact sound_finish hshape hconserved

/-- A write before `circle_` is cleared goes behind the wrapped piece. -/
theorem sound_write_clearCircle (hsize : size < 2 ^ 32) {x : CacheReader size} (hx : x.Sound)
    {src n : ℕ} (hpc : x.pc = .clearCircle src n) {buf : List UInt8}
    (hrace : NoRace x (.write buf)) {c : CacheBuffer size} (h : x.cache.write buf = .ok (true, c)) :
    Sound { x with cache := c, written := x.written ++ buf } := by
  obtain ⟨-, hfacts, hconserved⟩ := hx
  simp only [PcFacts, hpc] at hfacts
  simp only [pending, queued, hpc] at hconserved
  simp only [NoRace, hpc] at hrace
  obtain ⟨hcircle, hread, hws, hs, hend⟩ := hfacts
  unfold CacheBuffer.write at h
  rw [if_pos hcircle] at h
  obtain ⟨-, hle, rfl⟩ := CacheBuffer.writeCircle_eq_ok h
  rw [add32_of_lt (by omega)]
  have hroom : x.cache.writePos + buf.length ≤ src := by
    by_contra hfar
    refine hrace src le_rfl (by omega) ?_
    rw [CacheBuffer.Touches, if_pos hcircle]
    omega
  refine ⟨by simp only [Placed, hpc], ?_, ?_⟩
  · simp only [PcFacts, hpc]
    exact ⟨hcircle, hread, hroom, hs, hend⟩
  · simp only [pending, queued, hpc]
    rw [slice_patch_disjoint (Or.inr hroom), ← slice_append (Nat.zero_le _)
      (Nat.le_add_right x.cache.writePos buf.length), slice_patch_self,
      slice_patch_disjoint (Or.inl le_rfl), ← hconserved]
    simp only [List.append_assoc]

/-- The stale values of a call still fit the queue after a write that does not race. -/
theorem facts_write (hsize : size < 2 ^ 32) {x : CacheReader size} (hfacts : PcFacts x)
    (hshape : x.cache.Shape) (hclear : ¬∃ src n, x.pc = .clearCircle src n) {buf : List UInt8}
    (hrace : NoRace x (.write buf)) {c : CacheBuffer size} (h : x.cache.write buf = .ok (true, c)) :
    PcFacts { x with cache := c, written := x.written ++ buf } := by
  have hwritten := CacheBuffer.write_spec hsize hshape h
  have hrun := run_le_of_written hshape hwritten
  have hread := hwritten.readPos
  unfold PcFacts at hfacts ⊢
  unfold NoRace at hrace
  cases hpc : x.pc with
  | idle =>
    simp only [hpc] at hfacts ⊢
    exact hfacts
  | entry => trivial
  | waitCircle src | waitWrite src | timeCheck src | maxLen src =>
    simp only [hpc] at hfacts ⊢
    exact hfacts.trans hread.symm
  | sample src =>
    simp only [hpc] at hfacts hrace ⊢
    exact ⟨hfacts.1.trans hread.symm, (write_straight hsize hshape hfacts.2 hrace h).1⟩
  | advance src n =>
    simp only [hpc] at hfacts ⊢
    exact ⟨hfacts.1.trans hread.symm, hfacts.2.trans_le hrun⟩
  | wrapRead src n =>
    simp only [hpc] at hfacts ⊢
    exact ⟨hfacts.1.trans hread.symm, hwritten.circle hfacts.2.1, hread ▸ hfacts.2.2⟩
  | clearCircle src n => exact absurd ⟨src, n, hpc⟩ hclear
  | loadWrite src n =>
    -- nothing is written between the two loads
    simp only [hpc] at hfacts hrace ⊢
    obtain ⟨hsrc, hstraight, hwrite⟩ := hfacts
    obtain ⟨-, hw⟩ := hshape.straight hstraight
    subst hrace
    have hfits : ([] : List UInt8).length < size - x.cache.writePos := Nat.sub_pos_of_lt hw
    obtain ⟨hstraight', hwrite'⟩ := write_straight hsize hshape hstraight hfits h
    exact ⟨hsrc.trans hread.symm, hstraight', by rw [hwrite', hread, hwrite]; rfl⟩
  | storeRead src n pos =>
    simp only [hpc] at hfacts ⊢
    obtain ⟨hsrc, hpos, hn, hend⟩ := hfacts
    exact ⟨hsrc.trans hread.symm, hpos.trans (by rw [hread]), hn.trans hrun, hend⟩
  | copy src k n =>
    simp only [hpc] at hfacts ⊢
    exact hfacts

theorem sound_write (hsize : size < 2 ^ 32) {x : CacheReader size} (hx : x.Sound)
    {buf : List UInt8} (hrace : NoRace x (.write buf)) {c : CacheBuffer size}
    (h : x.cache.write buf = .ok (true, c)) :
    Sound { x with cache := c, written := x.written ++ buf } := by
  by_cases hclear : ∃ src n, x.pc = .clearCircle src n
  · obtain ⟨src, n, hpc⟩ := hclear
    exact sound_write_clearCircle hsize hx hpc hrace h
  have hshape : x.cache.Shape := by
    have hplaced := hx.placed
    unfold Placed at hplaced
    split at hplaced
    · next src n hpc => exact absurd ⟨src, n, hpc⟩ hclear
    · exact hplaced
  have hwritten := CacheBuffer.write_spec hsize hshape h
  refine ⟨?_, facts_write hsize hx.facts hshape hclear hrace h, ?_⟩
  · unfold Placed
    split
    · trivial
    · exact hwritten.shape
  · have hpending : pending { x with cache := c, written := x.written ++ buf } = x.pending := by
      unfold pending
      unfold NoRace at hrace
      cases hpc : x.pc with
      | clearCircle src n => exact absurd ⟨src, n, hpc⟩ hclear
      | copy src k n =>
        simp only [hpc] at hrace ⊢
        exact slice_congr fun i h₁ h₂ => hwritten.untouched i (hrace i h₁ h₂)
      | _ => rfl
    have hqueued : queued { x with cache := c, written := x.written ++ buf } =
        x.queued ++ buf := by
      unfold queued
      cases hpc : x.pc with
      | clearCircle src n => exact absurd ⟨src, n, hpc⟩ hclear
      | _ => exact hwritten.contents
    rw [hpending, hqueued, ← hx.conserved]
    simp only [List.append_assoc]

/-- Runs of small calls in any order of steps, without the races. -/
abbrev RaceFreeRuns (es : List ReaderEvent) (x : CacheReader size) : Prop :=
  Run (Guarded (fun x e => Small x e ∧ NoRace x e) (ofExcept step)) {} es x

theorem sound_step (hsize : size < 2 ^ 32) {x y : CacheReader size} {e : ReaderEvent}
    (hx : x.Sound) (hsmall : Small x e) (hrace : NoRace x e) (h : x.step e = .ok y) : y.Sound := by
  cases e with
  | call len =>
    rw [step] at h
    split at h <;> cases h
    next hidle =>
    obtain ⟨hshape, -, hconserved⟩ := hx.plain (by rw [hidle]; rfl)
    have hdest := hx.facts
    simp only [PcFacts, hidle] at hdest
    rw [hdest] at hconserved
    exact .of_plain rfl hshape trivial hconserved
  | reader more => exact sound_reader hsize hx hsmall.1 h
  | write buf =>
    rw [step] at h
    cases hwrite : x.cache.write buf with
    | error f => rw [hwrite] at h; cases h
    | ok r =>
      obtain ⟨done, c⟩ := r
      rw [hwrite] at h
      cases done with
      | false => cases h
      | true =>
        cases h
        exact sound_write hsize hx hrace hwrite

/-- In every run without the races, nothing is lost, repeated or corrupted. -/
theorem fifo_of_run (hpos : 0 < size) (hsize : size < 2 ^ 32) {es : List ReaderEvent}
    {x : CacheReader size} (h : RaceFreeRuns es x) : x.Fifo := by
  have hsound : x.Sound := h.invariant
    (fun _ _ _ hx hstep => sound_step hsize hx hstep.1.1 hstep.1.2 hstep.2) (sound_start hpos)
  exact hsound.fifo

instance (x : CacheReader size) (e : ReaderEvent) : Decidable (Small x e) := by
  unfold Small
  cases e <;> infer_instance

instance (c : CacheBuffer size) (len i : ℕ) : Decidable (c.Touches len i) := by
  unfold CacheBuffer.Touches
  infer_instance

instance (x : CacheReader size) (e : ReaderEvent) : Decidable (NoRace x e) := by
  unfold NoRace
  cases e with
  | write buf => cases x.pc <;> infer_instance
  | _ => infer_instance

/-- One byte is written and two are asked for. A second byte comes after `n` steps of the
    reader, who makes `m` steps more. -/
def secondByteAfter (n m : ℕ) : List ReaderEvent :=
  [.write [1], .call 2] ++ List.replicate n (.reader false) ++ [.write [2]] ++
    List.replicate m (.reader false)

/-- The second byte is lost if it comes between the two loads of `write_pos_`. -/
theorem secondByte_lost : ∃ x : CacheReader 8,
    Run (Guarded Small (ofExcept step)) {} (secondByteAfter 5 8) x ∧ ¬ x.Fifo := by
  obtain ⟨x, hrun, hx⟩ := Run.of_check Small step ({} : CacheReader 8) (secondByteAfter 5 8)
    (fun x => (x.pc, x.delivered, x.cache.contents, x.written)) (x := (.idle, [1], [], [1, 2]))
    (by decide +kernel)
  obtain ⟨hpc, hdelivered, hcontents, hwritten⟩ := by simpa only [Prod.mk.injEq] using hx
  refine ⟨x, hrun, fun hfifo => ?_⟩
  have hidle := hfifo.idle hpc
  rw [hdelivered, hcontents, hwritten] at hidle
  revert hidle
  decide

/-- It is delivered if it comes one step earlier. -/
theorem secondByte_delivered : ∃ x : CacheReader 8,
    RaceFreeRuns (secondByteAfter 4 6) x ∧ x.Fifo ∧ x.pc = .idle ∧ x.delivered = [1, 2] := by
  obtain ⟨x, hrun, hx⟩ := Run.of_check (fun x e => Small x e ∧ NoRace x e) step
    ({} : CacheReader 8) (secondByteAfter 4 6) (fun x => (x.pc, x.delivered))
    (x := (.idle, [1, 2])) (by decide +kernel)
  obtain ⟨hpc, hdelivered⟩ := Prod.mk.inj hx
  exact ⟨x, hrun, fifo_of_run (by decide) (by decide) hrun, hpc, hdelivered⟩

end CacheReader

end RmMicroControllers
