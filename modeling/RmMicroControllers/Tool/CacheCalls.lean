import RmMicroControllers.Tool.CacheFifo

/-!
# Writes that are refused

A write that does not fit answers false. If the writer has not wrapped yet, it wraps first and
fills the buffer up to its end, and only then looks for room, so part of a refused packet gets
into the queue. Complete calls with any answer lead to states of the same shape as before, in
which a single comparison of lengths says which writes are accepted.

## Main results

- `CacheBuffer.write_admits` — which writes are accepted, and what they append
- `CacheBuffer.refusal_atomic_iff` — which writes leave the queue alone when they are refused
-/

namespace RmMicroControllers

open Memory Transition

namespace CacheBuffer

variable {size : ℕ}

/-- A write that returned, with whatever answer, or a read that returned. -/
inductive CallStep : CacheBuffer size → CacheCall → CacheBuffer size → Prop where
  | write {c d : CacheBuffer size} {buf : List UInt8} {done : Bool} :
      c.write buf = .ok (done, d) → CallStep c (.write buf) d
  | read {c d : CacheBuffer size} {len fuel : ℕ} {timeCheck : ℕ → Bool} {dest : List UInt8} :
      len < 2 ^ 32 → c.read fuel len timeCheck = .ok (dest, d) →
      CallStep c (.read len timeCheck) d

/-- The states that calls on a fresh buffer lead to. -/
abbrev CallRuns (es : List CacheCall) (c : CacheBuffer size) : Prop := Run CallStep {} es c

/-- The number of queued bytes, from the positions. -/
def used (c : CacheBuffer size) : ℕ :=
  if c.circle then size - c.readPos + c.writePos else c.writePos - c.readPos

/-- The positions of the queued bytes. -/
def Queued (c : CacheBuffer size) (i : ℕ) : Prop :=
  if c.circle then (c.readPos ≤ i ∧ i < size) ∨ i < c.writePos
  else c.readPos ≤ i ∧ i < c.writePos

theorem shape_callStep (hsize : size < 2 ^ 32) {c d : CacheBuffer size} {e : CacheCall}
    (hc : c.Shape) (h : CallStep c e d) : d.Shape := by
  cases h with
  | @write _ buf done h =>
    cases done with
    | true => exact (write_spec hsize hc h).shape
    | false => exact (write_refused hsize hc h).1
  | read hlen h => exact (readLoop_le hsize hlen hc (Nat.zero_le _) h).1

theorem shape_of_calls (hpos : 0 < size) (hsize : size < 2 ^ 32) {es : List CacheCall}
    {c : CacheBuffer size} (h : CallRuns es c) : c.Shape :=
  h.invariant (fun _ _ _ hs hstep => shape_callStep hsize hs hstep) (shape_fresh hpos)

/-- A write that fits touches no queued byte. -/
theorem not_touches_of_queued {c : CacheBuffer size} (hc : c.Shape) {len i : ℕ}
    (hroom : c.used + len < size) (hi : c.Queued i) : ¬ c.Touches len i := by
  rw [used] at hroom
  rw [Queued] at hi
  rw [Touches]
  cases hcircle : c.circle with
  | true =>
    obtain ⟨hwr, hr⟩ := hc.circle hcircle
    simp only [hcircle, if_true] at hroom hi ⊢
    omega
  | false =>
    obtain ⟨hrw, hw⟩ := hc.straight hcircle
    simp only [hcircle, Bool.false_eq_true, if_false] at hroom hi ⊢
    split <;> omega

/-- In every state that calls lead to, a write is accepted exactly if one byte of the buffer is
    left over. It then appends its bytes and leaves the queued ones where they are. -/
theorem write_admits (hpos : 0 < size) (hsize : size < 2 ^ 32) {es : List CacheCall}
    {c : CacheBuffer size} (h : CallRuns es c) (buf : List UInt8) :
    ∃ d, c.write buf = .ok (decide (c.used + buf.length < size), d) ∧
      (c.used + buf.length < size → d.contents = c.contents ++ buf ∧
        ∀ i, c.Queued i → d.buffer i = c.buffer i) := by
  have hc := shape_of_calls hpos hsize h
  have hused : c.contents.length = c.used := contents_length c
  obtain ⟨d, hd, -⟩ := write_room hsize hc buf
  rw [hused] at hd
  refine ⟨d, hd, fun hroom => ?_⟩
  rw [decide_eq_true hroom] at hd
  have hwritten := write_spec hsize hc hd
  exact ⟨hwritten.contents, fun i hi => hwritten.untouched i (not_touches_of_queued hc hroom hi)⟩

/-- After two bytes have been written to a buffer of four, one more fits behind them and two do
    not. -/
theorem write_admits_full : ∃ c d d' : CacheBuffer 4, CallRuns [.write [1, 2]] c ∧
    c.write [3] = .ok (true, d) ∧ d.contents = c.contents ++ [3] ∧
    (∀ i, c.Queued i → d.buffer i = c.buffer i) ∧ c.write [3, 4] = .ok (false, d') := by
  have hrun : ∃ c : CacheBuffer 4, CallRuns [.write [1, 2]] c ∧ c.used = 2 :=
    ⟨_, Run.single (.write rfl), rfl⟩
  obtain ⟨c, hrun, hused⟩ := hrun
  obtain ⟨d, hd, happended⟩ := write_admits (by decide) (by decide) hrun [3]
  obtain ⟨d', hd', -⟩ := write_admits (by decide) (by decide) hrun [3, 4]
  rw [hused] at hd hd' happended
  obtain ⟨hcontents, hqueued⟩ := happended (by decide)
  exact ⟨c, d, d', hrun, hd, hcontents, hqueued, hd'⟩

/-- In every state that calls lead to, a refusal leaves the queue as it was exactly if the
    writer had wrapped before (or if the write is not refused at all). -/
theorem refusal_atomic_iff (hpos : 0 < size) (hsize : size < 2 ^ 32) {es : List CacheCall}
    {c : CacheBuffer size} (h : CallRuns es c) (buf : List UInt8) :
    (∀ d, c.write buf = .ok (false, d) → d.contents = c.contents) ↔
      c.circle = true ∨ c.used + buf.length < size := by
  have hc := shape_of_calls hpos hsize h
  have hused : c.contents.length = c.used := contents_length c
  obtain ⟨d, hd, -⟩ := write_room hsize hc buf
  rw [hused] at hd
  constructor
  · intro hatomic
    by_cases hroom : c.used + buf.length < size
    · exact .inr hroom
    · rw [decide_eq_false hroom] at hd
      refine .inl ?_
      by_contra hstraight
      have hcontents := (write_refused hsize hc hd).2
      rw [if_neg hstraight, hatomic d hd] at hcontents
      -- the queue has grown by what was left of the buffer
      have hlen := congrArg List.length hcontents
      rw [List.length_append, List.length_take] at hlen
      obtain ⟨hrw, hw⟩ := hc.straight (by simpa using hstraight)
      simp only [used, if_neg hstraight] at hroom
      omega
  · rintro (hcircle | hroom) d' hd'
    · rw [(write_refused hsize hc hd').2, if_pos hcircle]
    · rw [decide_eq_true hroom] at hd
      cases (hd.symm.trans hd')

/-- A packet of four bytes is refused by a buffer of four that holds one, and three bytes of it
    are queued. -/
theorem refusal_visible : ∃ c : CacheBuffer 4, CallRuns [.write [1]] c ∧
    ¬ ∀ d, c.write [2, 3, 4, 5] = .ok (false, d) → d.contents = c.contents := by
  refine ⟨_, Run.single (.write rfl), fun hatomic => ?_⟩
  have hcontents := hatomic _ rfl
  revert hcontents
  decide

/-- The next refusal is atomic. -/
theorem refusal_atomic_wrapped : ∃ c : CacheBuffer 4, CallRuns [.write [1], .write [2, 3, 4, 5]] c ∧
    ∀ d, c.write [6] = .ok (false, d) → d.contents = c.contents := by
  have hrun : ∃ c : CacheBuffer 4, CallRuns [.write [1], .write [2, 3, 4, 5]] c ∧ c.circle = true :=
    ⟨_, (Run.single (.write rfl)).snoc (.write rfl), rfl⟩
  obtain ⟨c, hrun, hcircle⟩ := hrun
  exact ⟨c, hrun, (refusal_atomic_iff (by decide) (by decide) hrun [6]).mpr (.inl hcircle)⟩

end CacheBuffer

end RmMicroControllers
