import Mathlib.Logic.Relation
import RmMicroControllers.Tool.CacheCalls

/-!
# Reads that come to an end

The loop of `read` ends when the request is filled or the callback gives up, and the callback
is asked only while the queue is empty. How many bytes a pass takes is computed from two lengths
that are cut to eight bits, so a pass may take none although both are positive; from then on
the loop changes nothing any more.

## Main definitions

- `CacheBuffer.Pass` — a pass of the loop that another one follows
- `CacheBuffer.next` — where it leads, in closed form

## Main results

- `CacheBuffer.read_returns_iff` — when a read returns, and when every pass gets it further
-/

namespace RmMicroControllers

open Memory Relation Transition

namespace CacheBuffer

variable {size : ℕ}

/-- A pass of the loop that finds bytes and does not fill the request. The states are the queue
    and the bytes delivered so far. -/
def Pass (len : ℕ) (σ τ : CacheBuffer size × List UInt8) : Prop :=
  σ.1.readWaitPos = false ∧ ∃ maxLen bytes,
    σ.1.readMaxLenChangePos (sub32 len σ.2.length % 256) = (maxLen, τ.1) ∧
      τ.1.copyOut σ.1.readPos maxLen = .ok bytes ∧ τ.2 = σ.2 ++ bytes ∧ τ.2.length ≠ len

/-- Some later pass asks the callback. -/
def AsksLater (len : ℕ) (σ : CacheBuffer size × List UInt8) : Prop :=
  ∃ τ, ReflTransGen (Pass len) σ τ ∧ τ.1.readWaitPos = true

/-- Every pass of a read increases `filled_len`, ends the call or leads to an evaluation of the
    callback. -/
def Progresses (len : ℕ) (σ : CacheBuffer size × List UInt8) : Prop :=
  ∀ τ υ, ReflTransGen (Pass len) σ τ → Pass len τ υ →
    τ.2.length < υ.2.length ∨ AsksLater len υ

/-- The length of the wrapped piece. -/
def wrapped (c : CacheBuffer size) : ℕ := if c.circle then c.writePos else 0

/-- Where a pass leads: it takes the rest of the request or the piece at the read position,
    whichever is shorter modulo 256. -/
def next (len : ℕ) (σ : CacheBuffer size × List UInt8) : CacheBuffer size × List UInt8 :=
  if (len - σ.2.length) % 256 < σ.1.run % 256 then
    (σ.1.skip ((len - σ.2.length) % 256),
      σ.2 ++ slice σ.1.buffer σ.1.readPos (σ.1.readPos + (len - σ.2.length) % 256))
  else (σ.1.skipRun, σ.2 ++ slice σ.1.buffer σ.1.readPos (σ.1.readPos + σ.1.run % 256))

/-! ### One pass -/

section OnePass

variable {len : ℕ} {σ τ : CacheBuffer size × List UInt8}

/-- A loop state: the positions lie as they should, and no more has been delivered than was
    asked for. -/
structure LoopState (len : ℕ) (σ : CacheBuffer size × List UInt8) : Prop where
  shape : σ.1.Shape
  filled : σ.2.length ≤ len

theorem skipRun_wrapped {c : CacheBuffer size} : c.skipRun.wrapped = 0 := by
  rw [skipRun, wrapped]
  cases c.circle <;> simp

theorem skipRun_run_eq {c : CacheBuffer size} : c.skipRun.run = c.wrapped := skipRun_run

theorem wrapped_of_run {c : CacheBuffer size} (hc : c.Shape) (h : c.run = 0) : c.wrapped = 0 := by
  rw [wrapped]
  rw [(waiting hc h).1]
  rfl

theorem next_of_lt (h : (len - σ.2.length) % 256 < σ.1.run % 256) :
    (next len σ).1 = σ.1.skip ((len - σ.2.length) % 256) ∧
      (next len σ).2.length = σ.2.length + (len - σ.2.length) % 256 := by
  rw [next]
  rw [if_pos h]
  refine ⟨rfl, ?_⟩
  rw [List.length_append, slice_length]
  omega

theorem next_of_ge (h : ¬ (len - σ.2.length) % 256 < σ.1.run % 256) :
    (next len σ).1 = σ.1.skipRun ∧
      (next len σ).2.length = σ.2.length + σ.1.run % 256 := by
  rw [next]
  rw [if_neg h]
  refine ⟨rfl, ?_⟩
  rw [List.length_append, slice_length]
  omega

theorem next_loopState (hσ : LoopState len σ) : LoopState len (next len σ) := by
  have hfilled := hσ.filled
  have hwant := Nat.mod_le (len - σ.2.length) 256
  have hrun := Nat.mod_le σ.1.run 256
  by_cases h : (len - σ.2.length) % 256 < σ.1.run % 256
  · obtain ⟨hcache, hlen⟩ := next_of_lt h
    refine ⟨?_, by omega⟩
    rw [hcache]
    exact skip_shape hσ.shape (by omega)
  · obtain ⟨hcache, hlen⟩ := next_of_ge h
    refine ⟨?_, by omega⟩
    rw [hcache]
    exact skipRun_shape hσ.shape

/-- What `read_max_len_change_pos` and the copy after it make of a loop state. -/
theorem take_eq (hsize : size < 2 ^ 32) (hlen : len < 2 ^ 32) (hσ : LoopState len σ) :
    ∃ maxLen bytes,
      σ.1.readMaxLenChangePos (sub32 len σ.2.length % 256) = (maxLen, (next len σ).1) ∧
      (next len σ).1.copyOut σ.1.readPos maxLen = .ok bytes ∧ (next len σ).2 = σ.2 ++ bytes := by
  have hbound := run_bound hσ.shape
  have hrun := Nat.mod_le σ.1.run 256
  have hskipRun : σ.1.skipRun.buffer = σ.1.buffer := by
    rw [skipRun]
    split <;> rfl
  rw [sub32_of_le hσ.filled hlen, readMaxLenChangePos_eq hsize hσ.shape]
  rw [next]
  split
  · refine ⟨_, _, rfl, ?_, rfl⟩
    rw [copyOut]
    rw [if_pos (by omega)]
    rfl
  · refine ⟨_, _, rfl, ?_, rfl⟩
    rw [copyOut]
    rw [if_pos (by omega), hskipRun]

theorem pass_iff (hsize : size < 2 ^ 32) (hlen : len < 2 ^ 32) (hσ : LoopState len σ) :
    Pass len σ τ ↔ σ.1.run ≠ 0 ∧ τ = next len σ ∧ (next len σ).2.length ≠ len := by
  obtain ⟨maxLen, bytes, htake, hcopy, hdest⟩ := take_eq hsize hlen hσ
  rw [Pass]
  rw [readWaitPos_eq hσ.shape, decide_eq_false_iff_not]
  constructor
  · rintro ⟨hrun, maxLen', bytes', htake', hcopy', hdest', hmore⟩
    obtain ⟨rfl, hcache⟩ := Prod.mk.inj (htake.symm.trans htake')
    rw [← hcache] at hcopy'
    obtain rfl := Except.ok.inj (hcopy.symm.trans hcopy')
    obtain rfl : τ = next len σ := Prod.ext hcache.symm (hdest'.trans hdest.symm)
    exact ⟨hrun, rfl, hmore⟩
  · rintro ⟨hrun, rfl, hmore⟩
    exact ⟨hrun, maxLen, bytes, htake, hcopy, hdest, hmore⟩

end OnePass

/-! ### When the loop ends -/

section Returns

variable {len : ℕ} {σ : CacheBuffer size × List UInt8} {timeCheck : ℕ → Bool}

/-- The loop ends from a state on. -/
def Returns (timeCheck : ℕ → Bool) (len : ℕ) (σ : CacheBuffer size × List UInt8) : Prop :=
  ∃ fuel r, readLoop timeCheck len fuel 0 σ.1 σ.2 = .ok r

/-- An empty queue makes the inner loop ask until the callback gives up. -/
theorem waitData_stops {c : CacheBuffer size} (hwait : c.readWaitPos = true) {n calls : ℕ}
    (hstop : timeCheck (calls + n) = false) :
    ∃ fuel calls', c.waitData timeCheck fuel calls = .ok (false, calls') := by
  induction n generalizing calls with
  | zero =>
    refine ⟨1, calls + 1, ?_⟩
    rw [waitData, if_pos hwait, if_neg (by simpa using hstop)]
  | succ n ih =>
    cases hnow : timeCheck calls with
    | false => exact ⟨1, calls + 1, by rw [waitData, if_pos hwait, if_neg (by simp [hnow])]⟩
    | true =>
      have hlater : timeCheck (calls + 1 + n) = false := by
        rwa [Nat.add_right_comm, Nat.add_assoc]
      obtain ⟨fuel, calls', h⟩ := ih hlater
      exact ⟨fuel + 1, calls', by rw [waitData, if_pos hwait, if_pos hnow, h]⟩

theorem returns_of_run_zero (hstop : ∃ k, timeCheck k = false) (hσ : LoopState len σ)
    (hrun : σ.1.run = 0) : Returns timeCheck len σ := by
  obtain ⟨k, hk⟩ := hstop
  have hwait : σ.1.readWaitPos = true := by rw [readWaitPos_eq hσ.shape, decide_eq_true hrun]
  have hk' : timeCheck (0 + k) = false := by rwa [Nat.zero_add]
  obtain ⟨fuel, calls', h⟩ := waitData_stops hwait hk'
  refine ⟨fuel + 1, (σ.2, σ.1), ?_⟩
  rw [readLoop, h]
  rfl

/-- One pass of the loop, as far as its end is concerned. -/
theorem returns_iff (hsize : size < 2 ^ 32) (hlen : len < 2 ^ 32)
    (hstop : ∃ k, timeCheck k = false) (hσ : LoopState len σ) :
    Returns timeCheck len σ ↔
      σ.1.run = 0 ∨ (next len σ).2.length = len ∨ Returns timeCheck len (next len σ) := by
  obtain ⟨maxLen, bytes, htake, hcopy, hdest⟩ := take_eq hsize hlen hσ
  by_cases hrun : σ.1.run = 0
  · exact iff_of_true (returns_of_run_zero hstop hσ hrun) (.inl hrun)
  rw [or_iff_right hrun]
  by_cases hfilled : (next len σ).2.length = len
  · refine iff_of_true ⟨2, (σ.2 ++ bytes, (next len σ).1), ?_⟩ (.inl hfilled)
    -- one pass fills the request
    have hready : σ.1.waitData timeCheck 1 0 = .ok (true, 0) := by
      rw [waitData, readWaitPos_eq hσ.shape, decide_eq_false hrun]
      rfl
    rw [hdest] at hfilled
    rw [readLoop, hready, Fallible.ok_bind]
    dsimp only
    rw [if_pos rfl, htake]
    dsimp only
    rw [hcopy, Fallible.ok_bind, if_neg (not_not.mpr hfilled)]
    rfl
  · rw [or_iff_right hfilled]
    rw [hdest] at hfilled
    -- a pass that does not uses up one unit of fuel
    have hstep : ∀ fuel, readLoop timeCheck len (fuel + 2) 0 σ.1 σ.2 =
        readLoop timeCheck len (fuel + 1) 0 (next len σ).1 (next len σ).2 := by
      intro fuel
      rw [hdest]
      exact readLoop_take hσ.shape hrun htake hcopy hfilled
    constructor
    · rintro ⟨fuel, r, h⟩
      have h' := readLoop_mono h (Nat.le_add_right fuel 2)
      rw [hstep] at h'
      exact ⟨fuel + 1, r, h'⟩
    · rintro ⟨fuel, r, h⟩
      have h' := readLoop_mono h (Nat.le_succ fuel)
      rw [← hstep] at h'
      exact ⟨fuel + 2, r, h'⟩

/-- Once the missing length is a multiple of 256 and the piece is not, a pass changes
    nothing. -/
def Stuck (len : ℕ) (σ : CacheBuffer size × List UInt8) : Prop :=
  σ.2.length < len ∧ (len - σ.2.length) % 256 = 0 ∧ σ.1.run % 256 ≠ 0

theorem next_stuck (h : Stuck len σ) : next len σ = σ := by
  obtain ⟨-, hmul, hrun⟩ := h
  rw [next]
  rw [hmul, if_pos (Nat.pos_of_ne_zero hrun), Nat.add_zero, slice_self, List.append_nil]
  rfl

/-- A pass that takes the rest of the request modulo 256 fills it or is stuck. -/
theorem stuck_of_lt (hσ : LoopState len σ) (hlt : (len - σ.2.length) % 256 < σ.1.run % 256)
    (hlong : ¬ len - σ.2.length < 256) : Stuck len (next len σ) := by
  obtain ⟨hcache, hfilled⟩ := next_of_lt hlt
  have := hσ.filled
  refine ⟨by omega, by omega, ?_⟩
  rw [hcache, skip_run]
  omega

theorem not_returns_of_stuck (hsize : size < 2 ^ 32) (hlen : len < 2 ^ 32) (hσ : LoopState len σ)
    (h : Stuck len σ) : ¬ Returns timeCheck len σ :=
  fun ⟨_, _, hr⟩ => readLoop_stuck hsize hlen hσ.shape h.1 h.2.1 h.2.2 hr

/-- After such a pass the loop ends exactly if less than 256 bytes were missing. -/
theorem returns_of_lt (hsize : size < 2 ^ 32) (hlen : len < 2 ^ 32) (hσ : LoopState len σ)
    (hlt : (len - σ.2.length) % 256 < σ.1.run % 256) :
    (next len σ).2.length = len ∨ Returns timeCheck len (next len σ) ↔
      len - σ.2.length < 256 := by
  have hfilled := hσ.filled
  obtain ⟨-, hnext⟩ := next_of_lt hlt
  by_cases hshort : len - σ.2.length < 256
  · exact iff_of_true (.inl (by omega)) hshort
  · have hstuck := stuck_of_lt hσ hlt hshort
    refine iff_of_false (not_or.mpr ⟨by omega, ?_⟩) hshort
    exact not_returns_of_stuck hsize hlen (next_loopState hσ) hstuck

/-- Without a wrapped piece, only a piece longer than the request can keep the loop going. -/
theorem returns_straight (hsize : size < 2 ^ 32) (hlen : len < 2 ^ 32)
    (hstop : ∃ k, timeCheck k = false) (hσ : LoopState len σ) (hwrapped : σ.1.wrapped = 0) :
    Returns timeCheck len σ ↔
      len - σ.2.length < 256 ∨ σ.1.run % 256 ≤ (len - σ.2.length) % 256 := by
  have hfilled := hσ.filled
  rw [returns_iff hsize hlen hstop hσ]
  by_cases hrun : σ.1.run = 0
  · exact iff_of_true (.inl hrun) (.inr (by rw [hrun]; exact Nat.zero_le _))
  rw [or_iff_right hrun]
  by_cases hlt : (len - σ.2.length) % 256 < σ.1.run % 256
  · rw [returns_of_lt hsize hlen hσ hlt]
    omega
  · obtain ⟨hcache, -⟩ := next_of_ge hlt
    have hzero : (next len σ).1.run = 0 := by rw [hcache, skipRun_run_eq, hwrapped]
    exact iff_of_true (.inr (returns_of_run_zero hstop (next_loopState hσ) hzero))
      (.inr (by omega))

/-- The loop ends exactly if less than 256 bytes are missing or both pieces, modulo 256, fit
    into what is missing modulo 256. -/
theorem returns_iff_lengths (hsize : size < 2 ^ 32) (hlen : len < 2 ^ 32)
    (hstop : ∃ k, timeCheck k = false) (hσ : LoopState len σ) :
    Returns timeCheck len σ ↔ len - σ.2.length < 256 ∨
      σ.1.run % 256 + σ.1.wrapped % 256 ≤ (len - σ.2.length) % 256 := by
  have hfilled := hσ.filled
  by_cases hrun : σ.1.run = 0
  · have hwrapped := wrapped_of_run hσ.shape hrun
    rw [returns_straight hsize hlen hstop hσ hwrapped, hwrapped]
    rfl
  rw [returns_iff hsize hlen hstop hσ, or_iff_right hrun]
  by_cases hlt : (len - σ.2.length) % 256 < σ.1.run % 256
  · rw [returns_of_lt hsize hlen hσ hlt]
    omega
  · obtain ⟨hcache, hnext⟩ := next_of_ge hlt
    have hrest : (next len σ).1.wrapped = 0 := by rw [hcache, skipRun_wrapped]
    have hrun' : (next len σ).1.run = σ.1.wrapped := by rw [hcache, skipRun_run_eq]
    have hmod := Nat.mod_le (len - σ.2.length) 256
    rw [returns_straight hsize hlen hstop (next_loopState hσ) hrest, hrun', hnext]
    omega

end Returns

/-! ### When every pass makes progress -/

section Progress

variable {len : ℕ} {σ τ : CacheBuffer size × List UInt8}

theorem asksLater_iff (hsize : size < 2 ^ 32) (hlen : len < 2 ^ 32) (hσ : LoopState len σ) :
    AsksLater len σ ↔
      σ.1.run = 0 ∨ (next len σ).2.length ≠ len ∧ AsksLater len (next len σ) := by
  have hwait : σ.1.readWaitPos = true ↔ σ.1.run = 0 := by
    rw [readWaitPos_eq hσ.shape, decide_eq_true_iff]
  constructor
  · rintro ⟨τ, hreach, hτ⟩
    rcases hreach.cases_head with rfl | ⟨υ, hpass, hreach⟩
    · exact .inl (hwait.mp hτ)
    · obtain ⟨-, rfl, hmore⟩ := (pass_iff hsize hlen hσ).mp hpass
      exact .inr ⟨hmore, τ, hreach, hτ⟩
  · intro h
    by_cases hrun : σ.1.run = 0
    · exact ⟨σ, .refl, hwait.mpr hrun⟩
    · obtain ⟨hmore, τ, hreach, hτ⟩ := h.resolve_left hrun
      exact ⟨τ, hreach.head ((pass_iff hsize hlen hσ).mpr ⟨hrun, rfl, hmore⟩), hτ⟩

theorem progresses_iff (hsize : size < 2 ^ 32) (hlen : len < 2 ^ 32) (hσ : LoopState len σ) :
    Progresses len σ ↔ σ.1.run = 0 ∨ (next len σ).2.length = len ∨
      ((σ.2.length < (next len σ).2.length ∨ AsksLater len (next len σ)) ∧
        Progresses len (next len σ)) := by
  constructor
  · intro h
    by_cases hrun : σ.1.run = 0
    · exact .inl hrun
    by_cases hfilled : (next len σ).2.length = len
    · exact .inr (.inl hfilled)
    have hpass := (pass_iff hsize hlen hσ).mpr ⟨hrun, rfl, hfilled⟩
    exact .inr (.inr ⟨h σ _ .refl hpass, fun τ υ hreach => h τ υ (hreach.head hpass)⟩)
  · intro h τ υ hreach hpass
    rcases hreach.cases_head with rfl | ⟨ρ, hfirst, hreach⟩
    · obtain ⟨hrun, rfl, hmore⟩ := (pass_iff hsize hlen hσ).mp hpass
      exact ((h.resolve_left hrun).resolve_left hmore).1
    · obtain ⟨hrun, rfl, hmore⟩ := (pass_iff hsize hlen hσ).mp hfirst
      exact ((h.resolve_left hrun).resolve_left hmore).2 τ υ hreach hpass

theorem reaches_of_stuck (hsize : size < 2 ^ 32) (hlen : len < 2 ^ 32) (hσ : LoopState len σ)
    (h : Stuck len σ) (hreach : ReflTransGen (Pass len) σ τ) : τ = σ := by
  induction hreach with
  | refl => rfl
  | tail _ hpass ih =>
    rw [ih] at hpass
    exact ((pass_iff hsize hlen hσ).mp hpass).2.1.trans (next_stuck h)

theorem not_asksLater_of_stuck (hsize : size < 2 ^ 32) (hlen : len < 2 ^ 32)
    (hσ : LoopState len σ) (h : Stuck len σ) : ¬ AsksLater len σ := by
  rintro ⟨τ, hreach, hwait⟩
  rw [reaches_of_stuck hsize hlen hσ h hreach, readWaitPos_eq hσ.shape, decide_eq_true_iff] at hwait
  exact h.2.2 (by rw [hwait])

theorem not_progresses_of_stuck (hsize : size < 2 ^ 32) (hlen : len < 2 ^ 32)
    (hσ : LoopState len σ) (h : Stuck len σ) : ¬ Progresses len σ := by
  have hrun : σ.1.run ≠ 0 := fun hzero => h.2.2 (by rw [hzero])
  rw [progresses_iff hsize hlen hσ, next_stuck h]
  rintro (hzero | hfilled | ⟨hlt | hasks, -⟩)
  · exact hrun hzero
  · exact h.1.ne hfilled
  · exact lt_irrefl _ hlt
  · exact not_asksLater_of_stuck hsize hlen hσ h hasks

/-- After a pass that takes the rest of the request modulo 256, all passes make progress exactly
    if less than 256 bytes were missing. -/
theorem progresses_of_lt (hsize : size < 2 ^ 32) (hlen : len < 2 ^ 32) (hσ : LoopState len σ)
    (hlt : (len - σ.2.length) % 256 < σ.1.run % 256) :
    Progresses len σ ↔ len - σ.2.length < 256 := by
  have hfilled := hσ.filled
  obtain ⟨-, hnext⟩ := next_of_lt hlt
  have hrun : σ.1.run ≠ 0 := by
    intro hzero
    rw [hzero] at hlt
    exact absurd hlt (Nat.not_lt_zero _)
  rw [progresses_iff hsize hlen hσ, or_iff_right hrun]
  by_cases hshort : len - σ.2.length < 256
  · exact iff_of_true (.inl (by omega)) hshort
  · have hstuck := stuck_of_lt hσ hlt hshort
    refine iff_of_false (not_or.mpr ⟨by omega, fun h => ?_⟩) hshort
    exact not_progresses_of_stuck hsize hlen (next_loopState hσ) hstuck h.2

/-- A loop without a wrapped piece asks the callback after a pass unless that pass fills the
    request or gets stuck. -/
theorem asksLater_straight (hsize : size < 2 ^ 32) (hlen : len < 2 ^ 32) (hσ : LoopState len σ)
    (hwrapped : σ.1.wrapped = 0) : AsksLater len σ ↔ σ.1.run = 0 ∨
      σ.1.run % 256 ≤ (len - σ.2.length) % 256 ∧ len - σ.2.length ≠ σ.1.run % 256 := by
  have hfilled := hσ.filled
  rw [asksLater_iff hsize hlen hσ]
  apply or_congr_right'
  intro hrun
  by_cases hlt : (len - σ.2.length) % 256 < σ.1.run % 256
  · obtain ⟨-, hnext⟩ := next_of_lt hlt
    refine iff_of_false (fun h => ?_) (by omega)
    exact not_asksLater_of_stuck hsize hlen (next_loopState hσ) (stuck_of_lt hσ hlt (by omega)) h.2
  · obtain ⟨hcache, hnext⟩ := next_of_ge hlt
    have hasks : AsksLater len (next len σ) := by
      rw [asksLater_iff hsize hlen (next_loopState hσ), hcache, skipRun_run_eq, hwrapped]
      exact .inl rfl
    have hmod := Nat.mod_le (len - σ.2.length) 256
    rw [and_iff_left hasks, hnext]
    omega

theorem progresses_straight (hsize : size < 2 ^ 32) (hlen : len < 2 ^ 32) (hσ : LoopState len σ)
    (hwrapped : σ.1.wrapped = 0) : Progresses len σ ↔
      len - σ.2.length < 256 ∨ σ.1.run % 256 ≤ (len - σ.2.length) % 256 := by
  by_cases hlt : (len - σ.2.length) % 256 < σ.1.run % 256
  · rw [progresses_of_lt hsize hlen hσ hlt]
    omega
  · obtain ⟨hcache, -⟩ := next_of_ge hlt
    have hzero : (next len σ).1.run = 0 := by rw [hcache, skipRun_run_eq, hwrapped]
    refine iff_of_true ((progresses_iff hsize hlen hσ).mpr (.inr (.inr ⟨.inr ?_, ?_⟩))) (by omega)
    · exact (asksLater_iff hsize hlen (next_loopState hσ)).mpr (.inl hzero)
    · exact (progresses_iff hsize hlen (next_loopState hσ)).mpr (.inl hzero)

/-- Every pass makes progress exactly if the loop ends and it does not pass over a first piece
    of a multiple of 256 bytes to fill the request from the wrapped one. -/
theorem progresses_iff_lengths (hsize : size < 2 ^ 32) (hlen : len < 2 ^ 32)
    (hσ : LoopState len σ) :
    Progresses len σ ↔ (len - σ.2.length < 256 ∨
        σ.1.run % 256 + σ.1.wrapped % 256 ≤ (len - σ.2.length) % 256) ∧
      ¬ (σ.1.run % 256 = 0 ∧ 0 < len - σ.2.length ∧ len - σ.2.length ≤ σ.1.wrapped % 256) := by
  have hfilled := hσ.filled
  have hmod := Nat.mod_le (len - σ.2.length) 256
  by_cases hrun : σ.1.run = 0
  · have hwrapped := wrapped_of_run hσ.shape hrun
    rw [progresses_straight hsize hlen hσ hwrapped, hwrapped, hrun]
    omega
  by_cases hlt : (len - σ.2.length) % 256 < σ.1.run % 256
  · rw [progresses_of_lt hsize hlen hσ hlt]
    omega
  · obtain ⟨hcache, hnext⟩ := next_of_ge hlt
    have hrest : (next len σ).1.wrapped = 0 := by rw [hcache, skipRun_wrapped]
    have hrun' : (next len σ).1.run = σ.1.wrapped := by rw [hcache, skipRun_run_eq]
    rw [progresses_iff hsize hlen hσ, or_iff_right hrun,
      asksLater_straight hsize hlen (next_loopState hσ) hrest,
      progresses_straight hsize hlen (next_loopState hσ) hrest, hrun', hnext]
    omega

end Progress

/-- In every state that calls lead to, a read whose callback gives up some time returns exactly
    if less than 256 bytes are asked for, or both pieces of the queue, modulo 256, fit into the
    request modulo 256. Every pass on the way makes progress exactly if, besides, the read does
    not pass over a first piece of a multiple of 256 bytes to be filled from the wrapped one. -/
theorem read_returns_iff (hpos : 0 < size) (hsize : size < 2 ^ 32) {es : List CacheCall}
    {c : CacheBuffer size} (h : CallRuns es c) {len : ℕ} (hlen : len < 2 ^ 32)
    {timeCheck : ℕ → Bool} (hstop : ∃ k, timeCheck k = false) :
    ((∃ fuel r, c.read fuel len timeCheck = .ok r) ↔
      len < 256 ∨ c.run % 256 + c.wrapped % 256 ≤ len % 256) ∧
    (Progresses len (c, []) ↔ (len < 256 ∨ c.run % 256 + c.wrapped % 256 ≤ len % 256) ∧
      ¬ (c.run % 256 = 0 ∧ 0 < len ∧ len ≤ c.wrapped % 256)) := by
  have hσ : LoopState len (c, []) := ⟨shape_of_calls hpos hsize h, Nat.zero_le _⟩
  exact ⟨returns_iff_lengths hsize hlen hstop hσ, progresses_iff_lengths hsize hlen hσ⟩

/-- A request for 256 bytes does not return while one byte is queued. -/
theorem read_not_returns : ∃ c : CacheBuffer 4, CallRuns [.write [1]] c ∧
    ¬ ∃ fuel r, c.read fuel 256 (fun _ => false) = .ok r := by
  refine ⟨_, Run.single (.write rfl), ?_⟩
  rintro ⟨fuel, ⟨out, d⟩, h⟩
  refine readLoop_stuck (by decide) (by decide) ⟨fun hyes => ?_, fun _ => ⟨?_, ?_⟩⟩ ?_ ?_ ?_ h
  · cases hyes
  · decide
  · decide
  · decide
  · decide
  · decide

/-- A request for two bytes does. -/
theorem read_returns_short : ∃ c : CacheBuffer 4, CallRuns [.write [1]] c ∧
    ∃ fuel r, c.read fuel 2 (fun _ => false) = .ok r := by
  have hrun : ∃ c : CacheBuffer 4, CallRuns [.write [1]] c := ⟨_, Run.single (.write rfl)⟩
  obtain ⟨c, hrun⟩ := hrun
  exact ⟨c, hrun, (read_returns_iff (by decide) (by decide) hrun (by decide) ⟨0, rfl⟩).1.mpr
    (.inl (by decide))⟩

end CacheBuffer

end RmMicroControllers
