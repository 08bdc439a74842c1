import RmMicroControllers.Library.Run
import RmMicroControllers.Tool.CacheBuffer

/-!
# The queue as a FIFO

Complete calls of `write` and `read`, one after the other. The lengths that `read` works with
pass through `uint8_t`, so a piece of 256 bytes or more may be taken for a shorter one; the
rest of it is then skipped. `SafeRead` says for which fill levels and requests this does not
happen.

## Main results

- `read_safe`, `read_unsafe` — what a read that returns has done
- `fifo_iff` — the queue is a FIFO exactly in the runs whose reads are all safe
-/

namespace RmMicroControllers

open Memory Transition

namespace CacheBuffer

variable {size : ℕ}

/-- A piece of `len` bytes is skipped without being read in full when `want` bytes are asked
    for. -/
def LosesRun (len want : ℕ) : Prop := 256 ≤ len ∧ len % 256 ≤ want % 256

instance (len want : ℕ) : Decidable (LosesRun len want) := inferInstanceAs (Decidable (_ ∧ _))

/-- Neither the piece at the read position nor, if the read gets that far, the wrapped piece
    at the start of the buffer is skipped. -/
structure SafeRead (c : CacheBuffer size) (want : ℕ) : Prop where
  run : ¬ LosesRun c.run want
  wrapped : c.circle = true → c.run < 256 → c.run ≤ want % 256 → c.run ≠ want →
    ¬ LosesRun c.writePos (want - c.run)

/-! ### One partial copy -/

/-- The queue after `n` bytes have been passed over. -/
def skip (c : CacheBuffer size) (n : ℕ) : CacheBuffer size := { c with readPos := c.readPos + n }

/-- The queue after the piece at the read position has been passed over. -/
def skipRun (c : CacheBuffer size) : CacheBuffer size :=
  if c.circle then { c with readPos := 0, circle := false } else { c with readPos := c.writePos }

/-- The wrapped piece. -/
def tail (c : CacheBuffer size) : List UInt8 :=
  if c.circle then slice c.buffer 0 c.writePos else []

theorem run_bound {c : CacheBuffer size} (hc : c.Shape) : c.readPos + c.run ≤ size := by
  rw [run]
  cases hcircle : c.circle with
  | true => have := hc.circle hcircle; simp only [if_true]; omega
  | false => have := hc.straight hcircle; simp only [Bool.false_eq_true, if_false]; omega

theorem contents_eq {c : CacheBuffer size} (hc : c.Shape) :
    c.contents = slice c.buffer c.readPos (c.readPos + c.run) ++ c.tail := by
  rw [contents, run, tail]
  cases hcircle : c.circle with
  | true =>
    obtain ⟨-, hr⟩ := hc.circle hcircle
    simp only [if_true]
    rw [Nat.add_sub_cancel' hr.le]
  | false =>
    obtain ⟨hrw, -⟩ := hc.straight hcircle
    simp only [Bool.false_eq_true, if_false, List.append_nil]
    rw [Nat.add_sub_cancel' hrw]

/-- The reader waits exactly when nothing is queued. -/
theorem readWaitPos_eq {c : CacheBuffer size} (hc : c.Shape) :
    c.readWaitPos = decide (c.run = 0) := by
  rw [readWaitPos, run]
  cases hcircle : c.circle with
  | true =>
    obtain ⟨-, hr⟩ := hc.circle hcircle
    have hne : size - c.readPos ≠ 0 := by omega
    simp [hne]
  | false =>
    by_cases hlt : c.readPos < c.writePos
    · have hne : c.writePos - c.readPos ≠ 0 := by omega
      simp [hlt, hne]
    · have heq : c.writePos - c.readPos = 0 := by omega
      simp [hlt, heq]

theorem waiting {c : CacheBuffer size} (hc : c.Shape) (h : c.run = 0) :
    c.circle = false ∧ c.contents = [] := by
  have hcircle : c.circle = false := by
    cases hcircle : c.circle with
    | false => rfl
    | true =>
      obtain ⟨-, hr⟩ := hc.circle hcircle
      simp only [run, hcircle, if_true] at h
      omega
  refine ⟨hcircle, ?_⟩
  rw [contents_eq hc, h, tail, hcircle]
  simp

/-- `read_max_len_change_pos` takes the shorter of the two lengths, both seen modulo 256. -/
theorem readMaxLenChangePos_eq {c : CacheBuffer size} (hsize : size < 2 ^ 32) (hc : c.Shape)
    (expectedLen : ℕ) : c.readMaxLenChangePos expectedLen =
      if expectedLen < c.run % 256 then (expectedLen, c.skip expectedLen)
      else (c.run % 256, c.skipRun) := by
  have hbound := run_bound hc
  have hadd : expectedLen < c.run % 256 →
      add32 c.readPos expectedLen = c.readPos + expectedLen := by
    intro h
    exact add32_of_lt (by omega)
  rw [readMaxLenChangePos, skip, skipRun]
  rw [run] at hadd ⊢
  cases hcircle : c.circle with
  | true =>
    obtain ⟨-, hr⟩ := hc.circle hcircle
    simp only [hcircle, if_true] at hadd ⊢
    rw [sub32_of_le hr.le hsize]
    split
    · next h => rw [hadd h]
    · rfl
  | false =>
    obtain ⟨hrw, hw⟩ := hc.straight hcircle
    simp only [hcircle, Bool.false_eq_true, if_false] at hadd ⊢
    rw [sub32_of_le hrw (by omega)]
    split
    · next h => rw [hadd h]
    · rfl

theorem readMaxLenChangePos_error {c d : CacheBuffer size} {expectedLen maxLen : ℕ}
    (hsize : size < 2 ^ 32) (hc : c.Shape)
    (h : c.readMaxLenChangePos expectedLen = (maxLen, d)) : d.error = c.error := by
  rw [readMaxLenChangePos_eq hsize hc] at h
  split at h <;> obtain ⟨-, rfl⟩ := Prod.mk.inj h
  · rfl
  · rw [skipRun]
    split <;> rfl

theorem skip_shape {c : CacheBuffer size} (hc : c.Shape) {n : ℕ} (hn : n < c.run) :
    (c.skip n).Shape := by
  rw [run] at hn
  constructor <;> intro hcircle <;> change c.circle = _ at hcircle
  · have h := hc.circle hcircle
    simp only [hcircle, if_true] at hn
    simp only [skip]
    omega
  · have h := hc.straight hcircle
    simp only [hcircle, Bool.false_eq_true, if_false] at hn
    simp only [skip]
    omega

theorem skip_run {c : CacheBuffer size} (n : ℕ) : (c.skip n).run = c.run - n := by
  unfold run skip
  split <;> dsimp only <;> omega

/-- The bytes passed over come first in the queue. -/
theorem skip_contents {c : CacheBuffer size} (hc : c.Shape) {n : ℕ} (hn : n < c.run) :
    c.contents = slice c.buffer c.readPos (c.readPos + n) ++ (c.skip n).contents := by
  have hend : (c.skip n).readPos + (c.skip n).run = c.readPos + c.run := by
    rw [skip_run]
    change c.readPos + n + _ = _
    omega
  rw [contents_eq hc, contents_eq (skip_shape hc hn), hend, ← List.append_assoc]
  change _ = slice c.buffer _ _ ++ slice c.buffer (c.readPos + n) _ ++ c.tail
  rw [slice_append (by omega) (by omega)]

theorem skipRun_shape {c : CacheBuffer size} (hc : c.Shape) : c.skipRun.Shape := by
  rw [skipRun]
  cases hcircle : c.circle with
  | true =>
    have h := hc.circle hcircle
    simp only [if_true]
    exact ⟨fun hyes => absurd hyes Bool.false_ne_true, fun _ => ⟨Nat.zero_le _, h.1.trans_lt h.2⟩⟩
  | false =>
    have h := hc.straight hcircle
    simp only [Bool.false_eq_true, if_false]
    exact ⟨fun hyes => absurd hyes Bool.false_ne_true, fun _ => ⟨le_rfl, h.2⟩⟩

theorem skipRun_contents {c : CacheBuffer size} :
    c.skipRun.contents = c.tail := by
  rw [skipRun, contents, tail]
  cases c.circle <;> simp

theorem skipRun_run {c : CacheBuffer size} :
    c.skipRun.run = if c.circle then c.writePos else 0 := by
  rw [skipRun, run]
  cases c.circle <;> simp

/-! ### A read -/

/-- One partial copy takes bytes from the front of the queue. It takes all it passes over
    unless the piece is lost. -/
theorem copyOut_run {c : CacheBuffer size} (hsize : size < 2 ^ 32) (hc : c.Shape)
    {want maxLen : ℕ} {c' : CacheBuffer size} {bytes : List UInt8}
    (htake : c.readMaxLenChangePos (want % 256) = (maxLen, c'))
    (hcopy : c'.copyOut c.readPos maxLen = .ok bytes) :
    c'.Shape ∧ bytes.length = maxLen ∧ maxLen ≤ want ∧
      (¬ LosesRun c.run want → c.contents = bytes ++ c'.contents) ∧
      (LosesRun c.run want → maxLen + c'.contents.length < c.contents.length) := by
  have hbound := run_bound hc
  have hbuffer : c'.buffer = c.buffer := by
    rw [readMaxLenChangePos_eq hsize hc] at htake
    split at htake <;> obtain ⟨-, rfl⟩ := Prod.mk.inj htake
    · rfl
    · rw [skipRun]
      split <;> rfl
  have hbytes : bytes = slice c.buffer c.readPos (c.readPos + maxLen) := by
    rw [copyOut] at hcopy
    split at hcopy
    · rw [← Except.ok.inj hcopy, hbuffer]
    · cases hcopy
  have hlen : bytes.length = maxLen := by
    rw [hbytes, slice_length]
    omega
  have hwant : want % 256 ≤ want := Nat.mod_le _ _
  have hmod : c.run % 256 ≤ c.run := Nat.mod_le _ _
  rw [readMaxLenChangePos_eq hsize hc] at htake
  split at htake
  · next hlt =>
    -- less than the first piece is wanted
    obtain ⟨rfl, rfl⟩ := Prod.mk.inj htake
    have hn : want % 256 < c.run := by omega
    refine ⟨skip_shape hc hn, hlen, hwant, fun _ => ?_, fun hloses => ?_⟩
    · rw [hbytes]
      exact skip_contents hc hn
    · obtain ⟨-, hle⟩ := hloses
      omega
  · next hge =>
    -- the whole first piece is passed over, of which `c.run % 256` bytes are copied
    obtain ⟨rfl, rfl⟩ := Prod.mk.inj htake
    refine ⟨skipRun_shape hc, hlen, by omega, fun hsafe => ?_, fun hloses => ?_⟩
    · have hmodeq : c.run % 256 = c.run := by
        rw [LosesRun] at hsafe
        omega
      rw [hbytes, hmodeq, skipRun_contents]
      exact contents_eq hc
    · obtain ⟨hle, -⟩ := hloses
      rw [skipRun_contents, contents_eq hc, List.length_append, slice_length]
      omega

/-- The inner loop changes nothing and reports whether the queue is empty. -/
theorem waitData_eq_ok {c : CacheBuffer size} {timeCheck : ℕ → Bool} {fuel calls calls' : ℕ}
    {ready : Bool} (h : c.waitData timeCheck fuel calls = .ok (ready, calls')) :
    ready = !c.readWaitPos := by
  induction fuel generalizing calls with
  | zero => cases h
  | succ fuel ih =>
    rw [waitData] at h
    split at h
    · next hwait =>
      split at h
      · exact ih h
      · obtain ⟨rfl, -⟩ := Prod.mk.inj (Except.ok.inj h)
        simp [hwait]
    · next hwait =>
      obtain ⟨rfl, -⟩ := Prod.mk.inj (Except.ok.inj h)
      simpa using hwait

/-- What one pass of the outer loop does. -/
theorem readLoop_eq_ok {c c' : CacheBuffer size} {timeCheck : ℕ → Bool}
    {len fuel calls : ℕ} {dest out : List UInt8} (hc : c.Shape)
    (h : readLoop timeCheck len (fuel + 1) calls c dest = .ok (out, c')) :
    (c.run = 0 ∧ out = dest ∧ c' = c) ∨
      (c.run ≠ 0 ∧ ∃ maxLen d bytes calls',
        c.readMaxLenChangePos (sub32 len dest.length % 256) = (maxLen, d) ∧
        d.copyOut c.readPos maxLen = .ok bytes ∧
        ((dest ++ bytes).length ≠ len ∧
            readLoop timeCheck len fuel calls' d (dest ++ bytes) = .ok (out, c') ∨
          (dest ++ bytes).length = len ∧ out = dest ++ bytes ∧ c' = d)) := by
  rw [readLoop] at h
  obtain ⟨⟨ready, calls'⟩, hready, h⟩ := Fallible.bind_eq_ok.mp h
  have hwait := waitData_eq_ok hready
  rw [readWaitPos_eq hc] at hwait
  dsimp only at h
  split at h
  · next hyes =>
    have hrun : c.run ≠ 0 := by simpa [hyes] using hwait
    refine .inr ⟨hrun, ?_⟩
    obtain ⟨bytes, hbytes, h⟩ := Fallible.bind_eq_ok.mp h
    refine ⟨_, _, bytes, calls', rfl, hbytes, ?_⟩
    split at h
    · next hne => exact .inl ⟨hne, h⟩
    · next heq =>
      obtain ⟨rfl, rfl⟩ := Prod.mk.inj (Fallible.pure_eq_ok.mp h)
      exact .inr ⟨not_not.mp heq, rfl, rfl⟩
  · next hno =>
    have hrun : c.run = 0 := by simpa [hno] using hwait
    obtain ⟨rfl, rfl⟩ := Prod.mk.inj (Fallible.pure_eq_ok.mp h)
    exact .inl ⟨hrun, rfl, rfl⟩

/-! ### More fuel gives the same result -/

theorem waitData_mono {c : CacheBuffer size} {timeCheck : ℕ → Bool} {fuel fuel' calls : ℕ}
    {r : Bool × ℕ} (h : c.waitData timeCheck fuel calls = .ok r) (hle : fuel ≤ fuel') :
    c.waitData timeCheck fuel' calls = .ok r := by
  induction fuel generalizing fuel' calls with
  | zero => cases h
  | succ fuel ih =>
    obtain ⟨fuel', rfl⟩ :=
      Nat.exists_eq_add_of_le' (Nat.le_trans (Nat.succ_le_succ fuel.zero_le) hle)
    rw [waitData] at h ⊢
    split at h
    · split at h
      · next hwait hmore =>
        rw [if_pos hwait, if_pos hmore]
        exact ih h (by omega)
      · next hwait hstop => rwa [if_pos hwait, if_neg hstop]
    · next hwait => rwa [if_neg hwait]

theorem readLoop_mono {c : CacheBuffer size} {timeCheck : ℕ → Bool} {len fuel fuel' calls : ℕ}
    {dest : List UInt8} {r : List UInt8 × CacheBuffer size}
    (h : readLoop timeCheck len fuel calls c dest = .ok r) (hle : fuel ≤ fuel') :
    readLoop timeCheck len fuel' calls c dest = .ok r := by
  induction fuel generalizing fuel' calls c dest with
  | zero => cases h
  | succ fuel ih =>
    obtain ⟨fuel', rfl⟩ :=
      Nat.exists_eq_add_of_le' (Nat.le_trans (Nat.succ_le_succ fuel.zero_le) hle)
    rw [readLoop] at h ⊢
    obtain ⟨⟨ready, calls'⟩, hwait, h⟩ := Fallible.bind_eq_ok.mp h
    refine Fallible.bind_eq_ok.mpr ⟨_, waitData_mono hwait (by omega), ?_⟩
    dsimp only at h ⊢
    split at h
    · next hready =>
      rw [if_pos hready]
      obtain ⟨bytes, hbytes, h⟩ := Fallible.bind_eq_ok.mp h
      refine Fallible.bind_eq_ok.mpr ⟨bytes, hbytes, ?_⟩
      split at h
      · next hne =>
        rw [if_pos hne]
        exact ih h (by omega)
      · next heq => rwa [if_neg heq]
    · next hready => rwa [if_neg hready]

/-- A read has one result at most. -/
theorem read_unique {c : CacheBuffer size} {len fuel fuel' : ℕ} {timeCheck : ℕ → Bool}
    {r r' : List UInt8 × CacheBuffer size} (h : c.read fuel len timeCheck = .ok r)
    (h' : c.read fuel' len timeCheck = .ok r') : r = r' := by
  have h₁ := readLoop_mono h (Nat.le_max_left fuel fuel')
  have h₂ := readLoop_mono h' (Nat.le_max_right fuel fuel')
  exact Except.ok.inj (h₁.symm.trans h₂)

/-- A pass that finds bytes and does not fill the request goes on. -/
theorem readLoop_take {c d : CacheBuffer size} {timeCheck : ℕ → Bool} {len fuel calls maxLen : ℕ}
    {dest bytes : List UInt8} (hc : c.Shape) (hrun : c.run ≠ 0)
    (htake : c.readMaxLenChangePos (sub32 len dest.length % 256) = (maxLen, d))
    (hcopy : d.copyOut c.readPos maxLen = .ok bytes) (hmore : (dest ++ bytes).length ≠ len) :
    readLoop timeCheck len (fuel + 2) calls c dest =
      readLoop timeCheck len (fuel + 1) calls d (dest ++ bytes) := by
  have hready : c.waitData timeCheck (fuel + 1) calls = .ok (true, calls) := by
    rw [waitData]
    rw [readWaitPos_eq hc, decide_eq_false hrun]
    rfl
  rw [readLoop, hready, Fallible.ok_bind]
  dsimp only
  rw [if_pos rfl, htake]
  dsimp only
  rw [hcopy, Fallible.ok_bind, if_pos hmore]

/-- An empty queue ends the read when the callback gives up. -/
theorem readLoop_stop {c : CacheBuffer size} {timeCheck : ℕ → Bool} {len fuel calls : ℕ}
    {dest : List UInt8} (hc : c.Shape) (hrun : c.run = 0) (hstop : timeCheck calls = false) :
    readLoop timeCheck len (fuel + 2) calls c dest = .ok (dest, c) := by
  have hready : c.waitData timeCheck (fuel + 1) calls = .ok (false, calls + 1) := by
    rw [waitData]
    rw [readWaitPos_eq hc, decide_eq_true hrun, hstop]
    rfl
  rw [readLoop, hready]
  rfl

section Loop

variable {c c' : CacheBuffer size} {timeCheck : ℕ → Bool} {len fuel calls : ℕ}
  {dest out : List UInt8}

/-- The loop never makes bytes up: what it delivers and leaves is at most what was there. -/
theorem readLoop_le (hsize : size < 2 ^ 32) (hlen : len < 2 ^ 32) (hc : c.Shape)
    (hdest : dest.length ≤ len) (h : readLoop timeCheck len fuel calls c dest = .ok (out, c')) :
    c'.Shape ∧ out.length ≤ len ∧
      out.length + c'.contents.length ≤ dest.length + c.contents.length := by
  induction fuel generalizing calls c dest with
  | zero => cases h
  | succ fuel ih =>
    rcases readLoop_eq_ok hc h with ⟨-, rfl, rfl⟩ | ⟨-, maxLen, d, bytes, calls', htake, hcopy, h⟩
    · exact ⟨hc, hdest, le_rfl⟩
    · rw [sub32_of_le hdest hlen] at htake
      obtain ⟨hd, hbytes, hwant, hkeep, hlose⟩ := copyOut_run hsize hc htake hcopy
      have hle : maxLen + d.contents.length ≤ c.contents.length := by
        by_cases hloses : LosesRun c.run (len - dest.length)
        · exact (hlose hloses).le
        · rw [hkeep hloses, List.length_append, hbytes]
      have hdest' : (dest ++ bytes).length ≤ len := by
        rw [List.length_append]
        omega
      rcases h with ⟨-, h⟩ | ⟨-, rfl, rfl⟩
      · obtain ⟨hc', hout, htotal⟩ := ih hd hdest' h
        refine ⟨hc', hout, htotal.trans ?_⟩
        rw [List.length_append]
        omega
      · refine ⟨hd, hdest', ?_⟩
        rw [List.length_append]
        omega

/-- A read never touches `error_`. -/
theorem readLoop_error (hsize : size < 2 ^ 32) (hlen : len < 2 ^ 32) (hc : c.Shape)
    (hdest : dest.length ≤ len) (h : readLoop timeCheck len fuel calls c dest = .ok (out, c')) :
    c'.error = c.error := by
  induction fuel generalizing calls c dest with
  | zero => cases h
  | succ fuel ih =>
    rcases readLoop_eq_ok hc h with ⟨-, rfl, rfl⟩ | ⟨-, maxLen, d, bytes, calls', htake, hcopy, h⟩
    · rfl
    · have hd := readMaxLenChangePos_error hsize hc htake
      rw [sub32_of_le hdest hlen] at htake
      obtain ⟨hshape, hbytes, hwant, -⟩ := copyOut_run hsize hc htake hcopy
      rcases h with ⟨-, h⟩ | ⟨-, rfl, rfl⟩
      · refine (ih hshape ?_ h).trans hd
        rw [List.length_append]
        omega
      · exact hd

/-- Once the missing length is a multiple of 256 and the fill level is not, every pass copies
    nothing, and the loop goes on for ever. -/
theorem readLoop_stuck (hsize : size < 2 ^ 32) (hlen : len < 2 ^ 32) (hc : c.Shape)
    (hdest : dest.length < len) (hmul : (len - dest.length) % 256 = 0)
    (hrun : c.run % 256 ≠ 0) :
    readLoop timeCheck len fuel calls c dest ≠ .ok (out, c') := by
  intro h
  induction fuel generalizing calls with
  | zero => cases h
  | succ fuel ih =>
    rcases readLoop_eq_ok hc h with ⟨hzero, -⟩ | ⟨-, maxLen, d, bytes, calls', htake, hcopy, h⟩
    · rw [hzero] at hrun
      exact hrun rfl
    · rw [sub32_of_le hdest.le hlen, hmul, readMaxLenChangePos_eq hsize hc,
        if_pos (Nat.pos_of_ne_zero hrun)] at htake
      obtain ⟨rfl, rfl⟩ := Prod.mk.inj htake
      have hbytes : bytes = [] := by
        have hbound := run_bound hc
        rw [copyOut] at hcopy
        rw [if_pos (by omega)] at hcopy
        rw [← Except.ok.inj hcopy]
        exact slice_of_le le_rfl
      subst hbytes
      rw [List.append_nil] at h
      rcases h with ⟨-, h⟩ | ⟨heq, -⟩
      · exact ih h
      · exact hdest.ne heq

/-- A read that takes less than its piece, or just what was asked for, never gets to the
    wrapped piece. -/
theorem safeRead_filled {want : ℕ} (hsize : size < 2 ^ 32) (hc : c.Shape)
    (hloses : ¬ LosesRun c.run want) (htake : (c.readMaxLenChangePos (want % 256)).1 = want) :
    c.SafeRead want := by
  refine ⟨hloses, fun _ hlt hle hne => ?_⟩
  rw [readMaxLenChangePos_eq hsize hc, Nat.mod_eq_of_lt hlt, if_neg (by omega)] at htake
  exact absurd htake hne

/-- A read that takes its whole piece and goes on is safe exactly when the rest of it is. -/
theorem safeRead_rest {want : ℕ} (hloses : ¬ LosesRun c.run want)
    (hle : c.run % 256 ≤ want % 256) (hne : c.run ≠ want) :
    c.skipRun.SafeRead (want - c.run) ↔ c.SafeRead want := by
  have hrun : c.run < 256 := by
    rw [LosesRun] at hloses
    omega
  rw [Nat.mod_eq_of_lt hrun] at hle
  have hskip : c.skipRun.circle = false := by
    rw [skipRun]
    cases hcircle : c.circle with
    | true => rfl
    | false => simp
  cases hcircle : c.circle with
  | true =>
    have hrest : c.skipRun.run = c.writePos := by rw [skipRun_run, hcircle, if_pos rfl]
    constructor
    · exact fun h => ⟨hloses, fun _ _ _ _ => hrest ▸ h.run⟩
    · exact fun h => ⟨hrest ▸ h.wrapped hcircle hrun hle hne,
        fun hyes => absurd (hskip.symm.trans hyes) Bool.false_ne_true⟩
  | false =>
    have hrest : c.skipRun.run = 0 := by
      rw [skipRun_run, hcircle]
      rfl
    constructor
    · exact fun _ => ⟨hloses, fun hyes => absurd (hcircle.symm.trans hyes) Bool.false_ne_true⟩
    · refine fun _ => ⟨fun h => ?_, fun hyes => absurd (hskip.symm.trans hyes) Bool.false_ne_true⟩
      rw [hrest] at h
      exact absurd h.1 (by omega)

/-- A read that returns delivers the front of the queue and leaves the rest exactly when it is
    safe; otherwise bytes are missing. -/
theorem readLoop_spec (hsize : size < 2 ^ 32) (hlen : len < 2 ^ 32) (hc : c.Shape)
    (hdest : dest.length ≤ len) (h : readLoop timeCheck len fuel calls c dest = .ok (out, c')) :
    (c.SafeRead (len - dest.length) → ∃ d, out = dest ++ d ∧ c.contents = d ++ c'.contents) ∧
      (¬ c.SafeRead (len - dest.length) →
        out.length + c'.contents.length < dest.length + c.contents.length) := by
  induction fuel generalizing calls c dest with
  | zero => cases h
  | succ fuel ih =>
    rcases readLoop_eq_ok hc h with
      ⟨hzero, rfl, rfl⟩ | ⟨hrun, maxLen, d, bytes, calls', htake, hcopy, h⟩
    · -- nothing is queued
      obtain ⟨hcircle, hempty⟩ := waiting hc hzero
      refine ⟨fun _ => ⟨[], by simp, by simp⟩, fun hskips => absurd ?_ hskips⟩
      refine ⟨fun hloses => ?_, fun hyes => absurd (hcircle.symm.trans hyes) Bool.false_ne_true⟩
      rw [hzero] at hloses
      exact absurd hloses.1 (by omega)
    · rw [sub32_of_le hdest hlen] at htake
      obtain ⟨hd, hbytes, hwant, hkeep, hlose⟩ := copyOut_run hsize hc htake hcopy
      have hdest' : (dest ++ bytes).length ≤ len := by
        rw [List.length_append]
        omega
      by_cases hloses : LosesRun c.run (len - dest.length)
      · -- the first piece is skipped, and nothing later makes up for it
        have hlt := hlose hloses
        refine ⟨fun hsafe => absurd hloses hsafe.run, fun _ => ?_⟩
        rcases h with ⟨-, h⟩ | ⟨-, rfl, rfl⟩
        · obtain ⟨-, -, htotal⟩ := readLoop_le hsize hlen hd hdest' h
          rw [List.length_append] at htotal
          omega
        · rw [List.length_append]
          omega
      · have hfront := hkeep hloses
        rcases h with ⟨hne, h⟩ | ⟨heq, rfl, rfl⟩
        · obtain ⟨ihsafe, ihlose⟩ := ih hd hdest' h
          have hwant' : len - (dest ++ bytes).length = len - dest.length - maxLen := by
            rw [List.length_append, hbytes]
            omega
          -- the rest of the read is safe exactly when the whole read is
          have hiff : d.SafeRead (len - (dest ++ bytes).length) ↔
              c.SafeRead (len - dest.length) := by
            have hcase := readMaxLenChangePos_eq hsize hc ((len - dest.length) % 256)
            rw [htake] at hcase
            have hmiss : maxLen ≠ len - dest.length := by
              rw [List.length_append] at hne
              omega
            rw [hwant']
            split at hcase
            · next hlt =>
              -- a multiple of 256 bytes is still missing: this read does not return
              obtain ⟨rfl, rfl⟩ := Prod.mk.inj hcase
              refine absurd h (readLoop_stuck hsize hlen hd (by omega) ?_ ?_)
              · rw [hwant']
                omega
              · rw [skip_run]
                omega
            · next hge =>
              obtain ⟨rfl, rfl⟩ := Prod.mk.inj hcase
              have hmod : c.run % 256 = c.run := by
                rw [LosesRun] at hloses
                omega
              rw [hmod] at hmiss ⊢
              exact safeRead_rest hloses (by omega) hmiss
          rw [hiff] at ihsafe ihlose
          refine ⟨fun hsafe => ?_, fun hskips => ?_⟩
          · obtain ⟨e, hout, hcontents⟩ := ihsafe hsafe
            exact ⟨bytes ++ e, by rw [hout, List.append_assoc],
              by rw [hfront, hcontents, List.append_assoc]⟩
          · have hlt := ihlose hskips
            rw [hfront, List.length_append]
            rw [List.length_append] at hlt
            omega
        · -- the request is filled
          refine ⟨fun _ => ⟨bytes, rfl, hfront⟩, fun hskips => absurd ?_ hskips⟩
          apply safeRead_filled hsize hc hloses
          rw [List.length_append] at heq
          rw [htake]
          dsimp only
          omega

end Loop

end CacheBuffer

/-! ### Runs of complete calls -/

/-- A complete call on the queue. -/
inductive CacheCall where
  | write (buf : List UInt8)
  | read (len : ℕ) (timeCheck : ℕ → Bool)

/-- The queue with all bytes written to it and all bytes that reads have delivered. -/
structure Traffic (size : ℕ) where
  cache : CacheBuffer size := {}
  written : List UInt8 := []
  delivered : List UInt8 := []

namespace Traffic

variable {size : ℕ}

/-- A write that returned true, or a read that returned. -/
inductive Step : Traffic size → CacheCall → Traffic size → Prop where
  | write {x : Traffic size} {buf : List UInt8} {c : CacheBuffer size} :
      x.cache.write buf = .ok (true, c) →
      Step x (.write buf) { x with cache := c, written := x.written ++ buf }
  | read {x : Traffic size} {len fuel : ℕ} {timeCheck : ℕ → Bool} {dest : List UInt8}
      {c : CacheBuffer size} : len < 2 ^ 32 → x.cache.read fuel len timeCheck = .ok (dest, c) →
      Step x (.read len timeCheck) { x with cache := c, delivered := x.delivered ++ dest }

/-- Nothing is lost, duplicated, invented or reordered. -/
def Fifo (x : Traffic size) : Prop := x.delivered ++ x.cache.contents = x.written

/-- Writes need nothing; reads have to be safe. -/
def SafeCall (x : Traffic size) : CacheCall → Prop
  | .write _ => True
  | .read len _ => x.cache.SafeRead len

theorem Step.unique {x y z : Traffic size} {e : CacheCall} (hy : Step x e y) (hz : Step x e z) :
    y = z := by
  cases hy with
  | write hy =>
    cases hz with
    | write hz =>
      obtain ⟨-, rfl⟩ := Prod.mk.inj (Except.ok.inj (hy.symm.trans hz))
      rfl
  | read _ hy =>
    cases hz with
    | read _ hz =>
      obtain ⟨rfl, rfl⟩ := Prod.mk.inj (CacheBuffer.read_unique hy hz)
      rfl

/-- A run of complete calls on a fresh buffer. -/
abbrev Runs (es : List CacheCall) (x : Traffic size) : Prop := Run Step {} es x

/-- A run all of whose reads are safe. -/
abbrev SafeRuns (es : List CacheCall) (x : Traffic size) : Prop :=
  Run (Guarded SafeCall Step) {} es x

/-- Where a safe call leads from a queue that has been a FIFO so far. -/
theorem fifo_step (hsize : size < 2 ^ 32) {x y : Traffic size} {e : CacheCall}
    (hshape : x.cache.Shape) (hx : x.Fifo) (he : SafeCall x e) (h : Step x e y) : y.Fifo := by
  cases h with
  | write h =>
    rw [Fifo] at hx ⊢
    rw [(CacheBuffer.write_spec hsize hshape h).contents, ← hx, List.append_assoc]
  | read hlen h =>
    rw [Fifo] at hx ⊢
    obtain ⟨d, hd, hcontents⟩ :=
      (CacheBuffer.readLoop_spec hsize hlen hshape (Nat.zero_le _) h).1 he
    rw [List.nil_append] at hd
    rw [← hx, hcontents, hd, List.append_assoc]

theorem shape_step (hsize : size < 2 ^ 32) {x y : Traffic size} {e : CacheCall}
    (hshape : x.cache.Shape) (h : Step x e y) : y.cache.Shape := by
  cases h with
  | write h => exact (CacheBuffer.write_spec hsize hshape h).shape
  | read hlen h => exact (CacheBuffer.readLoop_le hsize hlen hshape (Nat.zero_le _) h).1

/-- No call finds bytes again, and an unsafe read loses some. -/
theorem lost_step (hsize : size < 2 ^ 32) {x y : Traffic size} {e : CacheCall}
    (hshape : x.cache.Shape) (h : Step x e y) :
    y.delivered.length + y.cache.contents.length + x.written.length ≤
        x.delivered.length + x.cache.contents.length + y.written.length ∧
      (¬ SafeCall x e → y.delivered.length + y.cache.contents.length + x.written.length <
        x.delivered.length + x.cache.contents.length + y.written.length) := by
  cases h with
  | write h =>
    refine ⟨?_, fun hskips => absurd trivial hskips⟩
    dsimp only
    rw [(CacheBuffer.write_spec hsize hshape h).contents, List.length_append, List.length_append]
    omega
  | read hlen h =>
    obtain ⟨-, -, hle⟩ := CacheBuffer.readLoop_le hsize hlen hshape (Nat.zero_le _) h
    have hlt := (CacheBuffer.readLoop_spec hsize hlen hshape (Nat.zero_le _) h).2
    dsimp only
    rw [List.length_append]
    refine ⟨by simp only [List.length_nil] at hle; omega, fun hskips => ?_⟩
    have hlt := hlt hskips
    simp only [List.length_nil] at hlt
    omega

/-- Either every call so far was safe, or bytes are missing. -/
structure Accounted (es : List CacheCall) (x : Traffic size) : Prop where
  shape : x.cache.Shape
  total : x.delivered.length + x.cache.contents.length ≤ x.written.length
  fifo : SafeRuns es x ∧ x.Fifo ∨
    (∀ x' : Traffic size, ¬ SafeRuns es x') ∧
      x.delivered.length + x.cache.contents.length < x.written.length

theorem accounted_of_run (hpos : 0 < size) (hsize : size < 2 ^ 32) {es : List CacheCall}
    {x : Traffic size} (h : Runs es x) : Accounted es x := by
  induction h with
  | nil => exact ⟨CacheBuffer.shape_fresh hpos, le_rfl, .inl ⟨.nil, rfl⟩⟩
  | @snoc es x y e hrun hstep ih =>
    obtain ⟨hle, hlt⟩ := lost_step hsize ih.shape hstep
    have htotal := ih.total
    refine ⟨shape_step hsize ih.shape hstep, by omega, ?_⟩
    rcases ih.fifo with ⟨hsafe, hfifo⟩ | ⟨hskips, hlost⟩
    · by_cases he : SafeCall x e
      · exact .inl ⟨hsafe.snoc ⟨he, hstep⟩, fifo_step hsize ih.shape hfifo he hstep⟩
      · have hlost := hlt he
        refine .inr ⟨fun x' hx' => ?_, by omega⟩
        obtain ⟨u, hu, heu, -⟩ := hx'.snoc_inv
        obtain rfl : u = x :=
          Run.unique (R := Step) (fun _ _ _ _ => Step.unique) hu.forget_guard hrun
        exact he heu
    · refine .inr ⟨fun x' hx' => ?_, by omega⟩
      obtain ⟨u, hu, -⟩ := hx'.snoc_inv
      exact hskips u hu

/-- The queue is a FIFO in a run exactly when all reads of the run were safe. -/
theorem fifo_iff (hpos : 0 < size) (hsize : size < 2 ^ 32) {es : List CacheCall}
    {x : Traffic size} (h : Runs es x) : x.Fifo ↔ SafeRuns es x := by
  have hx := accounted_of_run hpos hsize h
  constructor
  · intro hfifo
    rcases hx.fifo with ⟨hsafe, -⟩ | ⟨-, hlost⟩
    · exact hsafe
    · have hlen := congrArg List.length hfifo
      rw [List.length_append] at hlen
      omega
  · intro hsafe
    rcases hx.fifo with ⟨-, hfifo⟩ | ⟨hskips, -⟩
    · exact hfifo
    · exact absurd hsafe (hskips x)

/-- A fresh buffer that `bytes` have been written to. -/
def filled (bytes : List UInt8) : CacheBuffer 1000 :=
  { buffer := patch (fun _ => 0) 0 bytes, writePos := bytes.length }

theorem write_filled {bytes : List UInt8} (h : bytes.length < 1000) :
    CacheBuffer.write {} bytes = .ok (true, filled bytes) := by
  simp only [CacheBuffer.write, CacheBuffer.copyIn, Bool.false_eq_true, if_false]
  rw [sub32_of_le (Nat.zero_le _) (by decide), if_pos (by omega), if_pos (by omega),
    Fallible.ok_bind]
  dsimp only
  rw [add32_of_lt (by omega), Nat.zero_add]
  rfl

/-- The same buffer with its first 256 bytes passed over. -/
def emptied (bytes : List UInt8) : CacheBuffer 1000 := { filled bytes with readPos := 256 }

theorem filled_shape {bytes : List UInt8} (h : bytes.length < 1000) : (filled bytes).Shape :=
  ⟨fun hyes => absurd hyes Bool.false_ne_true, fun _ => ⟨Nat.zero_le _, h⟩⟩

theorem take_filled {bytes : List UInt8} (h : bytes.length = 256) :
    (filled bytes).readMaxLenChangePos 0 = (0, emptied bytes) := by
  have hrun : (filled bytes).run = 256 := h
  have hskip : (filled bytes).skipRun = emptied bytes := by
    simp [CacheBuffer.skipRun, emptied, filled, h]
  rw [CacheBuffer.readMaxLenChangePos_eq (by decide) (filled_shape (by omega)), hrun, hskip]
  rfl

/-- A request for 256 bytes takes 256 queued bytes for none, skips them, and gives up. -/
theorem read_filled {bytes : List UInt8} (h : bytes.length = 256) :
    (filled bytes).read 3 256 (fun _ => false) = .ok ([], emptied bytes) := by
  have hshape : (emptied bytes).Shape :=
    ⟨fun hyes => absurd hyes Bool.false_ne_true,
      fun _ => ⟨h.ge, by change bytes.length < 1000; omega⟩⟩
  have hrun : (filled bytes).run ≠ 0 := by
    change bytes.length ≠ 0
    omega
  have hempty : (emptied bytes).run = 0 := by
    change bytes.length - 256 = 0
    omega
  have hwant : sub32 256 ([] : List UInt8).length % 256 = 0 := by
    rw [List.length_nil, sub32_of_le (Nat.zero_le _) (by omega)]
  rw [CacheBuffer.read]
  rw [CacheBuffer.readLoop_take (filled_shape (by omega)) hrun (hwant ▸ take_filled h)
    (show _ = Except.ok [] from rfl) (by simp), CacheBuffer.readLoop_stop hshape hempty rfl]
  rfl

/-- After 256 bytes have been written, 256 bytes are asked for. -/
def fullPiece : List CacheCall := [.write (List.replicate 256 7), .read 256 fun _ => false]

/-- The read delivers nothing and empties the queue. -/
theorem fullPiece_lost :
    ∃ x : Traffic 1000, Runs fullPiece x ∧ ¬ x.Fifo ∧
      x.delivered = [] ∧ x.cache.contents = [] ∧ x.written.length = 256 := by
  have hlen : (List.replicate 256 (7 : UInt8)).length = 256 := List.length_replicate
  rw [fullPiece]
  generalize List.replicate 256 (7 : UInt8) = bytes at hlen ⊢
  have hwrite : Step ({} : Traffic 1000) (.write bytes)
      { cache := filled bytes, written := bytes } :=
    .write (write_filled (by omega))
  have hempty : (emptied bytes).contents = [] := by
    simp only [CacheBuffer.contents, emptied, filled, hlen]
    exact slice_self
  refine ⟨_, (Run.single hwrite).snoc (.read (by omega) (read_filled hlen)), fun hfifo => ?_, rfl,
    hempty, hlen⟩
  have hnil : [] ++ (emptied bytes).contents = bytes := hfifo
  rw [hempty, List.append_nil] at hnil
  rw [← hnil, List.length_nil] at hlen
  omega

/-- Three bytes are written and two are asked for. -/
def shortRequest : List CacheCall := [.write [1, 2, 3], .read 2 fun _ => false]

/-- They are the first two. -/
theorem shortRequest_fifo :
    ∃ x : Traffic 1000, Runs shortRequest x ∧ x.delivered = [1, 2] ∧ x.Fifo := by
  have hwrite : Step ({} : Traffic 1000) (.write [1, 2, 3])
      { cache := filled [1, 2, 3], written := [1, 2, 3] } :=
    .write (write_filled (by decide))
  have hread : (filled [1, 2, 3]).read 3 2 (fun _ => false) =
      .ok ([1, 2], { filled [1, 2, 3] with readPos := 2 }) := rfl
  have hrun := (Run.single hwrite).snoc (.read (by decide) hread)
  refine ⟨_, hrun, rfl, (fifo_iff (by decide) (by decide) hrun).mpr ?_⟩
  refine (Run.single ⟨trivial, hwrite⟩).snoc ⟨⟨?_, fun hyes => ?_⟩, .read (by decide) hread⟩
  · decide
  · exact absurd hyes (by decide)

end Traffic

end RmMicroControllers
