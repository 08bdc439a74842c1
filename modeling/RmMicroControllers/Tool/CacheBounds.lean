import RmMicroControllers.Tool.CacheTermination

/-!
# Bounds of the byte queue

Every unsigned difference that `write` and `read` compute and every `memcpy` they make, as data:
`writeAccesses` and `passAccesses` list them in the order of the code, and replaying the copies
gives what the calls do. In every state that calls lead to, and in every pass of a read, whether
it ever returns or not, no difference underflows and no copy leaves the buffer, the source or the
destination.

## Main results

- `CacheBuffer.write_replay`, `CacheBuffer.pass_replay` — the listed copies are the ones made
- `CacheBuffer.accesses_safe` — positions, differences and copies stay in bounds
-/

namespace RmMicroControllers

open Memory Relation Transition

/-- A difference or a copy in the code of `CacheBuffer`. -/
inductive CacheAccess where
  /-- `a - b`. -/
  | difference (a b : ℕ)
  /-- `memcpy(buffer_ + pos, para_buf + offset, len)`, with `total` bytes at `para_buf`. -/
  | intoBuffer (pos offset len total : ℕ)
  /-- `memcpy(para_buf + filled, buffer_ + pos, len)`, with room for `total` at `para_buf`. -/
  | fromBuffer (pos filled len total : ℕ)
  deriving DecidableEq

/-- The difference does not underflow, or the copy stays in the buffer and in what the caller
    passed. -/
def CacheAccess.Safe (size : ℕ) : CacheAccess → Prop
  | difference a b => b ≤ a
  | intoBuffer pos offset len total => pos + len ≤ size ∧ offset + len ≤ total
  | fromBuffer pos filled len total => pos + len ≤ size ∧ filled ≤ total ∧ len ≤ total - filled

namespace CacheBuffer

variable {size : ℕ}

/-- The positions lie in the buffer, and the flag tells their order. -/
structure Positions (c : CacheBuffer size) : Prop where
  readPos_lt : c.readPos < size
  writePos_lt : c.writePos < size
  straight : c.circle = false → c.readPos ≤ c.writePos
  circle : c.circle = true → c.writePos ≤ c.readPos

theorem Shape.positions {c : CacheBuffer size} (h : c.Shape) : c.Positions := by
  cases hcircle : c.circle with
  | true =>
    obtain ⟨hwr, hr⟩ := h.circle hcircle
    exact ⟨hr, hwr.trans_lt hr, fun hno => absurd (hcircle.symm.trans hno) (by decide),
      fun _ => hwr⟩
  | false =>
    obtain ⟨hrw, hw⟩ := h.straight hcircle
    exact ⟨hrw.trans_lt hw, hw, fun _ => hrw,
      fun hyes => absurd (hcircle.symm.trans hyes) (by decide)⟩

/-- The branch of `write` for a buffer whose writer has wrapped, on the bytes from `offset` up to
    `total`. -/
def circleAccesses (c : CacheBuffer size) (offset total : ℕ) : List CacheAccess :=
  .difference c.readPos c.writePos ::
    if sub32 c.readPos c.writePos > total - offset then
      [.intoBuffer c.writePos offset (total - offset) total]
    else []

/-- What `write` computes and copies for `len` bytes. -/
def writeAccesses (c : CacheBuffer size) (len : ℕ) : List CacheAccess :=
  if c.circle then c.circleAccesses 0 len
  else
    let tmpLen := sub32 size c.writePos
    .difference size c.writePos ::
      if tmpLen > len then [.intoBuffer c.writePos 0 len len]
      else
        .intoBuffer c.writePos 0 tmpLen len :: .difference len tmpLen ::
          circleAccesses ({ c with writePos := 0, circle := true } : CacheBuffer size) tmpLen len

/-- What a pass of the loop of `read` computes and copies when it finds bytes. -/
def passAccesses (len : ℕ) (σ : CacheBuffer size × List UInt8) : List CacheAccess :=
  [.difference len σ.2.length,
    if σ.1.circle then .difference size σ.1.readPos
    else .difference σ.1.writePos σ.1.readPos,
    .fromBuffer σ.1.readPos σ.2.length
      (σ.1.readMaxLenChangePos (sub32 len σ.2.length % 256)).1 len]

/-! ### The listed copies are the ones made -/

/-- The buffer after the listed copies from `buf`. -/
def replay (buf : List UInt8) (accesses : List CacheAccess) (buffer : ℕ → UInt8) : ℕ → UInt8 :=
  accesses.foldl (fun m a => match a with
    | .intoBuffer pos offset len _ => patch m pos ((buf.drop offset).take len)
    | _ => m) buffer

@[simp]
theorem replay_nil (buf : List UInt8) (m : ℕ → UInt8) : replay buf [] m = m := rfl

@[simp]
theorem replay_difference (buf : List UInt8) (a b : ℕ) (accesses : List CacheAccess)
    (m : ℕ → UInt8) :
    replay buf (.difference a b :: accesses) m = replay buf accesses m := rfl

@[simp]
theorem replay_intoBuffer (buf : List UInt8) (pos offset len total : ℕ)
    (accesses : List CacheAccess) (m : ℕ → UInt8) :
    replay buf (.intoBuffer pos offset len total :: accesses) m =
      replay buf accesses (patch m pos ((buf.drop offset).take len)) := rfl

theorem circleAccesses_congr {c d : CacheBuffer size} (offset total : ℕ)
    (hread : c.readPos = d.readPos) (hwrite : c.writePos = d.writePos) :
    c.circleAccesses offset total = d.circleAccesses offset total := by
  unfold circleAccesses
  rw [hread, hwrite]

theorem writeCircle_replay {c d : CacheBuffer size} {buf : List UInt8} {offset : ℕ} {done : Bool}
    (h : c.writeCircle (buf.drop offset) = .ok (done, d)) :
    d.buffer = replay buf (c.circleAccesses offset buf.length) c.buffer := by
  rw [writeCircle] at h
  rw [circleAccesses]
  rw [List.length_drop] at h
  split at h
  · next hroom =>
    obtain ⟨e, he, h⟩ := Fallible.bind_eq_ok.mp h
    obtain ⟨-, rfl⟩ := copyIn_eq_ok he
    obtain rfl := (congrArg Prod.snd (Except.ok.inj h)).symm
    have hall : (buf.drop offset).take (buf.length - offset) = buf.drop offset :=
      List.take_of_length_le (by rw [List.length_drop])
    rw [if_pos hroom]
    rw [replay_difference, replay_intoBuffer, replay_nil, hall]
  · next hroom =>
    obtain rfl := (congrArg Prod.snd (Except.ok.inj h)).symm
    rw [if_neg hroom]
    rfl

/-- A write that returns has changed the buffer by the listed copies. -/
theorem write_replay {c d : CacheBuffer size} {buf : List UInt8} {done : Bool}
    (h : c.write buf = .ok (done, d)) :
    d.buffer = replay buf (c.writeAccesses buf.length) c.buffer := by
  rw [write] at h
  rw [writeAccesses]
  split at h
  · next hcircle =>
    rw [if_pos hcircle]
    exact @writeCircle_replay _ c d buf 0 done h
  · next hcircle =>
    rw [if_neg hcircle]
    dsimp only at h ⊢
    generalize sub32 size c.writePos = tmpLen at h ⊢
    split at h
    · next hfits =>
      obtain ⟨e, he, h⟩ := Fallible.bind_eq_ok.mp h
      obtain ⟨-, rfl⟩ := copyIn_eq_ok he
      obtain rfl := (congrArg Prod.snd (Except.ok.inj h)).symm
      rw [if_pos hfits]
      simp
    · next hfits =>
      obtain ⟨e, he, h⟩ := Fallible.bind_eq_ok.mp h
      obtain ⟨-, rfl⟩ := copyIn_eq_ok he
      -- the circle part looks at the positions only
      have hsame := circleAccesses_congr tmpLen buf.length
        (c := { c with buffer := patch c.buffer c.writePos (buf.take tmpLen)
                       writePos := 0, circle := true })
        (d := ({ c with writePos := 0, circle := true } : CacheBuffer size)) rfl rfl
      rw [if_neg hfits, writeCircle_replay h, hsame, replay_difference, replay_intoBuffer,
        replay_difference, List.drop_zero]

/-- A pass that another one follows has delivered the listed copy. -/
theorem pass_replay {len : ℕ} {σ τ : CacheBuffer size × List UInt8} (h : Pass len σ τ) :
    ∃ pos count, .fromBuffer pos σ.2.length count len ∈ passAccesses len σ ∧
      τ.2 = σ.2 ++ slice τ.1.buffer pos (pos + count) := by
  obtain ⟨-, maxLen, bytes, htake, hcopy, hdest, -⟩ := h
  refine ⟨σ.1.readPos, maxLen, ?_, ?_⟩
  · simp [passAccesses, htake]
  · rw [copyOut] at hcopy
    split at hcopy
    · rw [hdest, Except.ok.inj hcopy]
    · cases hcopy

/-! ### They stay in bounds -/

theorem circleAccesses_safe {c : CacheBuffer size} (hsize : size < 2 ^ 32)
    (hwr : c.writePos ≤ c.readPos) (hr : c.readPos < size) {offset total : ℕ}
    (hoffset : offset ≤ total) : ∀ a ∈ c.circleAccesses offset total, a.Safe size := by
  intro a ha
  rw [circleAccesses] at ha
  rw [sub32_of_le hwr (by omega)] at ha
  rcases List.mem_cons.mp ha with rfl | ha
  · exact hwr
  · split at ha
    · next hroom =>
      obtain rfl := List.mem_singleton.mp ha
      -- the copy ends before the read position
      exact ⟨by omega, by omega⟩
    · exact absurd ha List.not_mem_nil

/-- A write computes and copies nothing out of bounds, whether it is accepted or refused. -/
theorem writeAccesses_safe {c : CacheBuffer size} (hsize : size < 2 ^ 32) (hc : c.Shape)
    (len : ℕ) : ∀ a ∈ c.writeAccesses len, a.Safe size := by
  rw [writeAccesses]
  cases hcircle : c.circle with
  | true =>
    obtain ⟨hwr, hr⟩ := hc.circle hcircle
    exact circleAccesses_safe hsize hwr hr (Nat.zero_le _)
  | false =>
    obtain ⟨hrw, hw⟩ := hc.straight hcircle
    intro a ha
    dsimp only at ha
    rw [if_neg Bool.false_ne_true, sub32_of_le hw.le hsize] at ha
    rcases List.mem_cons.mp ha with rfl | ha
    · exact hw.le
    · split at ha
      · next hfits =>
        obtain rfl := List.mem_singleton.mp ha
        exact ⟨by omega, by omega⟩
      · next hfits =>
        -- the write wraps, and goes on at position 0
        rcases List.mem_cons.mp ha with rfl | ha
        · exact ⟨by omega, by omega⟩
        rcases List.mem_cons.mp ha with rfl | ha
        · exact Nat.le_of_not_lt hfits
        · exact circleAccesses_safe (c := { c with writePos := 0, circle := true }) hsize
            (Nat.zero_le _) (hrw.trans_lt hw) (Nat.le_of_not_lt hfits) a ha

/-- A pass of a read computes and copies nothing out of bounds. -/
theorem passAccesses_safe {len : ℕ} {σ : CacheBuffer size × List UInt8} (hsize : size < 2 ^ 32)
    (hlen : len < 2 ^ 32) (hσ : LoopState len σ) : ∀ a ∈ passAccesses len σ, a.Safe size := by
  have hbound := run_bound hσ.shape
  have hrun := Nat.mod_le σ.1.run 256
  have hwant := Nat.mod_le (len - σ.2.length) 256
  have hfilled := hσ.filled
  intro a ha
  simp only [passAccesses, List.mem_cons, List.not_mem_nil, or_false] at ha
  obtain rfl | rfl | rfl := ha
  · exact hfilled
  · cases hcircle : σ.1.circle with
    | true => exact (hσ.shape.circle hcircle).2.le
    | false => exact (hσ.shape.straight hcircle).1
  · rw [sub32_of_le hfilled hlen, readMaxLenChangePos_eq hsize hσ.shape]
    split
    · exact ⟨by dsimp only; omega, hfilled, by dsimp only; omega⟩
    · exact ⟨by dsimp only; omega, hfilled, by dsimp only; omega⟩

/-- Every state of the loop of a read is a loop state. -/
theorem loopState_of_passes {len : ℕ} {σ τ : CacheBuffer size × List UInt8}
    (hsize : size < 2 ^ 32) (hlen : len < 2 ^ 32) (hσ : LoopState len σ)
    (h : ReflTransGen (Pass len) σ τ) : LoopState len τ := by
  induction h with
  | refl => exact hσ
  | tail _ hpass ih =>
    obtain ⟨-, rfl, -⟩ := (pass_iff hsize hlen ih).mp hpass
    exact next_loopState ih

/-- A read that returns has been in states that passes lead to, and the last of them is the one
    it returns from or the one before its last copy. -/
theorem readLoop_passes {len : ℕ} {timeCheck : ℕ → Bool} {fuel calls : ℕ}
    {σ : CacheBuffer size × List UInt8} {d : CacheBuffer size} {dest : List UInt8}
    (hsize : size < 2 ^ 32) (hlen : len < 2 ^ 32) (hσ : LoopState len σ)
    (h : readLoop timeCheck len fuel calls σ.1 σ.2 = .ok (dest, d)) :
    ∃ τ, ReflTransGen (Pass len) σ τ ∧ ((d, dest) = τ ∨
      (d = (τ.1.readMaxLenChangePos (sub32 len τ.2.length % 256)).2 ∧ dest.length = len)) := by
  induction fuel generalizing calls σ with
  | zero => cases h
  | succ fuel ih =>
    obtain ⟨-, hdest, hd⟩ | ⟨hrun, maxLen, e, bytes, calls', htake, hcopy, h⟩ :=
      readLoop_eq_ok hσ.shape h
    · exact ⟨σ, .refl, .inl (Prod.ext hd hdest)⟩
    · obtain ⟨hmore, h⟩ | ⟨hfilled, hdest, hd⟩ := h
      · have hpass : Pass len σ (e, σ.2 ++ bytes) :=
          ⟨by rw [readWaitPos_eq hσ.shape, decide_eq_false hrun], maxLen, bytes, htake, hcopy,
            rfl, hmore⟩
        have hstate := loopState_of_passes hsize hlen hσ (.single hpass)
        obtain ⟨τ, hτ, hlast⟩ := ih hstate h
        exact ⟨τ, .head hpass hτ, hlast⟩
      · exact ⟨σ, .refl, .inr ⟨by rw [hd, htake], by rw [hdest, hfilled]⟩⟩

/-- In every state that calls lead to, the positions are in the buffer and in the order that the
    flag tells, and so they are in every pass of a read from there on, returning or not. No
    difference that a write or a pass computes underflows, and no copy leaves the buffer, the
    caller's source, or the rest of the caller's destination. -/
theorem accesses_safe (hpos : 0 < size) (hsize : size < 2 ^ 32) {es : List CacheCall}
    {c : CacheBuffer size} (h : CallRuns es c) :
    c.Positions ∧
    (∀ len, ∀ a ∈ c.writeAccesses len, a.Safe size) ∧
    ∀ len < 2 ^ 32, ∀ σ, ReflTransGen (Pass len) (c, []) σ →
      σ.1.Positions ∧ ∀ a ∈ passAccesses len σ, a.Safe size := by
  have hc := shape_of_calls hpos hsize h
  refine ⟨hc.positions, fun len => writeAccesses_safe hsize hc len, ?_⟩
  intro len hlen σ hσ
  have hstate := loopState_of_passes hsize hlen ⟨hc, Nat.zero_le _⟩ hσ
  exact ⟨hstate.shape.positions, passAccesses_safe hsize hlen hstate⟩

/-- The state after a refused write that has wrapped, and the pass of a read from there. -/
theorem accesses_safe_refused :
    ∃ c : CacheBuffer 4, CallRuns [.write [1], .write [2, 3, 4, 5]] c ∧
      c.Positions ∧ (∀ a ∈ c.writeAccesses 1, a.Safe 4) ∧
        ∀ a ∈ passAccesses 4 (c, []), a.Safe 4 := by
  have hrun : ∃ c : CacheBuffer 4, CallRuns [.write [1], .write [2, 3, 4, 5]] c :=
    ⟨_, (Run.single (.write rfl)).snoc (.write rfl)⟩
  obtain ⟨c, hrun⟩ := hrun
  obtain ⟨hpositions, hwrite, hread⟩ := accesses_safe (by decide) (by decide) hrun
  exact ⟨c, hrun, hpositions, hwrite 1, (hread 4 (by decide) _ .refl).2⟩

end CacheBuffer

end RmMicroControllers
