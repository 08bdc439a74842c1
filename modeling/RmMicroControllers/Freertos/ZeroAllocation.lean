import RmMicroControllers.Freertos.Reallocation

/-!
# Cleared allocations

`pvPortCalloc` multiplies modulo 2^32 and clears without looking at what the allocation
returned. It does what its callers expect exactly when the product fits and a free block is
large enough, or when the product wraps to zero.
-/

namespace RmMicroControllers

open Memory Segments Transition

namespace Session

variable {L : Layout} {m : Mem} {c : Session} {num size : UInt32}

/-- The call returns null and writes nothing, or a block of its own with room for the whole
product, all cleared, and writes nothing outside the payload of that block beyond what the
allocation writes. -/
def CallocExact (L : Layout) (h : Heap) (num size : UInt32) : Prop :=
  ∃ h' p, pvPortCalloc L h num size = .ok (h', p) ∧
    (p = 0 ∧ h' = initialised L h ∨
      p ≠ 0 ∧ ∃ h₁ bs n, pvPortMalloc L h (size * num) = .ok (h₁, p) ∧ Tiled L h' bs ∧
        (p - 8, getBlockSize h' p, n) ∈ lives (pucAlignedHeap L) bs ∧
        num.toNat * size.toNat + 8 ≤ getBlockSize h' p ∧
        (∀ i < num.toNat * size.toNat, h'.mem (p + i) = 0) ∧
        AgreeOff (Within p (getBlockSize h' p - 8)) h'.mem h₁.mem ∧
        h' = { h₁ with mem := h'.mem })

/-- The product wraps to zero, or it does not wrap and some free block is large enough. -/
def CallocFits (L : Layout) (h : Heap) (num size : UInt32) : Prop :=
  size * num = 0 ∨ num.toNat * size.toNat < 4294967296 ∧
    (firstFit (size * num).toNat (freeBlocks L (initialised L h))).isSome

theorem toNat_product (num size : UInt32) :
    (size * num).toNat = num.toNat * size.toNat % 4294967296 := by
  rw [UInt32.toNat_mul, Nat.mul_comm]

/-- Every cleared allocation on a sound heap, by the block that its product fits into. -/
theorem calloc_exact_iff {es : List HeapEvent} (hrun : SoundRuns L m es c) (num size : UInt32) :
    CallocExact L c.heap num size ↔ CallocFits L c.heap num size := by
  obtain ⟨_, bs, ht, _⟩ := sound_run hrun
  have hproduct := toNat_product num size
  rw [CallocFits]
  rw [ht.freeBlocks_eq]
  rcases pvPortCalloc_cases ht num size with ⟨hfit, hcall⟩ |
    ⟨x, s, pre, post, h₁, m', hfit, hmalloc, ha, hcall, hzero, hagree⟩
  · -- no block: the call returns only where there is nothing to clear
    rw [hfit]
    simp only [Option.isSome_none, Bool.false_eq_true, and_false, or_false]
    constructor
    · rintro ⟨h', p, hret, _⟩
      rw [hcall] at hret
      split at hret
      · assumption
      · cases hret
    · intro hnull
      rw [if_pos hnull] at hcall
      exact ⟨_, _, hcall, .inl ⟨rfl, rfl⟩⟩
  · rw [hfit]
    have hpos : size * num ≠ 0 := by
      intro hnull
      have hreq := ha.request_pos
      rw [hnull] at hreq
      exact absurd hreq (by decide)
    have hrequest := ha.request_le
    have hgranted := le_granted heapMINIMUM_BLOCK_SIZE ha.fits
    have htiled := ha.write_payload hagree hrequest
    obtain ⟨rest, htaken⟩ := taken_eq pre (size * num).toNat s post
    have hsize : getBlockSize { h₁ with mem := m' } (x + 8) =
        granted heapMINIMUM_BLOCK_SIZE (roundedSize (size * num).toNat) s :=
      getBlockSize_eq (htaken ▸ htiled) ha.address
    have hlarge : s ≤ 59992 := by
      have harea := ht.area
      have hle := L.area_le
      rw [ha.blocks, total_append, total_cons] at harea
      dsimp only at harea
      omega
    simp only [hpos, Option.isSome_some, and_true, false_or]
    constructor
    · rintro ⟨h', p, hret, hshape⟩
      obtain ⟨rfl, rfl⟩ := Prod.mk.inj (Except.ok.inj (hcall.symm.trans hret))
      rcases hshape with ⟨hnull, _⟩ | ⟨_, _, _, _, _, _, _, hroom, _⟩
      · omega
      · rw [hsize] at hroom
        omega
    · intro hlt
      rw [Nat.mod_eq_of_lt hlt] at hproduct
      rw [hproduct] at hzero
      refine ⟨_, _, hcall, .inr ⟨by omega, h₁, taken pre (size * num).toNat s post,
        (size * num).toNat, hmalloc, htiled, ?_, ?_, hzero, ?_, rfl⟩⟩
      · rw [hsize, lives_taken ha.fits ha.address, Nat.add_sub_cancel]
        exact List.mem_append_right _ List.mem_cons_self
      · rw [hsize]
        omega
      · rw [hsize]
        exact hagree.mono fun y hy => hy.mono le_rfl (by omega)

instance (L : Layout) (h : Heap) (num size : UInt32) : Decidable (CallocFits L h num size) :=
  inferInstanceAs (Decidable (_ ∨ _ ∧ _))

/-- Four elements of 25 bytes, between two blocks that are held. -/
theorem calloc_exact_gap : ∃ c, SoundRuns .internal (fun _ => 255)
      [.malloc 8, .calloc 10 10, .malloc 20, .free 536870936] c ∧ c.live.length = 2 ∧
    CallocExact .internal c.heap 4 25 := by
  obtain ⟨c, hrun, hend⟩ := Run.of_check (Sound .internal) (step .internal) (start fun _ => 255)
    [.malloc 8, .calloc 10 10, .malloc 20, .free 536870936]
    (fun c => (c.live.length, decide (CallocFits .internal c.heap 4 25))) (x := (2, true))
    (by decide +kernel)
  obtain ⟨hlive, hfits⟩ := Prod.mk.inj hend
  exact ⟨c, hrun, hlive, (calloc_exact_iff hrun 4 25).mpr (of_decide_eq_true hfits)⟩

/-- A product of 2^32 + 16 yields a block of 24 bytes. -/
theorem calloc_wraps :
    SoundRuns .internal (fun _ => 255) [] (start fun _ => 255) ∧
      ¬CallocExact .internal (start fun _ => 255).heap 268435457 16 := by
  refine ⟨.nil, ?_⟩
  rintro ⟨h', p, hcall, hshape⟩
  have hend : (pvPortCalloc .internal (start fun _ => 255).heap 268435457 16).toOption.map
      (fun r => (r.2, getBlockSize r.1 r.2)) = some (536870920, 24) := by decide +kernel
  rw [hcall] at hend
  obtain ⟨hp, hsize⟩ := Prod.mk.inj (Option.some.inj hend)
  rcases hshape with ⟨hnull, _⟩ | ⟨_, _, _, _, _, _, _, hroom, _⟩
  · dsimp only at hp
    omega
  · dsimp only at hsize
    rw [hsize] at hroom
    exact absurd hroom (by decide)

end Session

end RmMicroControllers
