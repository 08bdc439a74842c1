import RmMicroControllers.Freertos.Reallocation

/-!
# The shape of the free list

The free list is determined by what is held: it is the gaps between the blocks of the callers,
however the allocations and releases that led there were ordered. So a heap of which everything
was given back answers as a fresh one, and with `k` blocks held the free bytes are in at most
`k + 1` pieces.
-/

namespace RmMicroControllers

open Memory Segments Transition

variable {L : Layout} {m m' : Mem}

namespace Session

variable {c c' : Session} {es es' : List HeapEvent} {bs bs' : List (Block ℕ)}

/-- Address and size of the blocks that are held, their headers included. -/
def footprint (c : Session) : List (ℕ × ℕ) :=
  c.live.map fun b => (b.1 - xHeapStructSize, getBlockSize c.heap b.1)

/-- The blocks that are held are the live ones of the tiling. -/
theorem footprint_perm (hv : Valid L c) :
    ∃ bs, Tiled L (initialised L c.heap) bs ∧ c.live.length = (lives (pucAlignedHeap L) bs).length ∧
      (footprint c).Perm (stretches (pucAlignedHeap L) bs) := by
  obtain ⟨hempty, bs, ht, hperm⟩ := hv
  refine ⟨bs, ht, ?_, ?_⟩
  · rw [hperm.length_eq, holders, List.length_map]
  by_cases hnull : c.heap.pxEnd = 0
  · have hnone := hempty hnull
    rw [hnone, List.nil_perm, holders, List.map_eq_nil_iff] at hperm
    rw [footprint, hnone, stretches, hperm]
    exact List.Perm.nil
  · have hinit : initialised L c.heap = c.heap := if_neg hnull
    rw [hinit] at ht
    rw [footprint]
    apply (hperm.map _).trans (List.Perm.of_eq _)
    rw [holders, stretches, List.map_map]
    apply List.map_congr_left
    rintro ⟨x, s, n⟩ hx
    obtain ⟨pre, post, rfl, hat⟩ := mem_lives hx
    have hsize := getBlockSize_eq ht hat.symm
    rw [Function.comp_apply]
    dsimp only at hsize ⊢
    rw [xHeapStructSize, Nat.add_sub_cancel, hsize]

/-- The free list, the free bytes and the answer to every request agree. -/
structure SameAnswers (L : Layout) (c c' : Session) : Prop where
  free_list : freeBlocks L (initialised L c.heap) = freeBlocks L (initialised L c'.heap)
  remaining : (initialised L c.heap).xFreeBytesRemaining =
    (initialised L c'.heap).xFreeBytesRemaining
  answers : ∀ size, (pvPortMalloc L c.heap size).map Prod.snd =
    (pvPortMalloc L c'.heap size).map Prod.snd

/-- The answer to a request, by the free list alone. -/
theorem malloc_answer {h : Heap} (ht : Tiled L (initialised L h) bs) (size : UInt32) :
    (pvPortMalloc L h size).map Prod.snd =
      .ok (match firstFit size.toNat (freeBlocks L (initialised L h)) with
        | none => 0
        | some b => b.1 + 8) := by
  rw [ht.freeBlocks_eq]
  rcases pvPortMalloc_cases ht size with ⟨hfit, hcall⟩ | ⟨x, s, _, _, h', hfit, hcall, _⟩
  · rw [hcall, hfit]
    rfl
  · rw [hcall, hfit]
    rfl

/-- Sorted without overlap, the same stretches are the same list. -/
theorem stretches_eq_of_perm {a : ℕ} (hroomy : Roomy bs)
    (hperm : (stretches a bs).Perm (stretches a bs')) : stretches a bs = stretches a bs' := by
  apply hperm.eq_of_pairwise _ (stretches_pairwise a bs) (stretches_pairwise a bs')
  intro x y hx _ hxy hyx
  obtain ⟨z, hz, rfl⟩ := List.mem_map.mp hx
  have hmin := hroomy.le_of_mem_lives hz
  dsimp only at hxy hyx
  omega

/-- The order of the calls that led to a set of blocks does not show. -/
theorem same_answers (hrun : SoundRuns L m es c) (hrun' : SoundRuns L m' es' c')
    (hsame : (footprint c).Perm (footprint c')) : SameAnswers L c c' := by
  obtain ⟨bs, ht, _, hperm⟩ := footprint_perm (sound_run hrun)
  obtain ⟨bs', ht', _, hperm'⟩ := footprint_perm (sound_run hrun')
  have hstretches := stretches_eq_of_perm ht.roomy (hperm.symm.trans (hsame.trans hperm'))
  have hpos : ∀ {bs : List (Block ℕ)}, Roomy bs → ∀ b ∈ bs, 0 < b.size := by
    intro bs hroomy b hb
    have hmin := (hroomy b hb).1
    omega
  have hfrees : frees (pucAlignedHeap L) bs = frees (pucAlignedHeap L) bs' := by
    rw [ht.separated.frees_eq_gaps (hpos ht.roomy), ht'.separated.frees_eq_gaps (hpos ht'.roomy),
      ht.area, ht'.area, hstretches]
  have hlist : freeBlocks L (initialised L c.heap) = freeBlocks L (initialised L c'.heap) := by
    rw [ht.freeBlocks_eq, ht'.freeBlocks_eq, hfrees]
  refine ⟨hlist, ?_, fun size => ?_⟩
  · rw [ht.free, ht'.free, ← sum_frees (pucAlignedHeap L) bs, ← sum_frees (pucAlignedHeap L) bs',
      hfrees]
  · rw [malloc_answer ht, malloc_answer ht', hlist]

/-- Two blocks are held, with a gap between them. -/
def gapLeft : List HeapEvent := [.malloc 8, .calloc 10 10, .malloc 20, .free 536870936]

/-- The same two blocks for other requests, the first one allocated anew. -/
def gapFilled : List HeapEvent :=
  [.malloc 5, .malloc 104, .malloc 24, .free 536870920, .free 536870936, .malloc 8]

/-- From then on the two heaps answer alike. -/
theorem same_answers_gap : ∃ c c', SoundRuns .internal (fun _ => 255) gapLeft c ∧
    SoundRuns .internal (fun _ => 0) gapFilled c' ∧
    footprint c = [(536871040, 32), (536870912, 16)] ∧ SameAnswers .internal c c' := by
  obtain ⟨c, hrun, hc⟩ := Run.of_check (Sound .internal) (step .internal) (start fun _ => 255)
    gapLeft footprint (x := [(536871040, 32), (536870912, 16)]) (by decide +kernel)
  obtain ⟨c', hrun', hc'⟩ := Run.of_check (Sound .internal) (step .internal) (start fun _ => 0)
    gapFilled footprint (x := [(536870912, 16), (536871040, 32)]) (by decide +kernel)
  refine ⟨c, c', hrun, hrun', hc, same_answers hrun hrun' ?_⟩
  rw [hc, hc']
  exact .swap _ _ []

/-- With `k` blocks held the free bytes are in at most `k + 1` pieces. -/
theorem length_freeBlocks_le (hrun : SoundRuns L m es c) :
    (freeBlocks L (initialised L c.heap)).length ≤ c.live.length + 1 := by
  obtain ⟨bs, ht, hlen, _⟩ := footprint_perm (sound_run hrun)
  rw [ht.freeBlocks_eq, hlen]
  exact ht.separated.length_frees_le (pucAlignedHeap L)

/-- A request fails only where the `k + 1` pieces could not hold it `k + 1` times. -/
theorem fragmentation {h' : Heap} {size : UInt32} (hrun : SoundRuns L m es c)
    (hpos : 0 < size.toNat) (hfail : pvPortMalloc L c.heap size = .ok (h', 0)) :
    (freeBlocks L (initialised L c.heap)).length ≤ c.live.length + 1 ∧
      (initialised L c.heap).xFreeBytesRemaining ≤
        (c.live.length + 1) * (roundedSize size.toNat - 8) := by
  have hpieces := length_freeBlocks_le hrun
  refine ⟨hpieces, ?_⟩
  obtain ⟨bs, ht, _, _⟩ := footprint_perm (sound_run hrun)
  rw [ht.freeBlocks_eq] at hpieces
  have hnone : firstFit size.toNat (frees (pucAlignedHeap L) bs) = none := by
    rcases pvPortMalloc_cases ht size with ⟨hfit, _⟩ | ⟨x, _, _, _, _, _, hcall, _⟩
    · exact hfit
    · have hnull := congrArg Prod.snd (Except.ok.inj (hcall.symm.trans hfail))
      dsimp only at hnull
      omega
  rw [firstFit, if_neg (by omega), List.find?_eq_none] at hnone
  have hsmall : ∀ b ∈ frees (pucAlignedHeap L) bs, b.2 ≤ roundedSize size.toNat - 8 := by
    intro b hb
    have hlt := hnone b hb
    obtain ⟨pre, post, rfl, _⟩ := mem_frees hb
    have hmod := ht.roomy.mid.2
    rw [decide_eq_true_eq] at hlt
    rw [roundedSize] at hlt ⊢
    dsimp only at hmod
    omega
  rw [ht.free]
  exact (freeBytes_le_length_mul hsmall).trans (Nat.mul_le_mul_right _ hpieces)

/-- Every second of four blocks is given back, and a request for half of the free bytes fails. -/
theorem fragmentation_alternating :
    ∃ c : Session, c.live = [(536915920, 14984), (536885920, 14992)] ∧
      ((freeBlocks .internal (initialised .internal c.heap)).length ≤ c.live.length + 1 ∧
        (initialised .internal c.heap).xFreeBytesRemaining ≤
          (c.live.length + 1) * (roundedSize (UInt32.toNat 15000) - 8)) := by
  obtain ⟨c, hrun, hend⟩ := Run.of_check (Sound .internal) (step .internal) (start fun _ => 0)
    [.malloc 14992, .malloc 14992, .malloc 14992, .malloc 14984, .free 536870920,
      .free 536900920]
    (fun c => (c.live, (pvPortMalloc .internal c.heap 15000).toOption.map Prod.snd))
    (x := ([(536915920, 14984), (536885920, 14992)], some 0)) (by decide +kernel)
  obtain ⟨hlive, hmalloc⟩ := Prod.mk.inj hend
  obtain ⟨⟨h', q⟩, hcall, rfl⟩ := Fallible.exists_ok_of_toOption hmalloc
  exact ⟨c, hlive, fragmentation hrun (by decide) hcall⟩

end Session

end RmMicroControllers
