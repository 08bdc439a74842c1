import RmMicroControllers.Freertos.HeapSession

/-!
# What the heap looks like after any calls

The free list read from the memory, and the representation that it and the blocks held have
after every sequence of allocations and releases.
-/

namespace RmMicroControllers

open Memory Segments Transition

variable {L : Layout} {h : Heap} {bs : List (Block ℕ)} {m : Mem} {p a e : ℕ}

section FreeList

/-- Address and size of the nodes from `px` on, up to `pxEnd`. -/
def walk (m : Mem) (pxEnd : ℕ) : ℕ → ℕ → List (ℕ × ℕ)
  | 0, _ => []
  | fuel + 1, px =>
    if px = pxEnd then []
    else (px, xBlockSize m px) :: walk m pxEnd fuel (pxNextFreeBlock m px)

/-- The free list of the heap, read from its memory. -/
def freeBlocks (L : Layout) (h : Heap) : List (ℕ × ℕ) :=
  walk h.mem h.pxEnd configTOTAL_HEAP_SIZE (pxNextFreeBlock h.mem L.xStart)

theorem walk_eq (h : Links m p a bs (a + total bs)) (hroomy : Roomy bs) {fuel : ℕ}
    (hfuel : bs.length < fuel) :
    walk m (a + total bs) fuel (pxNextFreeBlock m p) = frees a bs := by
  induction bs generalizing p a fuel with
  | nil =>
    obtain ⟨fuel, rfl⟩ := Nat.exists_eq_succ_of_ne_zero (Nat.ne_zero_of_lt hfuel)
    have hnext : pxNextFreeBlock m p = a := h
    rw [hnext]
    exact if_pos rfl
  | cons b bs ih =>
    obtain ⟨hb, hbs⟩ := roomy_cons.mp hroomy
    rw [List.length_cons] at hfuel
    obtain ⟨s, _ | o⟩ := b
    · obtain ⟨fuel, rfl⟩ := Nat.exists_eq_succ_of_ne_zero (Nat.ne_zero_of_lt hfuel)
      obtain ⟨hfirst, hs, hrest⟩ := h
      rw [total_cons, ← Nat.add_assoc] at hrest ⊢
      dsimp only at hb hrest ⊢
      rw [hfirst, walk, if_neg (by omega), hs, ih hrest hbs (by omega), frees_free]
    · obtain ⟨_, _, hrest⟩ := h
      rw [total_cons, ← Nat.add_assoc] at hrest ⊢
      rw [ih hrest hbs (by omega), frees_live]

/-- The free list in memory is the list of the free blocks. -/
theorem Tiled.freeBlocks_eq (ht : Tiled L h bs) :
    freeBlocks L h = frees (pucAlignedHeap L) bs := by
  rw [freeBlocks]
  rw [ht.pxEnd, ← ht.area]
  exact walk_eq (ht.area.symm ▸ ht.links) ht.roomy ht.length_lt

end FreeList

section Runs

namespace Session

variable {c c' : Session} {seen : List ℕ}

/-- The allocations, releases and writes that callers may make. -/
def Plain (c : Session) (e : HeapEvent) : Prop :=
  c.Admits e ∧ match e with
    | .calloc _ _ => False
    | .realloc _ _ => False
    | _ => True

instance decidablePlain (c : Session) (e : HeapEvent) : Decidable (Plain c e) :=
  match e with
  | .malloc _ => inferInstanceAs (Decidable (_ ∧ True))
  | .free pv => inferInstanceAs (Decidable (c.Holds pv ∧ True))
  | .calloc _ _ => inferInstanceAs (Decidable (_ ∧ False))
  | .realloc _ _ => inferInstanceAs (Decidable (_ ∧ False))
  | .store a b => inferInstanceAs (Decidable (c.Admits (.store a b) ∧ True))

/-- The values that `xFreeBytesRemaining` had after each call. -/
def record (_ : Session) (seen : List ℕ) (_ : HeapEvent) (c' : Session) : List ℕ :=
  c'.heap.xFreeBytesRemaining :: seen

/-- The free bytes right after the first initialisation. -/
def firstFree (L : Layout) : ℕ := endAddress L - pucAlignedHeap L

/-- The minimum kept is the least value that was ever left free. -/
def Minimal (L : Layout) (h : Heap) (seen : List ℕ) : Prop :=
  h.xFreeBytesRemaining ∈ firstFree L :: seen ∧
    h.xMinimumEverFreeBytesRemaining ∈ firstFree L :: seen ∧
      ∀ v ∈ firstFree L :: seen, h.xMinimumEverFreeBytesRemaining ≤ v

theorem start_minimal (L : Layout) (m : Mem) :
    Minimal L (initialised L (start m).heap) [] := by
  have ht := prvHeapInit_tiled L (start m).heap
  have hfree : (prvHeapInit L (start m).heap).xFreeBytesRemaining = firstFree L :=
    ht.free.trans (Nat.add_zero _)
  have hinit : initialised L (start m).heap = prvHeapInit L (start m).heap := if_pos rfl
  rw [Minimal]
  rw [hinit, prvHeapInit_minimum, hfree]
  simp

/-- A call that does not take the minimum below what is left free keeps it minimal. -/
theorem Minimal.cons {h h' : Heap} (hm : Minimal L h seen)
    (hmin : h'.xMinimumEverFreeBytesRemaining =
      min h.xMinimumEverFreeBytesRemaining h'.xFreeBytesRemaining) :
    Minimal L h' (h'.xFreeBytesRemaining :: seen) := by
  obtain ⟨_, hmem, hle⟩ := hm
  have hswap : ∀ v, v ∈ firstFree L :: h'.xFreeBytesRemaining :: seen ↔
      v = h'.xFreeBytesRemaining ∨ v ∈ firstFree L :: seen := by
    intro v
    simp only [List.mem_cons]
    exact or_left_comm
  refine ⟨(hswap _).mpr (.inl rfl), (hswap _).mpr ?_, fun v hv => ?_⟩
  · rw [hmin]
    rcases Nat.le_total h.xMinimumEverFreeBytesRemaining h'.xFreeBytesRemaining with h₁ | h₁
    · rw [Nat.min_eq_left h₁]
      exact .inr hmem
    · rw [Nat.min_eq_right h₁]
      exact .inl rfl
  · rw [hmin]
    rcases (hswap v).mp hv with rfl | hv
    · exact Nat.min_le_right _ _
    · exact (Nat.min_le_left _ _).trans (hle v hv)

theorem Minimal.le_free {h : Heap} (hm : Minimal L h seen) :
    h.xMinimumEverFreeBytesRemaining ≤ h.xFreeBytesRemaining := hm.2.2 _ hm.1

theorem plain_valid {e : HeapEvent} (hv : Valid L c) (hplain : Plain c e)
    (hstep : step L c e = .ok c') : Valid L c' := by
  obtain ⟨hadmits, hkind⟩ := hplain
  cases e with
  | malloc size => exact malloc_valid hv hstep
  | free pv => exact free_valid hv hadmits hstep
  | calloc num size => exact hkind.elim
  | realloc pv size => exact hkind.elim
  | store address byte => exact store_valid hv hadmits hstep

theorem plain_minimal {e : HeapEvent} (hv : Valid L c)
    (hm : Minimal L (initialised L c.heap) seen) (hplain : Plain c e)
    (hstep : step L c e = .ok c') :
    Minimal L (initialised L c'.heap) (c'.heap.xFreeBytesRemaining :: seen) := by
  obtain ⟨hadmits, hkind⟩ := hplain
  -- a call that keeps the minimum and does not take from the free bytes
  have hkeep : ∀ {h' : Heap} {bs' : List (Block ℕ)}, Tiled L h' bs' →
      h'.xMinimumEverFreeBytesRemaining = (initialised L c.heap).xMinimumEverFreeBytesRemaining →
      (initialised L c.heap).xFreeBytesRemaining ≤ h'.xFreeBytesRemaining →
      Minimal L (initialised L h') (h'.xFreeBytesRemaining :: seen) := by
    intro h' bs' ht' hmin hle
    rw [ht'.initialised_eq]
    apply hm.cons
    rw [hmin, Nat.min_eq_left (hm.le_free.trans hle)]
  cases e with
  | malloc size =>
    obtain ⟨_, bs, ht, _⟩ := hv
    rw [step] at hstep
    rcases pvPortMalloc_cases ht size with ⟨_, hcall⟩ | ⟨x, s, pre, post, h', _, hcall, ha⟩
    · rw [hcall, Fallible.ok_bind] at hstep
      obtain rfl := Fallible.pure_eq_ok.mp hstep
      exact hkeep ht rfl le_rfl
    · rw [hcall, Fallible.ok_bind] at hstep
      obtain rfl := Fallible.pure_eq_ok.mp hstep
      dsimp only
      rw [ha.tiled.initialised_eq]
      exact hm.cons ha.minimum
  | free pv =>
    obtain ⟨bs, ht, hperm⟩ := hv.of_holds hadmits
    obtain ⟨n, hn⟩ := hadmits
    obtain ⟨pre, s, post, rfl, rfl⟩ := block_of_holds hperm hn
    obtain ⟨h', hcall, ht', hmin, _⟩ := vPortFree_eq ht rfl
    rw [step, hcall, Fallible.ok_bind] at hstep
    obtain rfl := Fallible.pure_eq_ok.mp hstep
    refine hkeep ht' ?_ ?_
    · rw [hmin, ht.initialised_eq]
    · rw [ht.initialised_eq, ht.free, ht'.free, freeBytes_release, freeBytes_append,
        freeBytes_live]
      omega
  | calloc num size => exact hkind.elim
  | realloc pv size => exact hkind.elim
  | store address byte =>
    obtain ⟨⟨pv, n⟩, hn, _⟩ := id hadmits
    obtain ⟨_, ht, _⟩ := hv.of_holds ⟨n, hn⟩
    obtain ⟨_, ht', _⟩ := (store_valid hv hadmits hstep).2
    obtain rfl := Except.ok.inj hstep
    have hinit : initialised L c.heap = c.heap := ht.initialised_eq
    rw [hinit] at hkeep
    have hinit' : initialised L { c.heap with mem := store8 c.heap.mem address byte } =
        { c.heap with mem := store8 c.heap.mem address byte } := if_neg ht.end_pos
    dsimp only at ht' ⊢
    rw [hinit'] at ht'
    exact hkeep ht' rfl le_rfl

/-- The runs of allocations, releases and writes, with what was left free after each call. -/
abbrev PlainRuns (L : Layout) (m : Mem) (es : List HeapEvent) (c : Session)
    (seen : List ℕ) : Prop :=
  Run (Ghost record (Guarded Plain (ofExcept (step L)))) (start m, []) es (c, seen)

theorem plain_run {es : List HeapEvent} (hrun : PlainRuns L m es c seen) :
    Valid L c ∧ Minimal L (initialised L c.heap) seen := by
  refine hrun.invariant (I := fun s => Valid L s.1 ∧ Minimal L (initialised L s.1.heap) s.2)
    ?_ ⟨start_valid L m, start_minimal L m⟩
  rintro ⟨c, seen⟩ e ⟨c', seen'⟩ ⟨hv, hm⟩ ⟨⟨hplain, hstep⟩, hseen⟩
  dsimp only at *
  subst hseen
  exact ⟨plain_valid hv hplain hstep, plain_minimal hv hm hplain hstep⟩

/-- The blocks `bs` tile the area, and the variables and the free list of the heap `h` agree
with them. -/
structure Represented (L : Layout) (c : Session) (seen : List ℕ) (h : Heap)
    (bs : List (Block ℕ)) : Prop where
  tiles : pucAlignedHeap L + total bs = h.pxEnd
  sizes : ∀ b ∈ bs, 16 ≤ b.size ∧ b.size % 8 = 0
  held : c.live.Perm (holders L bs)
  free_list : freeBlocks L h = frees (pucAlignedHeap L) bs
  increasing : (freeBlocks L h).Pairwise fun x y => x.1 + x.2 < y.1
  remaining : h.xFreeBytesRemaining = ((freeBlocks L h).map Prod.snd).sum
  minimum_mem : h.xMinimumEverFreeBytesRemaining ∈ firstFree L :: seen
  minimum_le : ∀ v ∈ firstFree L :: seen, h.xMinimumEverFreeBytesRemaining ≤ v
  payload : ∀ p n, (p, n) ∈ c.live → p % 8 = 0 ∧ 8 ≤ p ∧
    (p - 8, getBlockSize h p, n) ∈ lives (pucAlignedHeap L) bs ∧
      p + n ≤ p - 8 + getBlockSize h p
  malloc_returns : ∀ size, ∃ h' p, pvPortMalloc L c.heap size = .ok (h', p) ∧ (p = 0 → h' = h)
  free_returns : ∀ p, c.Holds p → ∃ h', vPortFree L c.heap p = .ok h'

theorem heap_represented {es : List HeapEvent} (hrun : PlainRuns L m es c seen) :
    ∃ bs, Represented L c seen (initialised L c.heap) bs := by
  obtain ⟨hv, _, hmin, hle⟩ := plain_run hrun
  obtain ⟨_, bs, ht, hperm⟩ := id hv
  have hwalk := ht.freeBlocks_eq
  refine ⟨bs, ?_, ht.roomy, hperm, hwalk, ?_, ?_, hmin, hle, ?_, ?_, ?_⟩
  · rw [ht.area, ht.pxEnd]
  · rw [hwalk]
    exact ht.separated.frees_pairwise_lt (fun b hb => by have := (ht.sized b hb).1; omega) _
  · rw [hwalk, sum_frees, ht.free]
  · intro p n hpn
    obtain ⟨pre, s, post, rfl, rfl⟩ := block_of_holds hperm hpn
    have hs : n + 8 ≤ s := (ht.sized _ (List.mem_append_right _ List.mem_cons_self)).2.2 n rfl
    have hmod := (roomy_append.mp ht.roomy).1.total_mod
    have halign := L.alignedHeap_mod
    rw [getBlockSize_eq ht rfl, Nat.add_sub_cancel, lives_append, lives_live]
    exact ⟨by omega, by omega, List.mem_append_right _ List.mem_cons_self, by omega⟩
  · intro size
    rcases pvPortMalloc_cases ht size with ⟨_, hcall⟩ | ⟨x, s, pre, post, h', _, hcall, _⟩
    · exact ⟨_, _, hcall, fun _ => rfl⟩
    · exact ⟨h', x + 8, hcall, fun hnull => by omega⟩
  · intro p hp
    obtain ⟨bs', ht', hperm'⟩ := hv.of_holds hp
    obtain ⟨n, hn⟩ := hp
    obtain ⟨pre, s, post, rfl, rfl⟩ := block_of_holds hperm' hn
    obtain ⟨h', hcall, _⟩ := vPortFree_eq ht' rfl
    exact ⟨h', hcall⟩

/-- Two allocations, a write, a release and a request for nothing. -/
theorem heap_represented_after_release :
    ∃ c seen bs, c.live = [(536870936, 100)] ∧
      Represented .internal c seen (initialised .internal c.heap) bs := by
  obtain ⟨⟨c, seen⟩, hrun, hlive⟩ := Run.of_check_ghost Plain record (step .internal)
    (start fun _ => 255, [])
    [.malloc 8, .malloc 100, .store 536870940 7, .free 536870920, .malloc 0]
    (fun s => s.1.live) (x := [(536870936, 100)]) (by decide +kernel)
  obtain ⟨bs, hrep⟩ := heap_represented hrun
  exact ⟨c, seen, bs, hlive, hrep⟩

end Session

end Runs

end RmMicroControllers
