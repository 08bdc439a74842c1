import RmMicroControllers.Freertos.Reallocation

/-!
# What the heap tells about itself

`vPortGetHeapStats` walks the free list and copies the counters. The walk tests for the end
only behind its first block, so on a heap without a free block it reads through the null link
of `pxEnd`. Wherever it returns, the report is exact, and its largest block decides which
requests succeed.
-/

namespace RmMicroControllers

open Memory Segments Transition

/-- How the walk can end other than by returning. -/
inductive StatsFault where
  | nullRead
  | diverges
  deriving DecidableEq, Repr

/-- `HeapStats_t` -/
structure HeapStats where
  xAvailableHeapSpaceInBytes : ℕ
  xSizeOfLargestFreeBlockInBytes : ℕ
  xSizeOfSmallestFreeBlockInBytes : ℕ
  xNumberOfFreeBlocks : ℕ
  xMinimumEverFreeBytesRemaining : ℕ
  xNumberOfSuccessfulAllocations : UInt32
  xNumberOfSuccessfulFrees : UInt32

section Walk

/-- The local variables of `vPortGetHeapStats` beside `pxBlock`. -/
structure StatsLocals where
  xBlocks : ℕ
  xMaxSize : ℕ
  xMinSize : ℕ

namespace StatsLocals

/-- `xMinSize` starts at `portMAX_DELAY`. -/
def initial : StatsLocals := { xBlocks := 0, xMaxSize := 0, xMinSize := 4294967295 }

@[simp] theorem initial_xBlocks : initial.xBlocks = 0 := rfl
@[simp] theorem initial_xMaxSize : initial.xMaxSize = 0 := rfl
@[simp] theorem initial_xMinSize : initial.xMinSize = 4294967295 := rfl

/-- The body of the loop for a block of `size` bytes. -/
def see (v : StatsLocals) (size : ℕ) : StatsLocals :=
  { xBlocks := (v.xBlocks + 1) % 4294967296
    xMaxSize := if v.xMaxSize < size then size else v.xMaxSize
    xMinSize := if size < v.xMinSize then size else v.xMinSize }

end StatsLocals

/-- `do … while (pxBlock != pxEnd)` -/
def statsLoop (m : Mem) (pxEnd : ℕ) : ℕ → ℕ → StatsLocals → Except StatsFault StatsLocals
  | 0, _, _ => .error .diverges
  | fuel + 1, pxBlock, v =>
    if pxBlock = 0 then .error .nullRead
    else if pxNextFreeBlock m pxBlock ≠ pxEnd then
      statsLoop m pxEnd fuel (pxNextFreeBlock m pxBlock) (v.see (xBlockSize m pxBlock))
    else .ok (v.see (xBlockSize m pxBlock))

def vPortGetHeapStats (L : Layout) (h : Heap)
    (xNumberOfSuccessfulAllocations xNumberOfSuccessfulFrees : UInt32) :
    Except StatsFault HeapStats := do
  let v ←
    if pxNextFreeBlock h.mem L.xStart ≠ 0 then
      statsLoop h.mem h.pxEnd configTOTAL_HEAP_SIZE (pxNextFreeBlock h.mem L.xStart) .initial
    else pure .initial
  pure
    { xAvailableHeapSpaceInBytes := h.xFreeBytesRemaining
      xSizeOfLargestFreeBlockInBytes := v.xMaxSize
      xSizeOfSmallestFreeBlockInBytes := v.xMinSize
      xNumberOfFreeBlocks := v.xBlocks
      xMinimumEverFreeBytesRemaining := h.xMinimumEverFreeBytesRemaining
      xNumberOfSuccessfulAllocations := xNumberOfSuccessfulAllocations
      xNumberOfSuccessfulFrees := xNumberOfSuccessfulFrees }

variable {α : Type*} {m : Mem} {p a e : ℕ} {bs : List (Block α)} {v : StatsLocals}

/-- The first link leads past blocks of which none is free. -/
theorem Links.next_of_frees_nil (h : Links m p a bs e) (hnone : frees a bs = []) :
    pxNextFreeBlock m p = e := by
  rcases h.next_mem with hend | ⟨s, hmem⟩
  · exact hend
  · rw [hnone] at hmem
    cases hmem

/-- The first link does not lead past blocks of which one is free. -/
theorem Links.next_lt_of_frees (h : Links m p a bs (a + total bs)) (hroomy : Roomy bs)
    (hsome : frees a bs ≠ []) : pxNextFreeBlock m p < a + total bs := by
  induction bs generalizing p a with
  | nil => exact absurd rfl hsome
  | cons b bs ih =>
    obtain ⟨hb, hbs⟩ := roomy_cons.mp hroomy
    rw [total_cons]
    obtain ⟨s, _ | o⟩ := b
    · dsimp only at hb ⊢
      have hfirst : pxNextFreeBlock m p = a := h.1
      omega
    · rw [← Nat.add_assoc]
      rw [frees_live] at hsome
      apply ih _ hbs hsome
      rw [Nat.add_assoc]
      exact h.2.2

/-- The walk sees the sizes of the free blocks in their order. -/
theorem statsLoop_eq (h : Links m p a bs (a + total bs)) (hroomy : Roomy bs) (ha : 0 < a)
    (hsome : frees a bs ≠ []) {fuel : ℕ} (hfuel : bs.length < fuel) :
    statsLoop m (a + total bs) fuel (pxNextFreeBlock m p) v =
      .ok (((frees a bs).map Prod.snd).foldl StatsLocals.see v) := by
  induction bs generalizing p a fuel v with
  | nil => exact absurd rfl hsome
  | cons b bs ih =>
    obtain ⟨hb, hbs⟩ := roomy_cons.mp hroomy
    rw [List.length_cons] at hfuel
    obtain ⟨s, _ | o⟩ := b
    · obtain ⟨fuel, rfl⟩ := Nat.exists_eq_succ_of_ne_zero (Nat.ne_zero_of_lt hfuel)
      obtain ⟨hfirst, hs, hrest⟩ := h
      rw [total_cons, ← Nat.add_assoc] at hrest ⊢
      dsimp only at hb hrest ⊢
      rw [hfirst, statsLoop, if_neg (by omega), hs, frees_free, List.map_cons, List.foldl_cons]
      by_cases hlast : frees (a + s) bs = []
      · rw [hrest.next_of_frees_nil hlast, if_neg (by simp), hlast]
        rfl
      · have hlt := hrest.next_lt_of_frees hbs hlast
        rw [if_pos (by omega)]
        exact ih hrest hbs (by omega) hlast (by omega)
    · obtain ⟨_, _, hrest⟩ := h
      rw [total_cons, ← Nat.add_assoc] at hrest ⊢
      exact ih hrest hbs (by omega) hsome (by omega)

/-- Without a free block the walk goes on from the end through its null link. -/
theorem statsLoop_exhausted (hnext : pxNextFreeBlock m p = e) (hend : pxNextFreeBlock m e = 0)
    (he : e ≠ 0) {fuel : ℕ} (hfuel : 2 ≤ fuel) :
    statsLoop m e fuel (pxNextFreeBlock m p) v = .error .nullRead := by
  obtain ⟨fuel, rfl⟩ := Nat.exists_eq_add_of_le' hfuel
  rw [hnext, statsLoop, if_neg he, hend, if_pos he.symm, statsLoop, if_pos rfl]

end Walk

section Summary

namespace StatsLocals

variable {sizes : List ℕ} {v : StatsLocals}

theorem foldl_xBlocks (hlen : v.xBlocks + sizes.length < 4294967296) :
    (sizes.foldl see v).xBlocks = v.xBlocks + sizes.length := by
  induction sizes generalizing v with
  | nil => rfl
  | cons s sizes ih =>
    rw [List.length_cons] at hlen
    have hsee : (v.see s).xBlocks = v.xBlocks + 1 := Nat.mod_eq_of_lt (by omega)
    rw [List.foldl_cons, ih (by omega), hsee, List.length_cons]
    omega

/-- A field that each block replaces or keeps, whichever comes first in the order `r`. -/
theorem foldl_extreme {r : ℕ → ℕ → Prop} (field : StatsLocals → ℕ) (hrefl : ∀ x, r x x)
    (htrans : ∀ x y z, r x y → r y z → r x z)
    (hsee : ∀ v s, field (see v s) ∈ [field v, s] ∧ r (field (see v s)) (field v) ∧
      r (field (see v s)) s) :
    field (sizes.foldl see v) ∈ field v :: sizes ∧
      ∀ s ∈ field v :: sizes, r (field (sizes.foldl see v)) s := by
  induction sizes generalizing v with
  | nil => exact ⟨List.mem_cons_self, List.forall_mem_singleton.mpr (hrefl _)⟩
  | cons s sizes ih =>
    obtain ⟨hmem, hall⟩ := ih (v := v.see s)
    obtain ⟨hfirst, hrest⟩ := List.forall_mem_cons.mp hall
    obtain ⟨hkept, hold, hnew⟩ := hsee v s
    rw [List.foldl_cons]
    constructor
    · rcases List.mem_cons.mp hmem with heq | hlater
      · rw [heq]
        exact List.mem_append_left sizes hkept
      · exact List.mem_cons_of_mem _ (List.mem_cons_of_mem _ hlater)
    · have hold' := htrans _ _ _ hfirst hold
      have hnew' := htrans _ _ _ hfirst hnew
      exact List.forall_mem_cons.mpr ⟨hold', List.forall_mem_cons.mpr ⟨hnew', hrest⟩⟩

/-- The largest size is one that was seen, and no size that was seen is larger. -/
theorem foldl_xMaxSize (v : StatsLocals) (sizes : List ℕ) :
    (sizes.foldl see v).xMaxSize ∈ v.xMaxSize :: sizes ∧
      ∀ s ∈ v.xMaxSize :: sizes, s ≤ (sizes.foldl see v).xMaxSize := by
  apply foldl_extreme (r := fun x y => y ≤ x) xMaxSize le_refl fun _ _ _ h h' => h'.trans h
  intro v s
  rw [see]
  dsimp only
  split <;> simp <;> omega

/-- The smallest size is one that was seen, and no size that was seen is smaller. -/
theorem foldl_xMinSize (v : StatsLocals) (sizes : List ℕ) :
    (sizes.foldl see v).xMinSize ∈ v.xMinSize :: sizes ∧
      ∀ s ∈ v.xMinSize :: sizes, (sizes.foldl see v).xMinSize ≤ s := by
  apply foldl_extreme (r := fun x y => x ≤ y) xMinSize le_refl fun _ _ _ => le_trans
  intro v s
  rw [see]
  dsimp only
  split <;> simp <;> omega

end StatsLocals

end Summary

section Counters

/-- `xNumberOfSuccessfulAllocations` after `pvPortMalloc` returned `pvReturn`: the branch that
takes a block is the one that sets `pvReturn`. -/
def countAllocation (pvReturn : ℕ) (n : UInt32) : UInt32 := if pvReturn = 0 then n else n + 1

/-- `xNumberOfSuccessfulFrees` after `vPortFree` of `pv` returned. -/
def countFree (pv : ℕ) (n : UInt32) : UInt32 := if pv = 0 then n else n + 1

/-- The session of the callers and the two counters of calls. -/
structure CountedSession extends Session where
  xNumberOfSuccessfulAllocations : UInt32
  xNumberOfSuccessfulFrees : UInt32

namespace CountedSession

def start (m : Mem) : CountedSession :=
  { Session.start m with xNumberOfSuccessfulAllocations := 0, xNumberOfSuccessfulFrees := 0 }

def step (L : Layout) (c : CountedSession) : HeapEvent → Except HeapFault CountedSession
  | .malloc size => do
    let r ← pvPortMalloc L c.heap size
    pure
      { heap := r.1, live := Session.hold r.2 size.toNat c.live
        xNumberOfSuccessfulAllocations := countAllocation r.2 c.xNumberOfSuccessfulAllocations
        xNumberOfSuccessfulFrees := c.xNumberOfSuccessfulFrees }
  | .free pv => do
    let h ← vPortFree L c.heap pv
    pure
      { heap := h, live := Session.drop pv c.live
        xNumberOfSuccessfulAllocations := c.xNumberOfSuccessfulAllocations
        xNumberOfSuccessfulFrees := countFree pv c.xNumberOfSuccessfulFrees }
  | .calloc num size => do
    let r ← pvPortCalloc L c.heap num size
    pure
      { heap := r.1, live := Session.hold r.2 (size * num).toNat c.live
        xNumberOfSuccessfulAllocations := countAllocation r.2 c.xNumberOfSuccessfulAllocations
        xNumberOfSuccessfulFrees := c.xNumberOfSuccessfulFrees }
  | .realloc pv size => do
    let r ← pvPortRealloc L c.heap pv size
    pure
      { heap := r.1, live := Session.hold r.2 size.toNat (Session.drop pv c.live)
        xNumberOfSuccessfulAllocations := countAllocation r.2 c.xNumberOfSuccessfulAllocations
        xNumberOfSuccessfulFrees := countFree pv c.xNumberOfSuccessfulFrees }
  | .store address byte =>
    .ok { c with heap := { c.heap with mem := store8 c.heap.mem address byte } }

/-- The runs that free only what is held and keep every reallocation inside its block. -/
abbrev Runs (L : Layout) (m : Mem) (es : List HeapEvent) (c : CountedSession) : Prop :=
  Run (Guarded (fun c e => Session.Sound L c.toSession e) (ofExcept (step L))) (start m) es c

variable {L : Layout} {m : Mem} {c c' : CountedSession} {es : List HeapEvent}

/-- As many allocations succeeded as blocks were freed or are held. -/
def Counts (c : CountedSession) : Prop :=
  c.xNumberOfSuccessfulAllocations =
    c.xNumberOfSuccessfulFrees + UInt32.ofNat c.live.length

/-- Forgetting the counters gives back the session. -/
theorem toSession_step {e : HeapEvent} (hstep : step L c e = .ok c') :
    Session.step L c.toSession e = .ok c'.toSession := by
  cases e with
  | malloc size =>
    obtain ⟨r, hr, hstep⟩ := Fallible.bind_eq_ok.mp hstep
    obtain rfl := Fallible.pure_eq_ok.mp hstep
    rw [Session.step, hr]
    rfl
  | free pv =>
    obtain ⟨h, hh, hstep⟩ := Fallible.bind_eq_ok.mp hstep
    obtain rfl := Fallible.pure_eq_ok.mp hstep
    rw [Session.step, hh]
    rfl
  | calloc num size =>
    obtain ⟨r, hr, hstep⟩ := Fallible.bind_eq_ok.mp hstep
    obtain rfl := Fallible.pure_eq_ok.mp hstep
    rw [Session.step, hr]
    rfl
  | realloc pv size =>
    obtain ⟨r, hr, hstep⟩ := Fallible.bind_eq_ok.mp hstep
    obtain rfl := Fallible.pure_eq_ok.mp hstep
    rw [Session.step, hr]
    rfl
  | store address byte =>
    obtain rfl := Except.ok.inj hstep
    rfl

theorem runs_valid (hrun : Runs L m es c) : Session.Valid L c.toSession := by
  apply hrun.invariant (I := fun c => Session.Valid L c.toSession) _ (Session.start_valid L m)
  exact fun c e c' hv hstep => Session.sound_valid hv hstep.1 (toSession_step hstep.2)

/-- Releasing a pointer that is held takes exactly it from what is held. -/
theorem length_drop {pv : ℕ} (hv : Session.Valid L c.toSession) (hpv : c.Holds pv) :
    pv ≠ 0 ∧ (Session.drop pv c.live).length + 1 = c.live.length := by
  obtain ⟨bs, ht, hperm⟩ := hv.of_holds hpv
  obtain ⟨n, hn⟩ := hpv
  obtain ⟨pre, s, post, rfl, rfl⟩ := Session.block_of_holds hperm hn
  have hbefore := hperm.length_eq
  have hafter := (Session.holders_release rfl ht.roomy hperm).length_eq
  rw [Session.holders, List.length_map] at hbefore hafter
  rw [lives_append, List.length_append, lives_live, List.length_cons] at hbefore
  rw [lives_release, List.length_append] at hafter
  exact ⟨by omega, by omega⟩

/-- A successful request adds one to both sides, and a failed one nothing. -/
theorem Counts.hold {p n : ℕ} {a f : UInt32} {live : List (ℕ × ℕ)}
    (h : a = f + UInt32.ofNat live.length) :
    countAllocation p a = f + UInt32.ofNat (Session.hold p n live).length := by
  rw [countAllocation, Session.hold]
  split
  · exact h
  · rw [List.length_cons, UInt32.ofNat_add, ← UInt32.add_assoc, h]
    rfl

theorem Counts.drop {pv : ℕ} {a f : UInt32} (hv : Session.Valid L c.toSession)
    (hpv : c.Holds pv) (h : a = f + UInt32.ofNat c.live.length) :
    a = countFree pv f + UInt32.ofNat (Session.drop pv c.live).length := by
  obtain ⟨hpos, hlen⟩ := length_drop hv hpv
  rw [countFree]
  rw [if_neg hpos, h, ← hlen, UInt32.ofNat_add, UInt32.add_assoc f 1, UInt32.add_comm 1]
  rfl

theorem step_counts {e : HeapEvent} (hv : Session.Valid L c.toSession)
    (hsound : Session.Sound L c.toSession e) (hstep : step L c e = .ok c') (hc : Counts c) :
    Counts c' := by
  obtain ⟨hadmits, _⟩ := hsound
  cases e with
  | malloc size =>
    obtain ⟨r, _, hstep⟩ := Fallible.bind_eq_ok.mp hstep
    obtain rfl := Fallible.pure_eq_ok.mp hstep
    exact Counts.hold hc
  | free pv =>
    obtain ⟨h, _, hstep⟩ := Fallible.bind_eq_ok.mp hstep
    obtain rfl := Fallible.pure_eq_ok.mp hstep
    exact Counts.drop hv hadmits hc
  | calloc num size =>
    obtain ⟨r, _, hstep⟩ := Fallible.bind_eq_ok.mp hstep
    obtain rfl := Fallible.pure_eq_ok.mp hstep
    exact Counts.hold hc
  | realloc pv size =>
    obtain ⟨r, _, hstep⟩ := Fallible.bind_eq_ok.mp hstep
    obtain rfl := Fallible.pure_eq_ok.mp hstep
    exact Counts.hold (Counts.drop hv hadmits hc)
  | store address byte =>
    obtain rfl := Except.ok.inj hstep
    exact hc

/-- Every request initialises the heap, and nothing else is possible before the first one. -/
theorem step_initialises {e : HeapEvent} (hv : Session.Valid L c.toSession)
    (hsound : Session.Sound L c.toSession e) (hstep : step L c e = .ok c') :
    c'.heap.pxEnd ≠ 0 := by
  obtain ⟨_, bs, ht, _⟩ := id hv
  obtain ⟨hadmits, hfits⟩ := hsound
  cases e with
  | malloc size =>
    rw [step] at hstep
    rcases pvPortMalloc_cases ht size with ⟨_, hcall⟩ | ⟨_, _, _, _, h', _, hcall, ha⟩
    · rw [hcall, Fallible.ok_bind] at hstep
      obtain rfl := Fallible.pure_eq_ok.mp hstep
      exact ht.end_pos
    · rw [hcall, Fallible.ok_bind] at hstep
      obtain rfl := Fallible.pure_eq_ok.mp hstep
      exact ha.tiled.end_pos
  | free pv =>
    obtain ⟨bs, ht, hperm⟩ := hv.of_holds hadmits
    obtain ⟨n, hn⟩ := hadmits
    obtain ⟨pre, s, post, rfl, rfl⟩ := Session.block_of_holds hperm hn
    obtain ⟨h', hcall, ht', _⟩ := vPortFree_eq ht rfl
    rw [step, hcall, Fallible.ok_bind] at hstep
    obtain rfl := Fallible.pure_eq_ok.mp hstep
    exact ht'.end_pos
  | calloc num size =>
    rw [step] at hstep
    rcases pvPortCalloc_cases ht num size with ⟨_, hcall⟩ |
      ⟨_, _, _, _, h₁, _, _, _, ha, hcall, _⟩
    · rw [hcall] at hstep
      split at hstep
      · rw [Fallible.ok_bind] at hstep
        obtain rfl := Fallible.pure_eq_ok.mp hstep
        exact ht.end_pos
      · cases hstep
    · rw [hcall, Fallible.ok_bind] at hstep
      obtain rfl := Fallible.pure_eq_ok.mp hstep
      exact ha.tiled.end_pos
  | realloc pv size =>
    rw [step] at hstep
    rcases Session.realloc_cases hv hadmits hfits with ⟨_, hfault⟩ |
      ⟨_, _, _, _, _, _, _, hcall, _, _, _, _, ht', _⟩
    · rw [hfault] at hstep
      cases hstep
    · rw [hcall, Fallible.ok_bind] at hstep
      obtain rfl := Fallible.pure_eq_ok.mp hstep
      exact ht'.end_pos
  | store address byte =>
    obtain ⟨⟨pv, n⟩, hn, _⟩ := hadmits
    obtain ⟨_, ht', _⟩ := hv.of_holds ⟨n, hn⟩
    obtain rfl := Except.ok.inj hstep
    exact ht'.end_pos

/-- What every run keeps: the balance of the counters, and the memory before the first call. -/
theorem runs_counts (hrun : Runs L m es c) :
    Counts c ∧ (c.heap.pxEnd = 0 → c = start m) := by
  have hinv := hrun.invariant (I := fun c => Session.Valid L c.toSession ∧ Counts c ∧
      (c.heap.pxEnd = 0 → c = start m)) ?_ ⟨Session.start_valid L m, rfl, fun _ => rfl⟩
  · exact hinv.2
  · rintro c e c' ⟨hv, hc, _⟩ ⟨hsound, hstep⟩
    refine ⟨Session.sound_valid hv hsound (toSession_step hstep),
      step_counts hv hsound hstep hc, fun hnull => ?_⟩
    exact absurd hnull (step_initialises hv hsound hstep)

end CountedSession

end Counters

section Report

namespace CountedSession

variable {L : Layout} {m : Mem} {c : CountedSession} {es : List HeapEvent}

/-- What the report says of the heap, of the calls and of the next request. -/
structure Reports (L : Layout) (c : CountedSession) (s : HeapStats) : Prop where
  blocks : s.xNumberOfFreeBlocks = (freeBlocks L c.heap).length
  available : s.xAvailableHeapSpaceInBytes = ((freeBlocks L c.heap).map Prod.snd).sum
  largest_mem : s.xSizeOfLargestFreeBlockInBytes ∈ (freeBlocks L c.heap).map Prod.snd
  le_largest : ∀ b ∈ freeBlocks L c.heap, b.2 ≤ s.xSizeOfLargestFreeBlockInBytes
  smallest_mem : s.xSizeOfSmallestFreeBlockInBytes ∈ (freeBlocks L c.heap).map Prod.snd
  smallest_le : ∀ b ∈ freeBlocks L c.heap, s.xSizeOfSmallestFreeBlockInBytes ≤ b.2
  counts : s.xNumberOfSuccessfulAllocations =
    s.xNumberOfSuccessfulFrees + UInt32.ofNat c.live.length
  serves : ∀ size, (∃ h' p, pvPortMalloc L c.heap size = .ok (h', p) ∧ p ≠ 0) ↔
    0 < size.toNat ∧ roundedSize size.toNat ≤ s.xSizeOfLargestFreeBlockInBytes

/-- The report of a heap that no call has initialised. -/
def idle : HeapStats :=
  { xAvailableHeapSpaceInBytes := 0, xSizeOfLargestFreeBlockInBytes := 0
    xSizeOfSmallestFreeBlockInBytes := 4294967295, xNumberOfFreeBlocks := 0
    xMinimumEverFreeBytesRemaining := 0, xNumberOfSuccessfulAllocations := 0
    xNumberOfSuccessfulFrees := 0 }

/-- The report of the counted heap. -/
def stats (L : Layout) (c : CountedSession) : Except StatsFault HeapStats :=
  vPortGetHeapStats L c.heap c.xNumberOfSuccessfulAllocations c.xNumberOfSuccessfulFrees

/-- The three outcomes of `vPortGetHeapStats`. -/
def StatsOutcome (L : Layout) (c : CountedSession) : Prop :=
  if c.heap.pxEnd = 0 then stats L c = .ok idle
  else if freeBlocks L c.heap = [] then stats L c = .error .nullRead
  else ∃ s, stats L c = .ok s ∧ Reports L c s

/-- A request is served exactly when the largest free block is large enough. -/
theorem malloc_succeeds_iff {h : Heap} {bs : List (Block ℕ)} {largest : ℕ} (ht : Tiled L h bs)
    (hmem : largest ∈ (frees (pucAlignedHeap L) bs).map Prod.snd)
    (hle : ∀ b ∈ frees (pucAlignedHeap L) bs, b.2 ≤ largest) (size : UInt32) :
    (∃ h' p, pvPortMalloc L h size = .ok (h', p) ∧ p ≠ 0) ↔
      0 < size.toNat ∧ roundedSize size.toNat ≤ largest := by
  have hinit := ht.initialised_eq
  constructor
  · rintro ⟨h', p, hcall, hp⟩
    rcases pvPortMalloc_cases (hinit.symm ▸ ht) size with ⟨_, hnone⟩ |
      ⟨x, s, pre, post, _, _, _, ha⟩
    · have hnull := congrArg Prod.snd (Except.ok.inj (hcall.symm.trans hnone))
      exact absurd hnull hp
    · have hfree : (x, s) ∈ frees (pucAlignedHeap L) bs := ha.blocks ▸ mem_frees_mid ha.address
      exact ⟨ha.request_pos, ha.fits.trans (hle _ hfree)⟩
  · rintro ⟨hpos, hfits⟩
    rcases pvPortMalloc_cases (hinit.symm ▸ ht) size with ⟨hnone, _⟩ |
      ⟨x, s, pre, post, h', _, hcall, _⟩
    · obtain ⟨b, hb, rfl⟩ := List.mem_map.mp hmem
      rw [firstFit, if_neg (by omega), List.find?_eq_none] at hnone
      exact absurd (decide_eq_true hfits) (hnone b hb)
    · exact ⟨h', x + 8, hcall, by omega⟩

/-- What the walk returns on a heap with a free block is exact. -/
theorem reports_of_tiled {bs : List (Block ℕ)} {v : StatsLocals} (ht : Tiled L c.heap bs)
    (hsome : frees (pucAlignedHeap L) bs ≠ []) (hcounts : Counts c)
    (hv : ((frees (pucAlignedHeap L) bs).map Prod.snd).foldl StatsLocals.see .initial = v) :
    Reports L c
      { xAvailableHeapSpaceInBytes := c.heap.xFreeBytesRemaining
        xSizeOfLargestFreeBlockInBytes := v.xMaxSize
        xSizeOfSmallestFreeBlockInBytes := v.xMinSize
        xNumberOfFreeBlocks := v.xBlocks
        xMinimumEverFreeBytesRemaining := c.heap.xMinimumEverFreeBytesRemaining
        xNumberOfSuccessfulAllocations := c.xNumberOfSuccessfulAllocations
        xNumberOfSuccessfulFrees := c.xNumberOfSuccessfulFrees } := by
  have hwalk := ht.freeBlocks_eq
  have hsizes : ∀ s ∈ (frees (pucAlignedHeap L) bs).map Prod.snd, 0 < s ∧ s < 4294967295 := by
    intro s hs
    obtain ⟨b, hb, rfl⟩ := List.mem_map.mp hs
    have hmin := ht.roomy.le_of_mem_frees hb
    have hbound := (frees_bounds hb).2
    have hlt := L.endAddress_lt
    rw [ht.area] at hbound
    omega
  have hblocks : v.xBlocks = (frees (pucAlignedHeap L) bs).length := by
    have hle := length_frees_add_lives (pucAlignedHeap L) bs
    have hlt := ht.length_lt
    rw [configTOTAL_HEAP_SIZE] at hlt
    rw [← hv, StatsLocals.foldl_xBlocks, StatsLocals.initial_xBlocks, List.length_map,
      Nat.zero_add]
    rw [StatsLocals.initial_xBlocks, List.length_map]
    omega
  obtain ⟨hmax, hle⟩ := StatsLocals.foldl_xMaxSize .initial
    ((frees (pucAlignedHeap L) bs).map Prod.snd)
  obtain ⟨hmin, hge⟩ := StatsLocals.foldl_xMinSize .initial
    ((frees (pucAlignedHeap L) bs).map Prod.snd)
  rw [hv] at hmax hle hmin hge
  replace hle := (List.forall_mem_cons.mp hle).2
  replace hge := (List.forall_mem_cons.mp hge).2
  -- neither extreme is the value that the walk starts from
  obtain ⟨b, hb⟩ := List.exists_mem_of_ne_nil _ hsome
  have hb := List.mem_map_of_mem (f := Prod.snd) hb
  have hbounds := hsizes _ hb
  have hleb := hle _ hb
  have hgeb := hge _ hb
  replace hmax := (List.mem_cons.mp hmax).resolve_left fun heq => by
    rw [StatsLocals.initial_xMaxSize] at heq
    omega
  replace hmin := (List.mem_cons.mp hmin).resolve_left fun heq => by
    rw [StatsLocals.initial_xMinSize] at heq
    omega
  have hlargest : ∀ b ∈ frees (pucAlignedHeap L) bs, b.2 ≤ v.xMaxSize :=
    fun b hb => hle _ (List.mem_map_of_mem hb)
  have hsmallest : ∀ b ∈ frees (pucAlignedHeap L) bs, v.xMinSize ≤ b.2 :=
    fun b hb => hge _ (List.mem_map_of_mem hb)
  have havailable : c.heap.xFreeBytesRemaining =
      ((frees (pucAlignedHeap L) bs).map Prod.snd).sum := by
    rw [sum_frees, ht.free]
  have hserves := malloc_succeeds_iff ht hmax hlargest
  rw [← hwalk] at hblocks hmax hlargest hmin hsmallest havailable
  exact ⟨hblocks, havailable, hmax, hlargest, hmin, hsmallest, hcounts, hserves⟩

theorem stats_outcome (hzero : pxNextFreeBlock m L.xStart = 0) (hrun : Runs L m es c) :
    StatsOutcome L c := by
  obtain ⟨hcounts, huntouched⟩ := runs_counts hrun
  obtain ⟨_, bs, ht, _⟩ := runs_valid hrun
  rw [StatsOutcome]
  split
  · next hnull =>
    obtain rfl := huntouched hnull
    have hnext : pxNextFreeBlock (start m).heap.mem L.xStart = 0 := hzero
    rw [stats, vPortGetHeapStats, if_neg (by simp [hnext])]
    rfl
  next hnull =>
  have hinit : initialised L c.heap = c.heap := if_neg hnull
  rw [hinit] at ht
  have hwalk := ht.freeBlocks_eq
  have hlinks := ht.area.symm ▸ ht.links
  have hfirst : pxNextFreeBlock c.heap.mem L.xStart ≠ 0 := by
    have hle := hlinks.le_next
    have hpos := L.alignedHeap_pos
    omega
  rw [stats, vPortGetHeapStats, if_pos hfirst]
  split
  · next hnone =>
    have hnext := ht.links.next_of_frees_nil (hwalk ▸ hnone)
    rw [ht.pxEnd, statsLoop_exhausted hnext ht.end_next (ht.pxEnd ▸ ht.end_pos) (by decide)]
    rfl
  · next hsome =>
    rw [hwalk] at hsome
    have hloop := statsLoop_eq (v := .initial) hlinks ht.roomy L.alignedHeap_pos hsome
      ht.length_lt
    rw [ht.area, ← ht.pxEnd] at hloop
    rw [hloop]
    exact ⟨_, rfl, reports_of_tiled ht hsome hcounts rfl⟩

/-- A run that leaves two free blocks, and one that leaves none. -/
theorem stats_outcome_two :
    (∃ c s, c.live = [(536870936, 100)] ∧ stats .internal c = .ok s ∧ Reports .internal c s) ∧
      ∃ c, c.live = [(536870920, 59984)] ∧ stats .internal c = .error .nullRead := by
  constructor
  · obtain ⟨c, hrun, hend⟩ := Run.of_check (fun c e => Session.Sound .internal c.toSession e)
      (step .internal) (start fun _ => 0) [.malloc 8, .malloc 100, .free 536870920]
      (fun c => (c.live, decide (c.heap.pxEnd = 0), decide (freeBlocks .internal c.heap = [])))
      (x := ([(536870936, 100)], false, false)) (by decide +kernel)
    simp only [Prod.mk.injEq, decide_eq_false_iff_not] at hend
    obtain ⟨hlive, hend, hsome⟩ := hend
    have hout := stats_outcome (by decide) hrun
    rw [StatsOutcome, if_neg hend, if_neg hsome] at hout
    obtain ⟨s, hs, hreports⟩ := hout
    exact ⟨c, s, hlive, hs, hreports⟩
  · obtain ⟨c, hrun, hend⟩ := Run.of_check (fun c e => Session.Sound .internal c.toSession e)
      (step .internal) (start fun _ => 0) [.malloc 59984]
      (fun c => (c.live, decide (c.heap.pxEnd = 0), decide (freeBlocks .internal c.heap = [])))
      (x := ([(536870920, 59984)], false, true)) (by decide +kernel)
    simp only [Prod.mk.injEq, decide_eq_false_iff_not, decide_eq_true_eq] at hend
    obtain ⟨hlive, hend, hnone⟩ := hend
    have hout := stats_outcome (by decide) hrun
    rw [StatsOutcome, if_neg hend, if_pos hnone] at hout
    exact ⟨c, hlive, hout⟩

end CountedSession

end Report

end RmMicroControllers
