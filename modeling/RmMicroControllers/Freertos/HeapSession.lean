import RmMicroControllers.Freertos.HeapInvariant
import RmMicroControllers.Library.Run

/-!
# Sequences of heap calls

A `Session` is the heap with what its callers hold: the pointers they got and have not given
back, each with the number of bytes asked for. The holders write into their blocks between
the calls. Every session that frees only what is held, and whose reallocations stay inside
the new block, keeps the heap tiled by the blocks held and the free ones.
-/

namespace RmMicroControllers

open Memory Segments Transition

section Payload

variable {L : Layout} {h : Heap} {bs pre post : List (Block ℕ)} {m' : Mem} {x s n : ℕ}

/-- The payload of a block is no part of a header. -/
theorem Tiled.write_payload (ht : Tiled L h (pre ++ ⟨s, some n⟩ :: post))
    (hx : pucAlignedHeap L + total pre = x) (hagree : AgreeOff (Within (x + 8) (s - 8)) m' h.mem) :
    Tiled L { h with mem := m' } (pre ++ ⟨s, some n⟩ :: post) := by
  obtain ⟨_, _, _, hmin, harea, _⟩ := ht.header hx
  obtain ⟨hpre, hnull, hsize, hrest⟩ := links_append.mp ht.links
  obtain ⟨hroomy, hroomy'⟩ := roomy_append.mp ht.roomy
  have hroomyPost := (roomy_cons.mp hroomy').2
  have hxStart := L.xStart_apart
  have hlast := hroomy.lastFree_bounds L.xStart (pucAlignedHeap L)
  have hout : ∀ r, (r + 8 ≤ x + 8 ∨ x + s ≤ r) →
      pxNextFreeBlock m' r = pxNextFreeBlock h.mem r ∧ xBlockSize m' r = xBlockSize h.mem r := by
    intro r hr
    have hapart : ∀ y, Within r 8 y → ¬Within (x + 8) (s - 8) y :=
      fun y hy => hy.apart (by omega)
    exact ⟨next_of_agreeOff hagree hapart, size_of_agreeOff hagree hapart⟩
  refine ⟨ht.pxEnd, ht.allocatedBit, ht.area, ?_, ?_, ?_, ht.sized, ht.separated, ht.free⟩
  · subst hx
    refine links_append.mpr ⟨?_, ?_, ?_, ?_⟩
    · dsimp only
      rw [(hout _ (by omega)).1]
      exact hpre.rebase hroomy (hout L.xStart (by omega)).1 fun r _ hr _ => hout r (by omega)
    · exact (hout _ (by omega)).1.trans hnull
    · exact (hout _ (by omega)).2.trans hsize
    · exact hrest.rebase hroomyPost (hout _ (by omega)).1 fun r hr _ _ => hout r (by omega)
  · exact (hout L.xStart (by omega)).2.trans ht.start_size
  · exact (hout (endAddress L) (by omega)).1.trans ht.end_next

theorem zeroLoop_eq (m : Mem) {count dest : ℕ} (hdest : dest ≠ 0) :
    ∃ m', zeroLoop count m dest = .ok m' ∧ (∀ i < count, m' (dest + i) = 0) ∧
      AgreeOff (Within dest count) m' m := by
  induction count generalizing m dest with
  | zero => exact ⟨m, rfl, by simp, AgreeOff.refl _ _⟩
  | succ count ih =>
    obtain ⟨m', hm', hzero, hagree⟩ := ih (store8 m dest 0) (by omega : dest + 1 ≠ 0)
    refine ⟨m', ?_, ?_, ?_⟩
    · rw [zeroLoop, if_neg hdest, hm']
    · intro i hi
      rcases Nat.eq_zero_or_pos i with rfl | hpos
      · have hself := hagree dest fun hin => by unfold Within at hin; omega
        rw [Nat.add_zero, hself, store8_self]
      · have hi' := hzero (i - 1) (by omega)
        rwa [show dest + 1 + (i - 1) = dest + i by omega] at hi'
    · intro y hy
      have hy' : ¬Within (dest + 1) count y :=
        fun hin => hy (hin.mono (by omega) (by omega))
      rw [hagree y hy', store8_of_ne]
      rw [Within] at hy
      omega

/-- Copying forwards into an area that does not overlap the source. -/
theorem copyLoop_eq (m : Mem) {count dest src : ℕ} (hdest : dest ≠ 0)
    (hdisj : src + count ≤ dest ∨ dest + count ≤ src) :
    ∃ m', copyLoop count m dest src = .ok m' ∧ (∀ i < count, m' (dest + i) = m (src + i)) ∧
      AgreeOff (Within dest count) m' m := by
  induction count generalizing m dest src with
  | zero => exact ⟨m, rfl, by simp, AgreeOff.refl _ _⟩
  | succ count ih =>
    obtain ⟨m', hm', hcopy, hagree⟩ :=
      ih (store8 m dest (m src)) (by omega : dest + 1 ≠ 0)
        (by omega : src + 1 + count ≤ dest + 1 ∨ dest + 1 + count ≤ src + 1)
    refine ⟨m', ?_, ?_, ?_⟩
    · rw [copyLoop, if_neg hdest, hm']
    · intro i hi
      rcases Nat.eq_zero_or_pos i with rfl | hpos
      · have hself := hagree dest fun hin => by unfold Within at hin; omega
        rw [Nat.add_zero, hself, store8_self, Nat.add_zero]
      · have hi' := hcopy (i - 1) (by omega)
        rw [show dest + 1 + (i - 1) = dest + i by omega,
          show src + 1 + (i - 1) = src + i by omega, store8_of_ne (by omega)] at hi'
        exact hi'
    · intro y hy
      have hy' : ¬Within (dest + 1) count y :=
        fun hin => hy (hin.mono (by omega) (by omega))
      rw [hagree y hy', store8_of_ne]
      rw [Within] at hy
      omega

/-- `pvPortCalloc` clears what it got, and writes through null when it got nothing. -/
theorem pvPortCalloc_cases (ht : Tiled L (initialised L h) bs) (num size : UInt32) :
    (firstFit (size * num).toNat (frees (pucAlignedHeap L) bs) = none ∧
        pvPortCalloc L h num size =
          if size * num = 0 then .ok (initialised L h, 0) else .error .nullWrite) ∨
      ∃ x s pre post h₁ m',
        firstFit (size * num).toNat (frees (pucAlignedHeap L) bs) = some (x, s) ∧
        pvPortMalloc L h (size * num) = .ok (h₁, x + 8) ∧
        Allocated L (initialised L h) bs (size * num).toNat x s pre post h₁ ∧
        pvPortCalloc L h num size = .ok ({ h₁ with mem := m' }, x + 8) ∧
        (∀ i < (size * num).toNat, m' (x + 8 + i) = 0) ∧
        AgreeOff (Within (x + 8) (size * num).toNat) m' h₁.mem := by
  rw [pvPortCalloc]
  dsimp only
  rcases pvPortMalloc_cases ht (size * num) with ⟨hfit, hcall⟩ |
    ⟨x, s, pre, post, h₁, hfit, hcall, ha⟩
  · refine .inl ⟨hfit, ?_⟩
    rw [hcall, Fallible.ok_bind]
    dsimp only
    by_cases hzero : size * num = 0
    · rw [if_pos hzero, hzero]
      rfl
    · rw [if_neg hzero]
      have hpos : (size * num).toNat ≠ 0 := fun h0 => hzero (UInt32.toNat_inj.mp h0)
      obtain ⟨k, hk⟩ := Nat.exists_eq_succ_of_ne_zero hpos
      rw [hk, zeroLoop, if_pos rfl]
      rfl
  · obtain ⟨m', hm', hzero, hagree⟩ := zeroLoop_eq h₁.mem (by omega : x + 8 ≠ 0)
    refine .inr ⟨x, s, pre, post, h₁, m', hfit, hcall, ha, ?_, hzero, hagree⟩
    rw [hcall, Fallible.ok_bind]
    dsimp only
    rw [hm', Fallible.ok_bind]
    rfl

/-- Clearing the payload that was asked for keeps the block and the others. -/
theorem Allocated.write_payload {h' : Heap} {len : ℕ}
    (ha : Allocated L h bs n x s pre post h') (hagree : AgreeOff (Within (x + 8) len) m' h'.mem)
    (hlen : len + 8 ≤ granted heapMINIMUM_BLOCK_SIZE (roundedSize n) s) :
    Tiled L { h' with mem := m' } (taken pre n s post) := by
  obtain ⟨rest, hrest⟩ := taken_eq pre n s post
  rw [hrest]
  refine (hrest ▸ ha.tiled).write_payload ha.address (hagree.mono fun y hy => ?_)
  exact hy.mono le_rfl (by omega)

theorem Allocated.request_le {h' : Heap} (ha : Allocated L h bs n x s pre post h') :
    n + 8 ≤ granted heapMINIMUM_BLOCK_SIZE (roundedSize n) s := by
  have hle := (le_granted heapMINIMUM_BLOCK_SIZE ha.fits).1
  rw [roundedSize] at hle ⊢
  omega

end Payload

section Session

/-- The heap, and the pointers held with the number of bytes asked for. -/
structure Session where
  heap : Heap
  live : List (ℕ × ℕ)

inductive HeapEvent where
  | malloc (xWantedSize : UInt32)
  | free (pv : ℕ)
  | calloc (num xWantedSize : UInt32)
  | realloc (pv : ℕ) (xWantedSize : UInt32)
  | store (address : ℕ) (byte : UInt8)

namespace Session

/-- Before the first call nothing is held; the memory is arbitrary. -/
def start (m : Mem) : Session := { heap := .uninitialised m, live := [] }

/-- What is held after a call returned `p` for `n` bytes. -/
def hold (p n : ℕ) (live : List (ℕ × ℕ)) : List (ℕ × ℕ) :=
  if p = 0 then live else (p, n) :: live

def drop (pv : ℕ) (live : List (ℕ × ℕ)) : List (ℕ × ℕ) := live.filter fun b => b.1 ≠ pv

def Holds (c : Session) (pv : ℕ) : Prop := ∃ n, (pv, n) ∈ c.live

def step (L : Layout) (c : Session) : HeapEvent → Except HeapFault Session
  | .malloc size => do
    let r ← pvPortMalloc L c.heap size
    pure { heap := r.1, live := hold r.2 size.toNat c.live }
  | .free pv => do
    let h ← vPortFree L c.heap pv
    pure { heap := h, live := drop pv c.live }
  | .calloc num size => do
    let r ← pvPortCalloc L c.heap num size
    pure { heap := r.1, live := hold r.2 (size * num).toNat c.live }
  | .realloc pv size => do
    let r ← pvPortRealloc L c.heap pv size
    pure { heap := r.1, live := hold r.2 size.toNat (drop pv c.live) }
  | .store address byte =>
    .ok { c with heap := { c.heap with mem := store8 c.heap.mem address byte } }

/-- The callers free only what they hold and write only into what they asked for. -/
def Admits (c : Session) : HeapEvent → Prop
  | .malloc _ => True
  | .free pv => c.Holds pv
  | .calloc _ _ => True
  | .realloc pv _ => c.Holds pv
  | .store address _ => ∃ b ∈ c.live, Within b.1 b.2 address

instance decidableHolds (c : Session) (pv : ℕ) : Decidable (c.Holds pv) :=
  decidable_of_iff (∃ b ∈ c.live, b.1 = pv)
    ⟨fun ⟨⟨_, n⟩, hb, hpv⟩ => ⟨n, hpv ▸ hb⟩, fun ⟨n, hn⟩ => ⟨(pv, n), hn, rfl⟩⟩

instance decidableWithin (a len x : ℕ) : Decidable (Within a len x) :=
  inferInstanceAs (Decidable (a ≤ x ∧ x < a + len))

instance decidableAdmits (c : Session) : (e : HeapEvent) → Decidable (c.Admits e)
  | .malloc _ => isTrue trivial
  | .free pv => decidableHolds c pv
  | .calloc _ _ => isTrue trivial
  | .realloc pv _ => decidableHolds c pv
  | .store address _ => inferInstanceAs (Decidable (∃ b ∈ c.live, Within b.1 b.2 address))

/-- The pointers and requests of the blocks that are not free. -/
def holders (L : Layout) (bs : List (Block ℕ)) : List (ℕ × ℕ) :=
  (lives (pucAlignedHeap L) bs).map fun x => (x.1 + xHeapStructSize, x.2.2)

/-- The heap is tiled by the blocks held and the free ones. -/
def Valid (L : Layout) (c : Session) : Prop :=
  (c.heap.pxEnd = 0 → c.live = []) ∧
    ∃ bs, Tiled L (initialised L c.heap) bs ∧ c.live.Perm (holders L bs)

theorem start_valid (L : Layout) (m : Mem) : Valid L (start m) :=
  ⟨fun _ => rfl, _, prvHeapInit_tiled L (.uninitialised m), List.Perm.nil⟩

variable {L : Layout} {c c' : Session} {bs pre post : List (Block ℕ)} {n s x : ℕ}

/-- A pointer that is held belongs to a block. -/
theorem block_of_holds {pv : ℕ} (hperm : c.live.Perm (holders L bs)) (hpv : (pv, n) ∈ c.live) :
    ∃ pre s post, bs = pre ++ ⟨s, some n⟩ :: post ∧ pucAlignedHeap L + total pre + 8 = pv := by
  obtain ⟨⟨x, s, k⟩, hmem, heq⟩ := List.mem_map.mp (hperm.mem_iff.mp hpv)
  obtain ⟨pre, post, hbs, hx⟩ := mem_lives hmem
  obtain ⟨hp, hn⟩ := Prod.mk.inj heq
  dsimp only at hx hp hn hbs
  subst hn
  refine ⟨pre, s, post, hbs, ?_⟩
  rw [← hx]
  exact hp

/-- After an allocation the new block is held besides the others. -/
theorem holders_taken (hw : roundedSize n ≤ s) (hx : pucAlignedHeap L + total pre = x)
    (hperm : c.live.Perm (holders L (pre ++ ⟨s, none⟩ :: post))) :
    (hold (x + 8) n c.live).Perm (holders L (taken pre n s post)) := by
  rw [holders] at hperm ⊢
  rw [hold]
  rw [if_neg (by omega), lives_taken hw hx, List.map_append, List.map_cons]
  rw [lives_append, lives_free, hx, List.map_append] at hperm
  exact (hperm.cons _).trans List.perm_middle.symm

/-- After a release the others are held as before. -/
theorem holders_release (hx : pucAlignedHeap L + total pre = x)
    (hroomy : Roomy (pre ++ ⟨s, some n⟩ :: post))
    (hperm : c.live.Perm (holders L (pre ++ ⟨s, some n⟩ :: post))) :
    (drop (x + 8) c.live).Perm (holders L (release pre s post)) := by
  have hs := hroomy.mid.1
  dsimp only at hs
  rw [holders] at hperm ⊢
  rw [lives_append, lives_live, hx, List.map_append, List.map_cons] at hperm
  rw [lives_release, List.map_append, hx]
  apply (hperm.filter _).trans
  rw [List.filter_append, List.filter_cons]
  have hself : ¬(decide ((x + xHeapStructSize, n).1 ≠ x + 8) = true) := by
    simp [xHeapStructSize]
  rw [if_neg hself, List.filter_eq_self.mpr, List.filter_eq_self.mpr]
  · intro b hb
    obtain ⟨y, hy, rfl⟩ := List.mem_map.mp hb
    have hbound := (lives_bounds hy).1
    rw [xHeapStructSize]
    simp only [ne_eq, decide_not, Bool.not_eq_true', decide_eq_false_iff_not]
    omega
  · intro b hb
    obtain ⟨y, hy, rfl⟩ := List.mem_map.mp hb
    have hbound := (lives_bounds hy).2
    have hmin := (roomy_append.mp hroomy).1.le_of_mem_lives hy
    rw [xHeapStructSize]
    simp only [ne_eq, decide_not, Bool.not_eq_true', decide_eq_false_iff_not]
    omega

/-- A heap of which something is held has been initialised. -/
theorem Valid.of_holds {pv : ℕ} (hv : Valid L c) (hpv : c.Holds pv) :
    ∃ bs, Tiled L c.heap bs ∧ c.live.Perm (holders L bs) := by
  obtain ⟨hempty, bs, ht, hperm⟩ := hv
  obtain ⟨n, hn⟩ := hpv
  have hinit : initialised L c.heap = c.heap := if_neg fun hnull => by
    rw [hempty hnull] at hn
    cases hn
  exact ⟨bs, hinit ▸ ht, hperm⟩

theorem valid_of_tiled (ht : Tiled L c.heap bs) (hperm : c.live.Perm (holders L bs)) :
    Valid L c :=
  ⟨fun hnull => absurd hnull ht.end_pos, bs, ht.initialised_eq.symm ▸ ht, hperm⟩

theorem malloc_valid {size : UInt32} (hv : Valid L c)
    (hstep : step L c (.malloc size) = .ok c') : Valid L c' := by
  obtain ⟨_, bs, ht, hperm⟩ := hv
  rw [step] at hstep
  rcases pvPortMalloc_cases ht size with ⟨_, hcall⟩ | ⟨x, s, pre, post, h', _, hcall, ha⟩
  · rw [hcall, Fallible.ok_bind] at hstep
    obtain rfl := Fallible.pure_eq_ok.mp hstep
    exact valid_of_tiled ht hperm
  · rw [hcall, Fallible.ok_bind] at hstep
    obtain rfl := Fallible.pure_eq_ok.mp hstep
    exact valid_of_tiled ha.tiled (holders_taken ha.fits ha.address (ha.blocks ▸ hperm))

theorem free_valid {pv : ℕ} (hv : Valid L c) (hpv : c.Holds pv)
    (hstep : step L c (.free pv) = .ok c') : Valid L c' := by
  obtain ⟨bs, ht, hperm⟩ := hv.of_holds hpv
  obtain ⟨n, hn⟩ := hpv
  obtain ⟨pre, s, post, rfl, rfl⟩ := block_of_holds hperm hn
  obtain ⟨h', hcall, ht', _⟩ := vPortFree_eq ht rfl
  rw [step, hcall, Fallible.ok_bind] at hstep
  obtain rfl := Fallible.pure_eq_ok.mp hstep
  exact valid_of_tiled ht' (holders_release rfl ht.roomy hperm)

theorem calloc_valid {num size : UInt32} (hv : Valid L c)
    (hstep : step L c (.calloc num size) = .ok c') : Valid L c' := by
  obtain ⟨_, bs, ht, hperm⟩ := hv
  rw [step] at hstep
  rcases pvPortCalloc_cases ht num size with ⟨_, hcall⟩ |
    ⟨x, s, pre, post, h₁, m', _, _, ha, hcall, _, hagree⟩
  · rw [hcall] at hstep
    split at hstep
    · rw [Fallible.ok_bind] at hstep
      obtain rfl := Fallible.pure_eq_ok.mp hstep
      exact valid_of_tiled ht hperm
    · cases hstep
  · rw [hcall, Fallible.ok_bind] at hstep
    obtain rfl := Fallible.pure_eq_ok.mp hstep
    exact valid_of_tiled (ha.write_payload hagree ha.request_le)
      (holders_taken ha.fits ha.address (ha.blocks ▸ hperm))

/-- Writing into the payload of a block that is held. -/
theorem store_valid {address : ℕ} {byte : UInt8} (hv : Valid L c)
    (hheld : ∃ b ∈ c.live, Within b.1 b.2 address)
    (hstep : step L c (.store address byte) = .ok c') : Valid L c' := by
  obtain ⟨⟨pv, n⟩, hn, hin⟩ := hheld
  obtain ⟨bs, ht, hperm⟩ := hv.of_holds ⟨n, hn⟩
  obtain ⟨pre, s, post, rfl, rfl⟩ := block_of_holds hperm hn
  obtain rfl := Except.ok.inj hstep
  have hfits : n + 8 ≤ s :=
    (ht.sized _ (List.mem_append_right _ List.mem_cons_self)).2.2 n rfl
  refine valid_of_tiled (ht.write_payload rfl ((AgreeOff.refl _ _).store8_left ?_)) hperm
  rw [Within] at hin ⊢
  dsimp only at hin
  omega

end Session

end Session

end RmMicroControllers
