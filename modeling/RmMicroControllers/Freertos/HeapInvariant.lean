import RmMicroControllers.Freertos.FreeList

/-!
# The invariant of the heap

`Tiled L h bs` says that the heap `h` holds exactly the blocks `bs`, one after another from
the aligned start of the array to `pxEnd`. The owner of a block is the number of bytes that
its caller asked for. Initialisation, allocation and release keep the invariant, each with
the blocks that it leaves.
-/

namespace RmMicroControllers

open Memory Segments

/-- A block that the allocator can have made: aligned, and with room for what was asked for. -/
def Sized (b : Block ℕ) : Prop :=
  16 ≤ b.size ∧ b.size % 8 = 0 ∧ ∀ n ∈ b.owner, n + xHeapStructSize ≤ b.size

structure Tiled (L : Layout) (h : Heap) (bs : List (Block ℕ)) : Prop where
  pxEnd : h.pxEnd = endAddress L
  allocatedBit : h.xBlockAllocatedBit = 2147483648
  area : pucAlignedHeap L + total bs = endAddress L
  links : Links h.mem L.xStart (pucAlignedHeap L) bs (endAddress L)
  start_size : xBlockSize h.mem L.xStart = 0
  end_next : pxNextFreeBlock h.mem (endAddress L) = 0
  sized : ∀ b ∈ bs, Sized b
  separated : Separated bs
  free : h.xFreeBytesRemaining = freeBytes bs

variable {L : Layout} {h h' : Heap} {bs pre post : List (Block ℕ)} {n s w : ℕ}

section Init

theorem prvHeapInit_tiled (L : Layout) (h : Heap) :
    Tiled L (prvHeapInit L h) [⟨endAddress L - pucAlignedHeap L, none⟩] := by
  have hsize := L.area_size
  have hlt := L.endAddress_lt
  have hapart := L.xStart_apart
  have hmod := L.alignedHeap_mod
  have hmod' := L.endAddress_mod
  have hsub : subtract (endAddress L) (pucAlignedHeap L) = endAddress L - pucAlignedHeap L :=
    subtract_of_le (by omega) (by omega)
  have hfirst : xBlockSize (prvHeapInit L h).mem (pucAlignedHeap L) =
      endAddress L - pucAlignedHeap L := by
    rw [prvHeapInit]
    dsimp only
    rw [hsub, size_setNext (.inl rfl), size_setSize_self (by omega)]
  refine ⟨rfl, rfl, ?_, ⟨?_, hfirst, ?_⟩, ?_, ?_, ?_, ?_, ?_⟩
  · simp only [total_cons, total_nil]
    omega
  · rw [prvHeapInit]
    dsimp only
    rw [next_setNext_of_apart (by omega), next_setSize (by omega),
      next_setNext_of_apart (by omega), next_setSize (by omega), next_setSize (.inl rfl),
      next_setNext_self (by omega)]
  · rw [prvHeapInit]
    exact next_setNext_self (by omega)
  · rw [prvHeapInit]
    dsimp only
    rw [size_setNext (by omega), size_setSize_of_apart (by omega), size_setNext (by omega),
      size_setSize_of_apart (by omega), size_setSize_self (by omega)]
  · rw [prvHeapInit]
    dsimp only
    rw [next_setNext_of_apart (by omega), next_setSize (by omega), next_setNext_self (by omega)]
  · intro b hb
    obtain rfl := List.mem_singleton.mp hb
    refine ⟨?_, ?_, by simp⟩
    · dsimp only
      omega
    · dsimp only
      omega
  · exact List.isChain_singleton _
  · exact hfirst

theorem prvHeapInit_minimum (L : Layout) (h : Heap) :
    (prvHeapInit L h).xMinimumEverFreeBytesRemaining =
      (prvHeapInit L h).xFreeBytesRemaining := rfl

end Init

namespace Tiled

variable (ht : Tiled L h bs)
include ht

theorem roomy : Roomy bs := fun b hb => ⟨(ht.sized b hb).1, (ht.sized b hb).2.1⟩

theorem length_lt : bs.length < configTOTAL_HEAP_SIZE := by
  have hlen := ht.roomy.length_le
  have harea := ht.area
  have hle := L.area_le
  rw [configTOTAL_HEAP_SIZE]
  omega

theorem end_pos : h.pxEnd ≠ 0 := by
  have harea := ht.area
  have hpos := L.alignedHeap_pos
  rw [ht.pxEnd]
  omega

theorem initialised_eq : initialised L h = h := if_neg ht.end_pos

theorem free_le : h.xFreeBytesRemaining ≤ 59992 := by
  have harea := ht.area
  have hle := L.area_le
  have hfree := freeBytes_le_total bs
  rw [ht.free]
  omega

end Tiled

/-- The block of `s` bytes at `x`, between the blocks `pre` and `post`, is out of the list, and
`q` is the node of the list before it. -/
structure Unlinked (L : Layout) (m : Mem) (q x s : ℕ) (pre post : List (Block ℕ)) : Prop where
  node : lastFree L.xStart (pucAlignedHeap L) pre = q
  address : pucAlignedHeap L + total pre ≤ x
  before : Links m L.xStart (pucAlignedHeap L) pre (pxNextFreeBlock m q)
  size : xBlockSize m x = s
  after : Links m q (x + s) post (endAddress L)
  start_size : xBlockSize m L.xStart = 0
  area : x + s + total post = endAddress L
  roomy_before : Roomy pre
  roomy_after : Roomy post
  minimum : 8 ≤ s

namespace Unlinked

variable {m m' : Mem} {q x x' s' : ℕ} (hu : Unlinked L m q x s pre post)
include hu

/-- The node before the block is the list head, outside the area, or a block before it. -/
theorem node_bounds :
    q = L.xStart ∨ pucAlignedHeap L ≤ q ∧ q + 16 ≤ pucAlignedHeap L + total pre :=
  (hu.roomy_before.lastFree_bounds L.xStart (pucAlignedHeap L)).imp
    (fun h => hu.node.symm.trans h) (fun h => hu.node ▸ ⟨h.1, h.2.1⟩)

theorem node_apart :
    q + 8 ≤ pucAlignedHeap L + total pre ∨ endAddress L + 8 ≤ q := by
  have hxStart := L.xStart_apart
  rcases hu.node_bounds with rfl | hq <;> omega

/-- The block fits between the start of the area and `pxEnd`. -/
theorem bounds : x + s ≤ endAddress L ∧ endAddress L + 8 ≤ 4294967296 :=
  ⟨by have := hu.area; omega, L.endAddress_lt⟩

theorem find (hx : pucAlignedHeap L + total pre ≤ x') (hx' : x' ≤ x + s) :
    findInsertion m x' configTOTAL_HEAP_SIZE L.xStart = .ok q := by
  have hnext : x + s ≤ pxNextFreeBlock m q := Links.le_next (hu.area.symm ▸ hu.after)
  have hlen := hu.roomy_before.length_le
  have hbound := hu.bounds
  have haddress := hu.address
  have hle := L.area_le
  rw [← hu.node]
  apply findInsertion_eq hu.before hu.roomy_before hx (by omega)
  rw [configTOTAL_HEAP_SIZE]
  omega

/-- Writes inside the block leave the list around it alone. -/
theorem frame (hagree : AgreeOff (fun y => pucAlignedHeap L + total pre ≤ y ∧ y < x + s) m' m)
    (hx : pucAlignedHeap L + total pre ≤ x') (hs' : xBlockSize m' x' = s')
    (hend : x' + s' = x + s) (hmin : 8 ≤ s') : Unlinked L m' q x' s' pre post := by
  have hxStart := L.xStart_apart
  have hapart := hu.node_apart
  have hbound := hu.bounds
  have harea := hu.area
  have hout : ∀ r, (r + 8 ≤ pucAlignedHeap L + total pre ∨ x + s ≤ r) → ∀ y, Within r 8 y →
      ¬(pucAlignedHeap L + total pre ≤ y ∧ y < x + s) := by
    intro r hr y hy hy'
    rw [Within] at hy
    omega
  have hq := next_of_agreeOff hagree (hout q (by omega))
  refine ⟨hu.node, hx, ?_, hs', ?_, ?_, by omega, hu.roomy_before, hu.roomy_after, hmin⟩
  · rw [hq]
    refine hu.before.rebase hu.roomy_before ?_ fun r _ hr _ =>
      ⟨next_of_agreeOff hagree (hout r (by omega)), size_of_agreeOff hagree (hout r (by omega))⟩
    exact next_of_agreeOff hagree (hout L.xStart (by omega))
  · rw [hend]
    exact hu.after.rebase hu.roomy_after hq fun r hr _ _ =>
      ⟨next_of_agreeOff hagree (hout r (by omega)), size_of_agreeOff hagree (hout r (by omega))⟩
  · rw [size_of_agreeOff hagree (hout L.xStart (by omega)), hu.start_size]

/-- Away from the end of `pre` the block is linked in as it is, up to a free block after it. -/
theorem insert_linked (hgap : pucAlignedHeap L + total pre < x) :
    ∃ n post', joinNext s post = ⟨n, none⟩ :: post' ∧
      xBlockSize (insertAfter (endAddress L) m q x) x = n ∧
      Links (insertAfter (endAddress L) m q x) x (x + n) post' (endAddress L) ∧
      pxNextFreeBlock (insertAfter (endAddress L) m q x) q = x ∧
      xBlockSize (insertAfter (endAddress L) m q x) q = xBlockSize m q ∧
      AgreeOff (fun y => Within x 8 y ∨ Within q 8 y) (insertAfter (endAddress L) m q x) m := by
  have hxStart := L.xStart_apart
  have hapart := hu.node_apart
  have hbound := hu.bounds
  have hbefore := hu.before.add_size_lastFree_le
  rw [hu.node] at hbefore
  have hnot : q + xBlockSize m q ≠ x := by
    rcases hbefore with rfl | hle
    · rw [hu.start_size]
      omega
    · omega
  exact insertAfter_linked hnot hu.size hu.after (by omega) hu.area (by omega) hu.roomy_after
    hu.minimum

/-- Right behind `pre` the block is given back to both its neighbours. -/
theorem insert_release (hx : pucAlignedHeap L + total pre = x) :
    Links (insertAfter (endAddress L) m q x) L.xStart (pucAlignedHeap L) (release pre s post)
        (endAddress L) ∧
      xBlockSize (insertAfter (endAddress L) m q x) L.xStart = 0 ∧
      AgreeOff (fun y => Within x 8 y ∨ Within q 8 y) (insertAfter (endAddress L) m q x) m := by
  have hxStart := L.xStart_apart
  have hbound := hu.bounds
  obtain ⟨hnode, _, hbefore, hsize, hafter, hstart, harea, hroomy, hroomy', hmin⟩ := hu
  subst hnode hx
  obtain ⟨hlinks, hkeep, hagree⟩ := insertAfter_release hbefore hsize hafter hxStart hstart harea
    (by omega) hroomy hroomy' hmin
  exact ⟨hlinks, hkeep.trans hstart, hagree⟩

end Unlinked

/-- What `pxPreviousBlock->pxNextFreeBlock = pxBlock->pxNextFreeBlock` leaves. -/
theorem Tiled.unlink {q x : ℕ} (ht : Tiled L h (pre ++ ⟨s, none⟩ :: post))
    (hq : lastFree L.xStart (pucAlignedHeap L) pre = q) (hx : pucAlignedHeap L + total pre = x) :
    pxNextFreeBlock h.mem q = x ∧
      Unlinked L (setNextFreeBlock h.mem q (pxNextFreeBlock h.mem x)) q x s pre post := by
  obtain ⟨hpre, hnext, hsize, hrest⟩ := links_append.mp ht.links
  obtain ⟨hroomy, hroomy'⟩ := roomy_append.mp ht.roomy
  obtain ⟨hs, hroomyPost⟩ := roomy_cons.mp hroomy'
  have harea := ht.area
  rw [total_append, total_cons] at harea
  dsimp only at harea hs
  have hxStart := L.xStart_apart
  have hlast := hroomy.lastFree_bounds L.xStart (pucAlignedHeap L)
  have hagree := agreeOff_setNext h.mem q (pxNextFreeBlock h.mem x)
  have hnext' : pxNextFreeBlock (setNextFreeBlock h.mem q (pxNextFreeBlock h.mem x)) q =
      pxNextFreeBlock h.mem x := next_setNext_self (pxNextFreeBlock_lt h.mem x)
  have hsize' : xBlockSize (setNextFreeBlock h.mem q (pxNextFreeBlock h.mem x)) q =
      xBlockSize h.mem q := size_setNext (.inl rfl)
  subst hx
  refine ⟨hq ▸ hnext, hq, le_refl _, ?_, ?_, ?_, ?_, by omega, hroomy, hroomyPost, by omega⟩
  · refine hpre.redirect (R := fun _ => False) hroomy (by omega) ?_ (fun y hy => hy.elim) ?_ ?_
    · rw [hq]
      exact hagree.mono fun y hy => .inr hy
    · rw [hq, hsize']
    · rw [hq]
  · rw [(header_of_agreeOff hagree (by omega)).2, hsize]
  · exact hrest.rebase hroomyPost hnext' fun r hr hr' _ => header_of_agreeOff hagree (by omega)
  · by_cases hqs : q = L.xStart
    · rw [← hqs, hsize', hqs, ht.start_size]
    · rw [(header_of_agreeOff hagree (by omega)).2, ht.start_size]

section Malloc

/-- The size of the block that a request of `n` bytes needs: with header and padding. -/
def roundedSize (n : ℕ) : ℕ := (n + 15) / 8 * 8

theorem adjustSize_zero : adjustSize 0 = .ok 0 := rfl

theorem adjustSize_eq (hpos : 0 < n) (hlt : n < 2147483648) :
    adjustSize n = .ok (roundedSize n) := by
  have hmod : (n + 8) % 4294967296 = n + 8 := Nat.mod_eq_of_lt (by omega)
  unfold adjustSize configASSERT roundedSize xHeapStructSize
  rw [hmod, if_pos ⟨hpos, by omega⟩]
  dsimp only
  rw [and_seven, and_seven]
  split
  · rw [Nat.mod_eq_of_lt (by omega), if_pos (by omega), if_pos (by omega)]
    exact congrArg Except.ok (by omega)
  · exact congrArg Except.ok (by omega)

/-- The blocks after an allocation that takes the free block of `s` bytes after `pre`. -/
def taken (pre : List (Block ℕ)) (n s : ℕ) (post : List (Block ℕ)) : List (Block ℕ) :=
  pre ++ (carve heapMINIMUM_BLOCK_SIZE (roundedSize n) s n ++ post)

/-- The block that such an allocation gives away stands right behind `pre`. -/
theorem taken_eq (pre : List (Block ℕ)) (n s : ℕ) (post : List (Block ℕ)) :
    ∃ rest, taken pre n s post =
      pre ++ ⟨granted heapMINIMUM_BLOCK_SIZE (roundedSize n) s, some n⟩ :: rest := by
  rw [taken, carve, granted]
  split
  · exact ⟨_, rfl⟩
  · exact ⟨_, rfl⟩

/-- The blocks that are not free after an allocation: the new one and those before. -/
theorem lives_taken {x : ℕ} (hw : roundedSize n ≤ s)
    (hx : pucAlignedHeap L + total pre = x) :
    lives (pucAlignedHeap L) (taken pre n s post) =
      lives (pucAlignedHeap L) pre ++
        (x, granted heapMINIMUM_BLOCK_SIZE (roundedSize n) s, n) :: lives (x + s) post := by
  rw [taken]
  rw [lives_append, lives_append, lives_carve, total_carve hw, hx]
  rfl

theorem sized_carve (hs : Sized ⟨s, none⟩) (hw : roundedSize n ≤ s) (hpos : 0 < n) :
    ∀ b ∈ carve heapMINIMUM_BLOCK_SIZE (roundedSize n) s n, Sized b := by
  obtain ⟨hmin, hmod, _⟩ := hs
  rw [roundedSize] at hw
  unfold carve heapMINIMUM_BLOCK_SIZE Sized xHeapStructSize roundedSize
  split
  · intro b hb
    rcases List.mem_cons.mp hb with rfl | hb
    · simp only [Option.mem_def, Option.some.injEq, forall_eq']
      omega
    · obtain rfl := List.mem_singleton.mp hb
      simp only [Option.mem_def, reduceCtorEq, false_imp_iff, implies_true, and_true]
      dsimp only at hmin hmod
      omega
  · intro b hb
    obtain rfl := List.mem_singleton.mp hb
    simp only [Option.mem_def, Option.some.injEq, forall_eq']
    dsimp only at hmin hmod
    omega

theorem Tiled.sized_taken (ht : Tiled L h (pre ++ ⟨s, none⟩ :: post)) (hw : roundedSize n ≤ s)
    (hpos : 0 < n) : ∀ b ∈ taken pre n s post, Sized b := by
  obtain ⟨hpre, hrest⟩ := List.forall_mem_append.mp ht.sized
  obtain ⟨hs, hpost⟩ := List.forall_mem_cons.mp hrest
  rw [taken]
  refine List.forall_mem_append.mpr ⟨hpre, ?_⟩
  exact List.forall_mem_append.mpr ⟨sized_carve hs hw hpos, hpost⟩

/-- What an allocation subtracts from the free bytes is what it gives away. -/
theorem Tiled.free_taken (ht : Tiled L h (pre ++ ⟨s, none⟩ :: post)) (hw : roundedSize n ≤ s) :
    subtract h.xFreeBytesRemaining (granted heapMINIMUM_BLOCK_SIZE (roundedSize n) s) =
      freeBytes (taken pre n s post) := by
  have hgranted := le_granted heapMINIMUM_BLOCK_SIZE hw
  have hpre := freeBytes_le_total pre
  have hpost := freeBytes_le_total post
  have hle := L.area_le
  have harea := ht.area
  rw [total_append, total_cons] at harea
  dsimp only at harea
  rw [taken]
  rw [ht.free, freeBytes_append, freeBytes_append, freeBytes_append, freeBytes_free,
    freeBytes_carve, subtract_of_le (by omega) (by omega)]
  omega

/-- The header of an allocated block between the chain before it and the chain after it. -/
theorem links_taken {m m' : Mem} {a q e g k : ℕ} {R : ℕ → Prop} {o : ℕ}
    (hpre : Links m q a pre k) (hroomy : Roomy pre) (hq : q + 8 ≤ a ∨ a + total pre ≤ q)
    (hagree : AgreeOff (fun y => R y ∨ Within (lastFree q a pre) 8 y) m' m)
    (hR : ∀ y, R y → a + total pre ≤ y ∧ ¬Within q 8 y)
    (hlast : xBlockSize m' (lastFree q a pre) = xBlockSize m (lastFree q a pre))
    (hnull : pxNextFreeBlock m' (a + total pre) = 0)
    (hsize : xBlockSize m' (a + total pre) = g + 2147483648)
    (hpost : Links m' (lastFree q a pre) (a + total pre + g) post e) :
    Links m' q a (pre ++ ⟨g, some o⟩ :: post) e :=
  links_append.mpr ⟨hpre.redirect hroomy hq hagree hR hlast rfl, hnull, hsize, hpost⟩

/-- A block in front of blocks that do not start with a free one is not joined. -/
theorem joinNext_of_separated (hsep : Separated (pre ++ ⟨s, none⟩ :: post)) (r : ℕ) :
    joinNext r post = ⟨r, none⟩ :: post := by
  rcases joinNext_cases r post with ⟨n, post', rfl, _⟩ | ⟨_, hjoin⟩
  · exact absurd rfl (hsep.head_live n post')
  · exact hjoin

/-- Splitting the unlinked block `x`: its first `granted` bytes stay with the caller and the
rest is linked in again. -/
theorem splitBlock_eq {q x : ℕ} (hu : Unlinked L h.mem q x s pre post) (o : ℕ)
    (hx : pucAlignedHeap L + total pre = x) (hend : h.pxEnd = endAddress L)
    (hsep : Separated (pre ++ ⟨s, none⟩ :: post)) (hw : w ≤ s) (hmod : w % 8 = 0)
    (hmin : 16 ≤ w) :
    ∃ m' rest, splitBlock L h x w = .ok { h with mem := m' } ∧
      carve heapMINIMUM_BLOCK_SIZE w s o ++ post =
        ⟨granted heapMINIMUM_BLOCK_SIZE w s, some o⟩ :: rest ∧
      xBlockSize m' x = granted heapMINIMUM_BLOCK_SIZE w s ∧
      Links m' q (x + granted heapMINIMUM_BLOCK_SIZE w s) rest (endAddress L) ∧
      xBlockSize m' q = xBlockSize h.mem q ∧
      AgreeOff (fun y => Within x s y ∨ Within q 8 y) m' h.mem := by
  have hbound := hu.bounds
  have hapart := hu.node_apart
  rw [splitBlock]
  rw [hu.size, subtract_of_le hw (by omega)]
  rw [carve, granted, heapMINIMUM_BLOCK_SIZE]
  by_cases hsplit : 16 < s - w
  · rw [if_pos hsplit, if_pos hsplit, if_pos hsplit]
    -- the sizes of the two parts are written and the second part is unlinked in turn
    obtain ⟨m₁, hm₁⟩ : ∃ m₁, m₁ = setBlockSize (setBlockSize h.mem (x + w) (s - w)) x w :=
      ⟨_, rfl⟩
    have hagree₁ : AgreeOff (Within x s) m₁ h.mem := by
      rw [hm₁]
      refine ((agreeOff_setSize _ x w).mono ?_).trans ((agreeOff_setSize _ (x + w) _).mono ?_)
      · exact fun y hy => hy.mono (by omega) (by omega)
      · exact fun y hy => hy.mono (by omega) (by omega)
    have hu₁ : Unlinked L m₁ q (x + w) (s - w) pre post := by
      refine hu.frame (hagree₁.mono ?_) (by omega) ?_ (by omega) (by omega)
      · intro y hy
        rw [Within] at hy
        omega
      · rw [hm₁, size_setSize_of_apart (by omega), size_setSize_self (by omega)]
    have hfind : findInsertion m₁ (x + w) configTOTAL_HEAP_SIZE L.xStart = .ok q :=
      hu₁.find (by omega) (by omega)
    obtain ⟨n, post', hjoin, hsize, hrest, hnext, hkeep, hagree⟩ :=
      hu₁.insert_linked (by omega)
    rw [joinNext_of_separated hsep] at hjoin
    obtain ⟨hhead, rfl⟩ := List.cons.inj hjoin
    obtain rfl : s - w = n := congrArg Block.size hhead
    refine ⟨insertAfter (endAddress L) m₁ q (x + w), ⟨s - w, none⟩ :: post, ?_, rfl, ?_,
      ⟨hnext, hsize, hrest⟩, ?_, ?_⟩
    · have haligned : configASSERT (x + w &&& 7 = 0) = .ok () := by
        have halign := L.alignedHeap_mod
        have hpremod := hu.roomy_before.total_mod
        apply if_pos
        rw [and_seven]
        omega
      dsimp only
      rw [haligned, Fallible.ok_bind]
      rw [prvInsertBlockIntoFreeList]
      dsimp only
      rw [← hm₁, hfind, Fallible.ok_bind, hend]
      rfl
    · have hout : ∀ y, Within x 8 y → ¬(Within (x + w) 8 y ∨ Within q 8 y) :=
        fun y hy => hy.apart_or (by omega) (by omega)
      rw [size_of_agreeOff hagree hout, hm₁, size_setSize_self (by omega)]
    · rw [hkeep]
      exact size_of_agreeOff hagree₁ fun y hy => hy.apart (by omega)
    · refine (hagree.mono ?_).trans (hagree₁.mono fun y hy => .inl hy)
      exact fun y hy => hy.imp_left fun hy => hy.mono (by omega) (by omega)
  · rw [if_neg hsplit, if_neg hsplit, if_neg hsplit]
    exact ⟨h.mem, post, rfl, rfl, hu.size, hu.after, rfl, AgreeOff.refl _ _⟩

/-- Taking the free block of `s` bytes after `pre` for a caller that asked for `n` bytes. -/
theorem takeBlock_eq {q x : ℕ} (ht : Tiled L h (pre ++ ⟨s, none⟩ :: post)) (hpos : 0 < n)
    (hw : roundedSize n ≤ s) (hq : lastFree L.xStart (pucAlignedHeap L) pre = q)
    (hx : pucAlignedHeap L + total pre = x) :
    ∃ h', takeBlock L h q x (roundedSize n) = .ok (h', x + 8) ∧
      Tiled L h' (taken pre n s post) ∧
      h'.xMinimumEverFreeBytesRemaining =
        min h.xMinimumEverFreeBytesRemaining h'.xFreeBytesRemaining ∧
      AgreeOff (fun y => Within x s y ∨ Within q 8 y) h'.mem h.mem := by
  obtain ⟨hnext, hu⟩ := ht.unlink hq hx
  have hxStart := L.xStart_apart
  have hapart := hu.node_apart
  have hbound := hu.bounds
  have hle := L.area_le
  have hgranted := le_granted heapMINIMUM_BLOCK_SIZE hw
  have hagree₁ := agreeOff_setNext h.mem q (pxNextFreeBlock h.mem x)
  -- the block leaves the list, is split, and its header is written
  obtain ⟨m₁, hm₁⟩ : ∃ m₁, m₁ = setNextFreeBlock h.mem q (pxNextFreeBlock h.mem x) := ⟨_, rfl⟩
  rw [← hm₁] at hu hagree₁
  obtain ⟨m₂, rest, hsplit, hcarve, hsize₂, hrest₂, hkeep₂, hagree₂⟩ :=
    splitBlock_eq (h := { h with mem := m₁ }) hu n hx ht.pxEnd ht.separated hw
      (by unfold roundedSize; omega) (by unfold roundedSize; omega)
  generalize hg : granted heapMINIMUM_BLOCK_SIZE (roundedSize n) s = g at *
  obtain ⟨m₃, hm₃⟩ : ∃ m₃, m₃ = setNextFreeBlock (setBlockSize m₂ x (g + 2147483648)) x 0 :=
    ⟨_, rfl⟩
  have hagree₃ : AgreeOff (Within x 8) m₃ m₂ := by
    rw [hm₃]
    exact (agreeOff_setNext _ _ _).trans (agreeOff_setSize _ _ _)
  have hagree : AgreeOff (fun y => Within x s y ∨ Within q 8 y) m₃ h.mem := by
    have hmin := hu.minimum
    refine (hagree₃.mono ?_).trans (hagree₂.trans (hagree₁.mono fun y hy => .inr hy))
    exact fun y hy => .inl (hy.mono le_rfl (by omega))
  have htaken : taken pre n s post = pre ++ ⟨g, some n⟩ :: rest := by
    rw [taken, hcarve]
  have hsized := ht.sized_taken hw hpos
  have hsizedRest : ∀ b ∈ (⟨g, some n⟩ : Block ℕ) :: rest, Sized b :=
    (List.forall_mem_append.mp (htaken ▸ hsized)).2
  have hroomy : Roomy rest := fun b hb =>
    have hb := hsizedRest b (List.mem_cons_of_mem _ hb)
    ⟨hb.1, hb.2.1⟩
  have hmin : 16 ≤ g := (hsizedRest _ List.mem_cons_self).1
  have hsizeq : xBlockSize m₃ q = xBlockSize h.mem q := by
    rw [(header_of_agreeOff hagree₃ (by omega)).2, hkeep₂]
    exact hm₁ ▸ size_setNext (.inl rfl)
  have hfree : subtract h.xFreeBytesRemaining g = freeBytes (taken pre n s post) :=
    hg ▸ ht.free_taken hw
  refine ⟨{ h with
      mem := m₃
      xFreeBytesRemaining := subtract h.xFreeBytesRemaining g
      xMinimumEverFreeBytesRemaining :=
        if subtract h.xFreeBytesRemaining g < h.xMinimumEverFreeBytesRemaining then
          subtract h.xFreeBytesRemaining g
        else h.xMinimumEverFreeBytesRemaining }, ?_,
    ⟨ht.pxEnd, ht.allocatedBit, ?_, ?_, ?_, ?_, ?_, ?_, hfree⟩, ?_, hagree⟩
  · rw [takeBlock]
    dsimp only
    rw [hnext, ← hm₁, hsplit, Fallible.ok_bind]
    dsimp only
    rw [hsize₂, ht.allocatedBit, or_allocated (by omega), ← hm₃]
    rfl
  · rw [← ht.area]
    rw [taken]
    simp only [total_append, total_cons, total_carve hw]
  · rw [htaken]
    have hpre := (links_append.mp ht.links).1
    subst hq hx
    have hroomyPre := hu.roomy_before
    refine links_taken (R := Within (pucAlignedHeap L + total pre) s) hpre hroomyPre (by omega)
      hagree ?_ ?_ ?_ ?_ ?_
    · exact fun y hy => ⟨hy.1, hy.apart (by omega)⟩
    · exact hsizeq
    · rw [hm₃, next_setNext_self (by omega)]
    · rw [hm₃, size_setNext (.inl rfl), size_setSize_self (by omega)]
    · exact hrest₂.rebase hroomy (header_of_agreeOff hagree₃ (by omega)).1
        fun r hr _ _ => header_of_agreeOff hagree₃ (by omega)
  · by_cases hqs : q = L.xStart
    · rw [← hqs, hsizeq, hqs, ht.start_size]
    · have hnode := hu.node_bounds
      rw [size_of_agreeOff hagree, ht.start_size]
      exact fun y hy => hy.apart_or (by omega) (by omega)
  · rw [next_of_agreeOff hagree, ht.end_next]
    exact fun y hy => hy.apart_or (by omega) (by omega)
  · exact hsized
  · exact separated_carve ht.separated n
  · dsimp only
    split <;> omega

/-- The first free block that a request of `n` bytes fits into, in the order of the list. -/
def firstFit (n : ℕ) (free : List (ℕ × ℕ)) : Option (ℕ × ℕ) :=
  if n = 0 then none else free.find? fun b => roundedSize n ≤ b.2

/-- A request that fits nowhere leaves the heap as it is. -/
theorem allocate_none (ht : Tiled L h bs) (hn : n < 4294967296)
    (hfit : firstFit n (frees (pucAlignedHeap L) bs) = none) :
    allocate L h n = .ok (h, 0) := by
  rw [allocate]
  rw [ht.allocatedBit]
  split
  · next hsmall =>
    rcases Nat.eq_zero_or_pos n with rfl | hpos
    · rw [adjustSize_zero, Fallible.ok_bind, if_neg (by omega)]
      rfl
    · rw [adjustSize_eq hpos ((and_allocated hn).mp hsmall), Fallible.ok_bind]
      split
      · have hfind := findBlock_eq (w := roundedSize n) (ht.area.symm ▸ ht.links) ht.roomy
          L.alignedHeap_pos (by rw [ht.area, ht.end_next]) ht.length_lt
        rw [firstFit] at hfit
        rw [if_neg (by omega)] at hfit
        rw [hfit] at hfind
        obtain ⟨prev, hfind⟩ := hfind
        rw [hfind, Fallible.ok_bind]
        dsimp only
        rw [ht.area, ht.pxEnd, if_neg (by simp)]
        rfl
      · rfl
  · rfl

/-- A request that fits takes the first block that is large enough. -/
theorem allocate_some {x : ℕ} (ht : Tiled L h bs) (hn : n < 4294967296)
    (hfit : firstFit n (frees (pucAlignedHeap L) bs) = some (x, s)) :
    ∃ pre post h', bs = pre ++ ⟨s, none⟩ :: post ∧ pucAlignedHeap L + total pre = x ∧
      0 < n ∧ roundedSize n ≤ s ∧ allocate L h n = .ok (h', x + 8) ∧
      Tiled L h' (taken pre n s post) ∧
      h'.xMinimumEverFreeBytesRemaining =
        min h.xMinimumEverFreeBytesRemaining h'.xFreeBytesRemaining ∧
      AgreeOff (fun y => Within x s y ∨ Within (lastFree L.xStart (pucAlignedHeap L) pre) 8 y)
        h'.mem h.mem := by
  have hpos : 0 < n := by
    by_contra hzero
    rw [firstFit] at hfit
    rw [if_pos (by omega)] at hfit
    cases hfit
  have hfind := findBlock_eq (w := roundedSize n) (ht.area.symm ▸ ht.links) ht.roomy
    L.alignedHeap_pos (by rw [ht.area, ht.end_next]) ht.length_lt
  rw [firstFit] at hfit
  rw [if_neg (by omega)] at hfit
  rw [hfit] at hfind
  obtain ⟨pre, post, rfl, hx, hw, hfind⟩ := hfind
  dsimp only at hx hw hfind
  obtain ⟨h', htake, ht', hmin, hagree⟩ := takeBlock_eq ht hpos hw rfl hx.symm
  refine ⟨pre, post, h', rfl, hx.symm, hpos, hw, ?_, ht', hmin, hagree⟩
  have hle : s ≤ h.xFreeBytesRemaining := by
    rw [ht.free, freeBytes_append, freeBytes_free]
    omega
  have hfree := ht.free_le
  have harea := ht.area
  have hend : x ≠ endAddress L := by
    have hs := ht.roomy.mid.1
    rw [total_append, total_cons] at harea
    dsimp only at hs harea
    omega
  have hsmall : n < 2147483648 := by
    rw [roundedSize] at hw
    omega
  rw [allocate]
  rw [ht.allocatedBit, if_pos ((and_allocated hn).mpr hsmall), adjustSize_eq hpos hsmall,
    Fallible.ok_bind, if_pos ⟨by unfold roundedSize; omega, by omega⟩, hfind, Fallible.ok_bind]
  dsimp only
  rw [ht.pxEnd, if_pos hend, htake]

/-- What a call leaves that took the free block of `s` bytes at `x`. -/
structure Allocated (L : Layout) (h : Heap) (bs : List (Block ℕ)) (n x s : ℕ)
    (pre post : List (Block ℕ)) (h' : Heap) : Prop where
  blocks : bs = pre ++ ⟨s, none⟩ :: post
  address : pucAlignedHeap L + total pre = x
  request_pos : 0 < n
  fits : roundedSize n ≤ s
  tiled : Tiled L h' (taken pre n s post)
  minimum : h'.xMinimumEverFreeBytesRemaining =
    min h.xMinimumEverFreeBytesRemaining h'.xFreeBytesRemaining
  agree : AgreeOff
    (fun y => Within x s y ∨ Within (lastFree L.xStart (pucAlignedHeap L) pre) 8 y) h'.mem h.mem

/-- `pvPortMalloc` returns: null without a change, or the first free block that is large enough. -/
theorem pvPortMalloc_cases (ht : Tiled L (initialised L h) bs) (size : UInt32) :
    (firstFit size.toNat (frees (pucAlignedHeap L) bs) = none ∧
        pvPortMalloc L h size = .ok (initialised L h, 0)) ∨
      ∃ x s pre post h', firstFit size.toNat (frees (pucAlignedHeap L) bs) = some (x, s) ∧
        pvPortMalloc L h size = .ok (h', x + 8) ∧
        Allocated L (initialised L h) bs size.toNat x s pre post h' := by
  have hlt : size.toNat < 4294967296 := size.toNat_lt
  unfold pvPortMalloc configASSERT
  cases hfit : firstFit size.toNat (frees (pucAlignedHeap L) bs) with
  | none =>
    refine .inl ⟨rfl, ?_⟩
    rw [allocate_none ht hlt hfit, Fallible.ok_bind]
    dsimp only
    rw [Nat.zero_and, if_pos rfl]
    rfl
  | some found =>
    obtain ⟨x, s⟩ := found
    obtain ⟨pre, post, h', hbs, hx, hpos, hw, halloc, ht', hmin, hagree⟩ :=
      allocate_some ht hlt hfit
    refine .inr ⟨x, s, pre, post, h', rfl, ?_, hbs, hx, hpos, hw, ht', hmin, hagree⟩
    have halign := L.alignedHeap_mod
    have hmod := (roomy_append.mp (hbs ▸ ht.roomy)).1.total_mod
    rw [halloc, Fallible.ok_bind]
    dsimp only
    rw [and_seven, if_pos (by omega)]
    rfl

end Malloc

section Free

/-- The header of an allocated block. -/
theorem Tiled.header {x : ℕ} (ht : Tiled L h (pre ++ ⟨s, some n⟩ :: post))
    (hx : pucAlignedHeap L + total pre = x) :
    pxNextFreeBlock h.mem x = 0 ∧ xBlockSize h.mem x = s + 2147483648 ∧
      0 < x ∧ 16 ≤ s ∧ x + s + total post = endAddress L ∧ s < 2147483648 := by
  have harea := ht.area
  have hpos := L.alignedHeap_pos
  have hle := L.area_le
  have hs := ht.roomy.mid.1
  rw [total_append, total_cons] at harea
  dsimp only at harea hs
  obtain ⟨_, hnext, hsize, _⟩ := links_append.mp ht.links
  subst hx
  exact ⟨hnext, hsize, by omega, hs, by omega, by omega⟩

theorem getBlockSize_eq {x : ℕ} (ht : Tiled L h (pre ++ ⟨s, some n⟩ :: post))
    (hx : pucAlignedHeap L + total pre = x) : getBlockSize h (x + 8) = s := by
  have hlt := L.endAddress_lt
  obtain ⟨_, hsize, hpos, _, harea, _⟩ := ht.header hx
  rw [getBlockSize, xHeapStructSize]
  rw [subtract_of_le (by omega) (by omega), ht.allocatedBit, and_complement_allocated,
    Nat.add_sub_cancel, hsize]
  omega

/-- What clearing the allocated bit of a block that is not in the list leaves. -/
theorem Tiled.clear {x : ℕ} (ht : Tiled L h (pre ++ ⟨s, some n⟩ :: post))
    (hx : pucAlignedHeap L + total pre = x) :
    Unlinked L (setBlockSize h.mem x s) (lastFree L.xStart (pucAlignedHeap L) pre) x s pre
      post := by
  obtain ⟨_, _, _, hmin, harea, hlt⟩ := ht.header hx
  obtain ⟨hpre, _, _, hrest⟩ := links_append.mp ht.links
  obtain ⟨hroomy, hroomy'⟩ := roomy_append.mp ht.roomy
  have hroomyPost := (roomy_cons.mp hroomy').2
  have hxStart := L.xStart_apart
  have hlast := hroomy.lastFree_bounds L.xStart (pucAlignedHeap L)
  have hagree := agreeOff_setSize h.mem x s
  subst hx
  refine ⟨rfl, le_refl _, ?_, size_setSize_self (by omega), ?_, ?_, harea, hroomy, hroomyPost,
    by omega⟩
  · rw [(header_of_agreeOff hagree (by omega)).1]
    exact hpre.rebase hroomy (header_of_agreeOff hagree (by omega)).1
      fun r _ hr _ => header_of_agreeOff hagree (by omega)
  · exact hrest.rebase hroomyPost (header_of_agreeOff hagree (by omega)).1
      fun r hr _ _ => header_of_agreeOff hagree (by omega)
  · rw [(header_of_agreeOff hagree (by omega)).2, ht.start_size]

/-- The call of `vPortFree` for a block that its caller holds. -/
theorem vPortFree_call {q x : ℕ} (ht : Tiled L h (pre ++ ⟨s, some n⟩ :: post))
    (hx : pucAlignedHeap L + total pre = x)
    (hq : lastFree L.xStart (pucAlignedHeap L) pre = q) :
    vPortFree L h (x + 8) = .ok { h with
      mem := insertAfter (endAddress L) (setBlockSize h.mem x s) q x
      xFreeBytesRemaining := freeBytes (release pre s post) } := by
  obtain ⟨hnull, hsize, hpos, hmin, harea, hlt⟩ := ht.header hx
  have hu := ht.clear hx
  have hend := L.endAddress_lt
  have hle := L.area_le
  rw [hq] at hu
  have hfree : (h.xFreeBytesRemaining + s) % 4294967296 = freeBytes (release pre s post) := by
    have hfree := freeBytes_le_total pre
    have hfree' := freeBytes_le_total post
    rw [freeBytes_release, ht.free, freeBytes_append, freeBytes_live]
    omega
  have hlink : subtract (x + 8) xHeapStructSize = x := by
    rw [xHeapStructSize]
    rw [subtract_of_le (by omega) (by omega), Nat.add_sub_cancel]
  have hbit : s + 2147483648 &&& 2147483648 ≠ 0 := by
    rw [ne_eq, and_allocated (by omega)]
    omega
  have hclear : s + 2147483648 &&& complement 2147483648 = s := by
    rw [and_complement_allocated]
    omega
  have hfind : findInsertion (setBlockSize h.mem x s) x configTOTAL_HEAP_SIZE L.xStart = .ok q :=
    hu.find (by omega) (by omega)
  unfold vPortFree configASSERT
  rw [if_pos (by omega)]
  dsimp only
  rw [hlink, hsize, hnull, ht.allocatedBit, if_pos hbit, if_pos rfl, Fallible.ok_bind,
    Fallible.ok_bind, if_pos hbit, if_pos rfl, hclear]
  rw [prvInsertBlockIntoFreeList]
  dsimp only
  rw [hfind, Fallible.ok_bind, ht.pxEnd, size_setSize_self (by omega), hfree]
  rfl

/-- Releasing a block that its caller holds. -/
theorem vPortFree_eq {x : ℕ} (ht : Tiled L h (pre ++ ⟨s, some n⟩ :: post))
    (hx : pucAlignedHeap L + total pre = x) :
    ∃ h', vPortFree L h (x + 8) = .ok h' ∧ Tiled L h' (release pre s post) ∧
      h'.xMinimumEverFreeBytesRemaining = h.xMinimumEverFreeBytesRemaining ∧
      AgreeOff (fun y => Within x 8 y ∨ Within (lastFree L.xStart (pucAlignedHeap L) pre) 8 y)
        h'.mem h.mem := by
  obtain ⟨_, _, _, _, harea, _⟩ := ht.header hx
  have hu := ht.clear hx
  have hxStart := L.xStart_apart
  have hapart := hu.node_apart
  obtain ⟨hlinks, hstart, hagree⟩ := hu.insert_release hx
  have hagree' := hagree.trans ((agreeOff_setSize h.mem x s).mono fun y hy => .inl hy)
  refine ⟨_, vPortFree_call ht hx rfl,
    ⟨ht.pxEnd, ht.allocatedBit, ?_, hlinks, hstart, ?_, ?_, ?_, rfl⟩, rfl, hagree'⟩
  · rw [total_release]
    omega
  · dsimp only
    rw [next_of_agreeOff hagree', ht.end_next]
    exact fun y hy => hy.apart_or (by omega) (by omega)
  · obtain ⟨hpre, hpost⟩ := List.forall_mem_append.mp ht.sized
    obtain ⟨hs, hpost⟩ := List.forall_mem_cons.mp hpost
    refine forall_release ?_ hpre ⟨hs.1, hs.2.1, by simp⟩ hpost
    rintro k l ⟨hk, hkmod, _⟩ ⟨hl, hlmod, _⟩
    exact ⟨by dsimp only at *; omega, by dsimp only at *; omega, by simp⟩
  · obtain ⟨hpre, hpost⟩ := separated_live.mp ht.separated
    exact separated_release s hpre hpost

end Free

end RmMicroControllers
