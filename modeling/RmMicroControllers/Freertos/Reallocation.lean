import RmMicroControllers.Freertos.HeapTiling

/-!
# Reallocation

`pvPortRealloc` copies as many bytes as the old block has, its header counted, into the new
block. Where that fits behind the header of the new block the call is an allocation, a copy
and a release; where no block is found it writes through the null pointer.
-/

namespace RmMicroControllers

open Memory Segments Transition

variable {L : Layout} {h : Heap} {bs pre post : List (Block ℕ)} {m m' : Mem} {x s n : ℕ}

section Frames

/-- The header of a free block or of the list head is no part of an allocated block. -/
theorem Tiled.node_apart (ht : Tiled L h bs) (hbs : bs = pre ++ post)
    (hx : (x, s, n) ∈ lives (pucAlignedHeap L) bs) :
    lastFree L.xStart (pucAlignedHeap L) pre + 8 ≤ x ∨
      x + s ≤ lastFree L.xStart (pucAlignedHeap L) pre := by
  have hxStart := L.xStart_apart
  have hbound := lives_bounds hx
  rw [ht.area] at hbound
  dsimp only at hbound
  rcases lastFree_mem L.xStart (pucAlignedHeap L) pre with hlast | ⟨k, hmem⟩
  · omega
  · have hfree : (lastFree L.xStart (pucAlignedHeap L) pre, k) ∈
        frees (pucAlignedHeap L) bs := by
      rw [hbs, frees_append]
      exact List.mem_append_left _ hmem
    have hdisj := lives_frees_disjoint hx hfree
    have hk := ht.roomy.le_of_mem_frees hfree
    dsimp only at hdisj hk
    omega

/-- Writes into the payload of one block do not show elsewhere after the release of another. -/
theorem vPortFree_congr {y k o : ℕ} (ht : Tiled L h (pre ++ ⟨s, some n⟩ :: post))
    (hx : pucAlignedHeap L + total pre = x)
    (hy : (y, k, o) ∈ lives (pucAlignedHeap L) (pre ++ ⟨s, some n⟩ :: post)) (hne : y ≠ x)
    (hagree : AgreeOff (Within (y + 8) (k - 8)) m' h.mem) :
    ∃ h₁ h₂, vPortFree L h (x + 8) = .ok h₁ ∧
      vPortFree L { h with mem := m' } (x + 8) = .ok h₂ ∧
      AgreeOff (Within (y + 8) (k - 8)) h₂.mem h₁.mem ∧ h₂ = { h₁ with mem := h₂.mem } := by
  have hdisj : x + s ≤ y ∨ y + k ≤ x := by
    rw [lives_append, lives_live, hx, List.mem_append, List.mem_cons] at hy
    rcases hy with hy | hy | hy
    · exact .inr (hx ▸ (lives_bounds hy).2)
    · exact absurd (congrArg Prod.fst hy) hne
    · exact .inl (lives_bounds hy).1
  have hmin : 16 ≤ s := ht.roomy.mid.1
  have hminy : 16 ≤ k := ht.roomy.le_of_mem_lives hy
  have hboundy := (lives_bounds hy).2
  rw [ht.area] at hboundy
  dsimp only at hboundy
  have ht' : Tiled L { h with mem := m' } (pre ++ ⟨s, some n⟩ :: post) := by
    obtain ⟨pre₁, post₁, hbs, hat⟩ := mem_lives hy
    dsimp only at hbs hat
    rw [hbs] at ht ⊢
    exact ht.write_payload hat.symm hagree
  have hu := ht.clear hx
  have hnode := hu.node_apart
  have hapart := ht.node_apart rfl hy
  have hnext := hu.after.next_mem
  have haddress := hu.address
  have hbounds := hu.bounds
  refine ⟨_, _, vPortFree_call ht hx rfl, vPortFree_call ht' hx rfl, ?_, rfl⟩
  generalize lastFree L.xStart (pucAlignedHeap L) pre = q at *
  have hstored : AgreeOff (Within (y + 8) (k - 8)) (setBlockSize m' x s) (setBlockSize h.mem x s) :=
    hagree.store32 _ _
  have hq : ∀ z, Within q 8 z → ¬Within (y + 8) (k - 8) z := fun z hz => hz.apart (by omega)
  refine insertAfter_congr hstored (by omega) hq ?_ ?_
  · exact fun z hz => hz.apart (by omega)
  · rw [next_of_agreeOff hstored hq]
    rcases hnext with hend | ⟨k', hmem⟩
    · rw [hend]
      exact fun z hz => hz.apart (by omega)
    · have hfree := lives_frees_disjoint hy (y := (_, k')) (by
        rw [frees_append, frees_live, hx]
        exact List.mem_append_right _ hmem)
      have hk' := hu.roomy_after.le_of_mem_frees hmem
      dsimp only at hfree hk'
      exact fun z hz => hz.apart (by omega)

end Frames

section Call

/-- The size of the block that `pvPortMalloc` takes for a request, read from the free list. -/
def grantedSize (L : Layout) (h : Heap) (size : UInt32) : Option ℕ :=
  (firstFit size.toNat (freeBlocks L h)).map fun b =>
    granted heapMINIMUM_BLOCK_SIZE (roundedSize size.toNat) b.2

/-- The whole old block, its header counted, fits behind the header of the new one. -/
def Fits (L : Layout) (h : Heap) (pv : ℕ) (size : UInt32) : Prop :=
  ∀ g ∈ grantedSize L h size, getBlockSize h pv + xHeapStructSize ≤ g

/-- Without a new block the copy starts at the null pointer. -/
theorem pvPortRealloc_none {size : UInt32} (ht : Tiled L h (pre ++ ⟨s, some n⟩ :: post))
    (hx : pucAlignedHeap L + total pre = x)
    (hcall : pvPortMalloc L h size = .ok (h, 0)) :
    pvPortRealloc L h (x + 8) size = .error .nullWrite := by
  have hmin : 16 ≤ s := ht.roomy.mid.1
  obtain ⟨k, rfl⟩ := Nat.exists_eq_succ_of_ne_zero (by omega : s ≠ 0)
  rw [pvPortRealloc]
  rw [hcall, Fallible.ok_bind]
  dsimp only
  rw [getBlockSize_eq ht hx, copyLoop, if_pos rfl]
  rfl

/-- A reallocation whose copy fits is an allocation, a copy and a release. -/
theorem pvPortRealloc_some {size : UInt32} {x' s' : ℕ} {pre' post' : List (Block ℕ)} {h₁ : Heap}
    (ht : Tiled L h (pre ++ ⟨s, some n⟩ :: post)) (hx : pucAlignedHeap L + total pre = x)
    (hcall : pvPortMalloc L h size = .ok (h₁, x' + 8))
    (ha : Allocated L h (pre ++ ⟨s, some n⟩ :: post) size.toNat x' s' pre' post' h₁)
    (hfits : s + 8 ≤ granted heapMINIMUM_BLOCK_SIZE (roundedSize size.toNat) s') :
    ∃ h₂ h' pre₁ post₁, taken pre' size.toNat s' post' = pre₁ ++ ⟨s, some n⟩ :: post₁ ∧
      pucAlignedHeap L + total pre₁ = x ∧
      vPortFree L h₁ (x + 8) = .ok h₂ ∧
      pvPortRealloc L h (x + 8) size = .ok (h', x' + 8) ∧
      Tiled L h' (release pre₁ s post₁) ∧
      (∀ i < s - 8, h'.mem (x' + 8 + i) = h.mem (x + 8 + i)) ∧
      AgreeOff (Within (x' + 8)
        (granted heapMINIMUM_BLOCK_SIZE (roundedSize size.toNat) s' - 8)) h'.mem h₂.mem ∧
      h' = { h₂ with mem := h'.mem } := by
  have hgranted := (le_granted heapMINIMUM_BLOCK_SIZE ha.fits).2
  have htaken : lives (pucAlignedHeap L) (taken pre' size.toNat s' post') =
      lives (pucAlignedHeap L) pre' ++
        (x', granted heapMINIMUM_BLOCK_SIZE (roundedSize size.toNat) s', size.toNat) ::
          lives (x' + s') post' := lives_taken ha.fits ha.address
  generalize hg : granted heapMINIMUM_BLOCK_SIZE (roundedSize size.toNat) s' = g at *
  -- the old block before and after the allocation, and the new one
  have hold : (x, s, n) ∈ lives (pucAlignedHeap L) (pre ++ ⟨s, some n⟩ :: post) :=
    mem_lives_mid hx
  have hfree : (x', s') ∈ frees (pucAlignedHeap L) (pre ++ ⟨s, some n⟩ :: post) :=
    ha.blocks ▸ mem_frees_mid ha.address
  have hdisj := lives_frees_disjoint hold hfree
  have hmin : 16 ≤ s := ht.roomy.mid.1
  have hold₁ : (x, s, n) ∈ lives (pucAlignedHeap L) (taken pre' size.toNat s' post') := by
    rw [htaken]
    rw [ha.blocks, lives_append, lives_free, ha.address] at hold
    exact List.mem_append.mpr ((List.mem_append.mp hold).imp_right (List.mem_cons_of_mem _))
  have hnew : (x', g, size.toNat) ∈ lives (pucAlignedHeap L) (taken pre' size.toNat s' post') := by
    rw [htaken]
    exact List.mem_append_right _ List.mem_cons_self
  obtain ⟨pre₁, post₁, hbs₁, hat₁⟩ := mem_lives hold₁
  dsimp only at hdisj hbs₁ hat₁
  have ht₁ := ha.tiled
  rw [hbs₁] at ht₁ hnew
  -- the copy
  obtain ⟨m', hm', hcopy, hagree⟩ := copyLoop_eq h₁.mem
    (by omega : x' + 8 ≠ 0) (by omega : x + 8 + s ≤ x' + 8 ∨ x' + 8 + s ≤ x + 8)
  have htail : AgreeOff (Within (x' + 8) (g - 8)) m' h₁.mem :=
    hagree.mono fun y hy => hy.mono le_rfl (by omega)
  obtain ⟨h₂, h', hfree₂, hfree', hsame, hrest⟩ :=
    vPortFree_congr ht₁ hat₁.symm hnew (by omega) htail
  have ht' : Tiled L { h₁ with mem := m' } (pre₁ ++ ⟨s, some n⟩ :: post₁) := by
    obtain ⟨pre₂, post₂, hbs₂, hat₂⟩ := mem_lives hnew
    dsimp only at hbs₂ hat₂
    rw [hbs₂] at ht₁ ⊢
    exact ht₁.write_payload hat₂.symm htail
  obtain ⟨h'', hfree'', htiled, _, hwrites⟩ := vPortFree_eq ht' hat₁.symm
  obtain rfl : h' = h'' := Except.ok.inj (hfree'.symm.trans hfree'')
  refine ⟨h₂, h', pre₁, post₁, hbs₁, hat₁.symm, hfree₂, ?_, htiled, ?_, hsame, hrest⟩
  · rw [pvPortRealloc]
    rw [hcall, Fallible.ok_bind]
    dsimp only
    rw [getBlockSize_eq ht₁ hat₁.symm, hm', Fallible.ok_bind, hfree', Fallible.ok_bind]
    rfl
  · -- neither the allocation nor the release writes into a payload
    intro i hi
    have hnode₁ := ht₁.node_apart rfl hnew
    have hnode := ht.node_apart ha.blocks hold
    rw [hwrites]
    · dsimp only
      rw [hcopy i (by omega), ha.agree]
      intro hin
      unfold Within at hin
      omega
    · intro hin
      unfold Within at hin
      omega

end Call

section Runs

namespace Session

variable {c c' : Session}

/-- The calls that callers may make, where each reallocation stays inside the new block. -/
def Sound (L : Layout) (c : Session) (e : HeapEvent) : Prop :=
  c.Admits e ∧ match e with
    | .realloc pv size => Fits L c.heap pv size
    | _ => True

/-- What a reallocation of a block that is held does to the session, in terms of the two
calls it is made of. -/
theorem realloc_cases {pv : ℕ} {size : UInt32} (hv : Valid L c) (hpv : c.Holds pv)
    (hfits : Fits L c.heap pv size) :
    (pvPortMalloc L c.heap size = .ok (c.heap, 0) ∧
        pvPortRealloc L c.heap pv size = .error .nullWrite) ∨
      ∃ h₁ q h₂ h', q ≠ 0 ∧ pvPortMalloc L c.heap size = .ok (h₁, q) ∧
        vPortFree L h₁ pv = .ok h₂ ∧ pvPortRealloc L c.heap pv size = .ok (h', q) ∧
        (∀ i < getBlockSize c.heap pv - 8, h'.mem (q + i) = c.heap.mem (pv + i)) ∧
        AgreeOff (Within q (getBlockSize h₁ q - 8)) h'.mem h₂.mem ∧
        h' = { h₂ with mem := h'.mem } ∧
        ∃ bs, Tiled L h' bs ∧
          (hold q size.toNat (drop pv c.live)).Perm (holders L bs) := by
  obtain ⟨bs, ht, hperm⟩ := hv.of_holds hpv
  obtain ⟨n, hn⟩ := hpv
  obtain ⟨pre, s, post, rfl, rfl⟩ := block_of_holds hperm hn
  have hinit := ht.initialised_eq
  rcases pvPortMalloc_cases (hinit.symm ▸ ht) size with ⟨_, hcall⟩ |
    ⟨x', s', pre', post', h₁, hfit, hcall, ha⟩
  · rw [hinit] at hcall
    exact .inl ⟨hcall, pvPortRealloc_none ht rfl hcall⟩
  · rw [hinit] at ha
    have hgranted : grantedSize L c.heap size =
        some (granted heapMINIMUM_BLOCK_SIZE (roundedSize size.toNat) s') := by
      rw [grantedSize]
      rw [ht.freeBlocks_eq, hfit]
      rfl
    -- the copied length is that of the whole old block, which the new one has room for
    have hle := hfits _ hgranted
    rw [getBlockSize_eq ht rfl] at hle
    obtain ⟨h₂, h', pre₁, post₁, hbs₁, hat₁, hfree₂, hrealloc, ht', hcopy, hagree, hrest⟩ :=
      pvPortRealloc_some ht rfl hcall ha hle
    obtain ⟨rest, htaken⟩ := taken_eq pre' size.toNat s' post'
    have hsize : getBlockSize h₁ (x' + 8) =
        granted heapMINIMUM_BLOCK_SIZE (roundedSize size.toNat) s' :=
      getBlockSize_eq (htaken ▸ ha.tiled) ha.address
    refine .inr ⟨h₁, x' + 8, h₂, h', by omega, hcall, hfree₂, hrealloc, ?_, ?_, hrest, _, ht', ?_⟩
    · rw [getBlockSize_eq ht rfl]
      exact hcopy
    · rw [hsize]
      exact hagree
    · -- giving the old block back after taking the new one holds the same pointers
      have hlive : (pucAlignedHeap L + total pre, s, n) ∈
          lives (pucAlignedHeap L) (pre ++ ⟨s, some n⟩ :: post) := mem_lives_mid rfl
      have hfree : (x', s') ∈ frees (pucAlignedHeap L) (pre ++ ⟨s, some n⟩ :: post) :=
        ha.blocks ▸ mem_frees_mid ha.address
      have hlives := lives_frees_disjoint hlive hfree
      have hs := ht.roomy.mid.1
      have hs' := ht.roomy.le_of_mem_frees hfree
      have hheld := holders_taken ha.fits ha.address (ha.blocks ▸ hperm)
      have hroomy := ha.tiled.roomy
      rw [hbs₁] at hheld hroomy
      have hdropped := holders_release hat₁ hroomy
        (c := { c with live := hold (x' + 8) size.toNat c.live }) hheld
      refine List.Perm.trans (List.Perm.of_eq ?_) hdropped
      dsimp only at hlives hs hs' ⊢
      unfold hold drop
      rw [if_neg (by omega), if_neg (by omega), List.filter_cons, if_pos]
      simp only [ne_eq, decide_not, Bool.not_eq_true', decide_eq_false_iff_not]
      omega

theorem realloc_valid {pv : ℕ} {size : UInt32} (hv : Valid L c) (hpv : c.Holds pv)
    (hfits : Fits L c.heap pv size) (hstep : step L c (.realloc pv size) = .ok c') :
    Valid L c' := by
  rw [step] at hstep
  rcases realloc_cases hv hpv hfits with ⟨_, hfault⟩ |
    ⟨_, q, _, h', _, _, _, hcall, _, _, _, bs, ht, hperm⟩
  · rw [hfault] at hstep
    cases hstep
  · rw [hcall, Fallible.ok_bind] at hstep
    obtain rfl := Fallible.pure_eq_ok.mp hstep
    exact valid_of_tiled ht hperm

theorem sound_valid {e : HeapEvent} (hv : Valid L c) (hsound : Sound L c e)
    (hstep : step L c e = .ok c') : Valid L c' := by
  obtain ⟨hadmits, hfits⟩ := hsound
  cases e with
  | malloc size => exact malloc_valid hv hstep
  | free pv => exact free_valid hv hadmits hstep
  | calloc num size => exact calloc_valid hv hstep
  | realloc pv size => exact realloc_valid hv hadmits hfits hstep
  | store address byte => exact store_valid hv hadmits hstep

instance decidableFits (L : Layout) (h : Heap) (pv : ℕ) (size : UInt32) :
    Decidable (Fits L h pv size) :=
  inferInstanceAs (Decidable (∀ g ∈ grantedSize L h size, getBlockSize h pv + 8 ≤ g))

instance decidableSound (L : Layout) (c : Session) (e : HeapEvent) : Decidable (Sound L c e) :=
  match e with
  | .malloc _ => inferInstanceAs (Decidable (True ∧ True))
  | .free pv => inferInstanceAs (Decidable (c.Holds pv ∧ True))
  | .calloc _ _ => inferInstanceAs (Decidable (True ∧ True))
  | .realloc pv size => inferInstanceAs (Decidable (c.Holds pv ∧ Fits L c.heap pv size))
  | .store a b => inferInstanceAs (Decidable (c.Admits (.store a b) ∧ True))

/-- The runs in which every reallocation stays inside the new block. -/
abbrev SoundRuns (L : Layout) (m : Mem) (es : List HeapEvent) (c : Session) : Prop :=
  Run (Guarded (Sound L) (ofExcept (step L))) (start m) es c

theorem sound_run {es : List HeapEvent} (hrun : SoundRuns L m es c) : Valid L c := by
  refine hrun.invariant (I := Valid L) ?_ (start_valid L m)
  exact fun c e c' hv hstep => sound_valid hv hstep.1 hstep.2

/-- The call moves the contents, releases exactly `pv` and writes nothing outside the payload
of the block that it returns, beyond what the allocation and the release write. -/
def ReallocPreserves (L : Layout) (c : Session) (pv : ℕ) (size : UInt32) : Prop :=
  ∃ h₁ q h₂ h', pvPortMalloc L c.heap size = .ok (h₁, q) ∧ vPortFree L h₁ pv = .ok h₂ ∧
    pvPortRealloc L c.heap pv size = .ok (h', q) ∧
    (∀ i < min (getBlockSize c.heap pv - 8) size.toNat, h'.mem (q + i) = c.heap.mem (pv + i)) ∧
    AgreeOff (Within q (getBlockSize h₁ q - 8)) h'.mem h₂.mem ∧
    h' = { h₂ with mem := h'.mem } ∧
    ∃ bs, Tiled L h' bs ∧ (hold q size.toNat (drop pv c.live)).Perm (holders L bs)

theorem realloc_preserves {es : List HeapEvent} {pv q : ℕ} {size : UInt32} {h₁ : Heap}
    (hrun : SoundRuns L m es c) (hpv : c.Holds pv)
    (hmalloc : pvPortMalloc L c.heap size = .ok (h₁, q)) (hq : q ≠ 0)
    (hfits : Fits L c.heap pv size) : ReallocPreserves L c pv size := by
  rcases realloc_cases (sound_run hrun) hpv hfits with ⟨hcall, _⟩ |
    ⟨h₁, q, h₂, h', _, hcall, hfree, hrealloc, hcopy, hagree, hrest⟩
  · obtain ⟨_, rfl⟩ := Prod.mk.inj (Except.ok.inj (hcall.symm.trans hmalloc))
    exact absurd rfl hq
  · exact ⟨h₁, q, h₂, h', hcall, hfree, hrealloc,
      fun i hi => hcopy i (Nat.lt_of_lt_of_le hi (Nat.min_le_left _ _)), hagree, hrest⟩

/-- Growing a block of 8 bytes to 100 bytes on a fresh heap. -/
theorem realloc_preserves_growing :
    ∃ c, c.live = [(536870920, 8)] ∧ ReallocPreserves .internal c 536870920 100 := by
  obtain ⟨c, hrun, hend⟩ := Run.of_check (Sound .internal) (step .internal) (start fun _ => 255)
    [.malloc 8, .store 536870920 7]
    (fun c => (c.live, (pvPortMalloc .internal c.heap 100).toOption.map Prod.snd,
      decide (Fits .internal c.heap 536870920 100)))
    (x := ([(536870920, 8)], some 536870936, true)) (by decide +kernel)
  simp only [Prod.mk.injEq, decide_eq_true_eq] at hend
  obtain ⟨hlive, hmalloc, hfits⟩ := hend
  obtain ⟨⟨h₁, q⟩, hcall, rfl⟩ := Fallible.exists_ok_of_toOption hmalloc
  refine ⟨c, hlive, realloc_preserves hrun ⟨8, ?_⟩ hcall (by decide) hfits⟩
  rw [hlive]
  exact List.mem_cons_self

/-- What the two calls and the reallocation leave in the byte at `b`, to be run. -/
def probeRealloc (L : Layout) (h : Heap) (pv : ℕ) (size : UInt32) (b : ℕ) :
    Except HeapFault (List ℕ) := do
  let r ← pvPortMalloc L h size
  let h₂ ← vPortFree L r.1 pv
  let r' ← pvPortRealloc L h pv size
  pure [r.2, getBlockSize r.1 r.2, (h₂.mem b).toNat, (r'.1.mem b).toNat]

/-- A reallocation to the same size on a fresh heap overwrites the size of the free block
behind the new one. -/
theorem realloc_overruns :
    ∃ c, SoundRuns .internal (fun _ => 0) [.malloc 8] c ∧ c.Holds 536870920 ∧
      (∃ h₁ q, pvPortMalloc .internal c.heap 8 = .ok (h₁, q) ∧ q ≠ 0) ∧
      ¬ReallocPreserves .internal c 536870920 8 := by
  obtain ⟨c, hrun, hend⟩ := Run.of_check (Sound .internal) (step .internal) (start fun _ => 0)
    [.malloc 8]
    (fun c => (c.live, (pvPortMalloc .internal c.heap 8).toOption.map Prod.snd,
      (probeRealloc .internal c.heap 536870920 8 536870951).toOption))
    (x := ([(536870920, 8)], some 536870936, some [536870936, 16, 0, 128])) (by decide +kernel)
  simp only [Prod.mk.injEq] at hend
  obtain ⟨hlive, hmalloc, hprobe⟩ := hend
  have hheld : c.Holds 536870920 := ⟨8, by rw [hlive]; exact List.mem_cons_self⟩
  refine ⟨c, hrun, hheld, ?_, ?_⟩
  · obtain ⟨⟨h₁, q⟩, hcall, hq⟩ := Fallible.exists_ok_of_toOption hmalloc
    exact ⟨h₁, q, hcall, by dsimp only at hq; omega⟩
  · rintro ⟨h₁, q, h₂, h', hmalloc, hfree, hrealloc, _, hagree, _⟩
    rw [probeRealloc] at hprobe
    rw [hmalloc, Fallible.ok_bind] at hprobe
    dsimp only at hprobe
    rw [hfree, Fallible.ok_bind, hrealloc, Fallible.ok_bind] at hprobe
    obtain ⟨hq, hsize, hbyte, hbyte'⟩ : q = 536870936 ∧ getBlockSize h₁ q = 16 ∧
        (h₂.mem 536870951).toNat = 0 ∧ (h'.mem 536870951).toNat = 128 := by
      simpa using Option.some.inj hprobe
    have hout : ¬Within q (getBlockSize h₁ q - 8) 536870951 := by
      rw [hsize]
      rw [Within]
      omega
    have hsame := hagree 536870951 hout
    rw [hsame] at hbyte'
    omega

/-- A reallocation that finds no block leaves the heap and the block as they are. -/
def ReallocKeeps (L : Layout) (c : Session) (pv : ℕ) (size : UInt32) : Prop :=
  pvPortRealloc L c.heap pv size = .ok (c.heap, 0)

/-- It never does: the copy starts at the null pointer. -/
theorem realloc_failure_faults {es : List HeapEvent} {pv : ℕ} {size : UInt32} {h₁ : Heap}
    (hrun : SoundRuns L m es c) (hpv : c.Holds pv)
    (hmalloc : pvPortMalloc L c.heap size = .ok (h₁, 0)) :
    pvPortRealloc L c.heap pv size = .error .nullWrite ∧ ¬ReallocKeeps L c pv size := by
  have hv := sound_run hrun
  obtain ⟨bs, ht, hperm⟩ := hv.of_holds hpv
  obtain ⟨n, hn⟩ := hpv
  obtain ⟨pre, s, post, rfl, rfl⟩ := block_of_holds hperm hn
  have hcall : pvPortMalloc L c.heap size = .ok (c.heap, 0) := by
    rcases pvPortMalloc_cases (ht.initialised_eq.symm ▸ ht) size with ⟨_, hcall⟩ |
      ⟨x, _, _, _, _, _, hcall, _⟩
    · rwa [ht.initialised_eq] at hcall
    · have hnull := congrArg Prod.snd (Except.ok.inj (hcall.symm.trans hmalloc))
      dsimp only at hnull
      omega
  have hfault := pvPortRealloc_none ht rfl hcall
  refine ⟨hfault, fun hkeeps => ?_⟩
  rw [ReallocKeeps] at hkeeps
  rw [hfault] at hkeeps
  cases hkeeps

/-- A block of 8 bytes, and a request that is larger than the heap. -/
theorem realloc_failure_faults_large :
    ∃ c, c.live = [(536870920, 8)] ∧
      (pvPortRealloc .internal c.heap 536870920 60000 = .error .nullWrite ∧
        ¬ReallocKeeps .internal c 536870920 60000) := by
  obtain ⟨c, hrun, hend⟩ := Run.of_check (Sound .internal) (step .internal) (start fun _ => 255)
    [.malloc 8]
    (fun c => (c.live, (pvPortMalloc .internal c.heap 60000).toOption.map Prod.snd))
    (x := ([(536870920, 8)], some 0)) (by decide +kernel)
  obtain ⟨hlive, hmalloc⟩ := Prod.mk.inj hend
  obtain ⟨⟨h₁, q⟩, hcall, rfl⟩ := Fallible.exists_ok_of_toOption hmalloc
  refine ⟨c, hlive, realloc_failure_faults hrun ⟨8, ?_⟩ hcall⟩
  rw [hlive]
  exact List.mem_cons_self

/-- There the old block is not kept: the call does not return. -/
theorem realloc_not_kept :
    ∃ c h₁, SoundRuns .internal (fun _ => 255) [.malloc 8] c ∧ c.Holds 536870920 ∧
      pvPortMalloc .internal c.heap 60000 = .ok (h₁, 0) ∧
      ¬ReallocKeeps .internal c 536870920 60000 := by
  obtain ⟨c, hrun, hend⟩ := Run.of_check (Sound .internal) (step .internal) (start fun _ => 255)
    [.malloc 8]
    (fun c => (c.live, (pvPortMalloc .internal c.heap 60000).toOption.map Prod.snd,
      (pvPortRealloc .internal c.heap 536870920 60000).toOption.isNone))
    (x := ([(536870920, 8)], some 0, true)) (by decide +kernel)
  simp only [Prod.mk.injEq] at hend
  obtain ⟨hlive, hmalloc, hrealloc⟩ := hend
  obtain ⟨⟨h₁, q⟩, hcall, rfl⟩ := Fallible.exists_ok_of_toOption hmalloc
  refine ⟨c, h₁, hrun, ⟨8, by rw [hlive]; exact List.mem_cons_self⟩, hcall, fun hkeeps => ?_⟩
  rw [ReallocKeeps] at hkeeps
  rw [hkeeps] at hrealloc
  cases hrealloc

end Session

end Runs

end RmMicroControllers
