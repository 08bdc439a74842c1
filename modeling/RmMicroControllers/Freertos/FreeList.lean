import RmMicroControllers.Freertos.BlockLink

/-!
# Walking and changing the free list

What the two search loops return on a linked heap, and what `prvInsertBlockIntoFreeList`
writes: the block given back ends up in the list joined with its free neighbours, and only
the headers of that block and of the one before it change.
-/

namespace RmMicroControllers

open Memory Segments

variable {α : Type*} {m m' : Mem} {p q a e x s w : ℕ} {bs pre post : List (Block α)}

section Search

/-- The insertion loop stops at the last free block below the block to insert. -/
theorem findInsertion_eq (h : Links m p a pre e) (hroomy : Roomy pre)
    (hbelow : a + total pre ≤ x) (habove : x ≤ e) {fuel : ℕ} (hfuel : pre.length < fuel) :
    findInsertion m x fuel p = .ok (lastFree p a pre) := by
  induction pre generalizing p a fuel with
  | nil =>
    obtain ⟨fuel, rfl⟩ := Nat.exists_eq_succ_of_ne_zero (Nat.ne_zero_of_lt hfuel)
    have hnext : pxNextFreeBlock m p = e := h
    exact if_neg (by omega)
  | cons b pre ih =>
    obtain ⟨hb, hpre⟩ := roomy_cons.mp hroomy
    rw [total_cons] at hbelow
    rw [List.length_cons] at hfuel
    obtain ⟨s, _ | o⟩ := b
    · obtain ⟨fuel, rfl⟩ := Nat.exists_eq_succ_of_ne_zero (Nat.ne_zero_of_lt hfuel)
      obtain ⟨hfirst, _, hrest⟩ := h
      dsimp only at hb hbelow
      rw [findInsertion, hfirst, if_pos (by omega)]
      exact ih hrest hpre (by omega) (by omega)
    · exact ih h.2.2 hpre (by dsimp only at hbelow; omega) (by omega)

/-- The allocation loop finds the first free block that is large enough, or the end. -/
theorem findBlock_eq (h : Links m p a bs (a + total bs)) (hroomy : Roomy bs) (ha : 0 < a)
    (hend : pxNextFreeBlock m (a + total bs) = 0) {fuel : ℕ} (hfuel : bs.length < fuel) :
    match (frees a bs).find? fun b => w ≤ b.2 with
    | none => ∃ prev, findBlock m w fuel p (pxNextFreeBlock m p) = .ok (prev, a + total bs)
    | some found => ∃ pre post, bs = pre ++ ⟨found.2, none⟩ :: post ∧
        found.1 = a + total pre ∧ w ≤ found.2 ∧
        findBlock m w fuel p (pxNextFreeBlock m p) = .ok (lastFree p a pre, found.1) := by
  induction bs generalizing p a fuel with
  | nil =>
    obtain ⟨fuel, rfl⟩ := Nat.exists_eq_succ_of_ne_zero (Nat.ne_zero_of_lt hfuel)
    have hnext : pxNextFreeBlock m p = a := h
    refine ⟨p, ?_⟩
    rw [hnext, findBlock, if_neg fun hc => hc.2 hend]
    rfl
  | cons b bs ih =>
    obtain ⟨hb, hbs⟩ := roomy_cons.mp hroomy
    rw [List.length_cons] at hfuel
    obtain ⟨s, _ | o⟩ := b
    · obtain ⟨fuel, rfl⟩ := Nat.exists_eq_succ_of_ne_zero (Nat.ne_zero_of_lt hfuel)
      obtain ⟨hfirst, hs, hrest⟩ := h
      rw [total_cons, ← Nat.add_assoc] at hend hrest ⊢
      rw [frees_free, List.find?_cons]
      by_cases hw : w ≤ s
      · -- the block is large enough and the loop stops at it
        rw [decide_eq_true hw]
        refine ⟨[], bs, rfl, rfl, hw, ?_⟩
        rw [hfirst, findBlock, if_neg fun hc => absurd hc.1 (by omega)]
        rfl
      · -- it is too small and not the end, so the loop goes on from it
        have hnonnull : pxNextFreeBlock m a ≠ 0 := by
          have hle := hrest.le_next
          dsimp only at hb
          omega
        have hgo := ih hrest hbs (by omega) hend (by omega : bs.length < fuel)
        rw [decide_eq_false hw]
        rw [hfirst, findBlock, if_pos ⟨by omega, hnonnull⟩]
        revert hgo
        cases (frees (a + s) bs).find? fun b => w ≤ b.2 with
        | none => exact id
        | some found =>
          rintro ⟨pre, post, rfl, hat, hfits, hfound⟩
          refine ⟨⟨s, none⟩ :: pre, post, rfl, ?_, hfits, hfound⟩
          rw [hat, total_cons, Nat.add_assoc]
    -- an allocated block is not in the list, and the loop does not see it
    · obtain ⟨_, _, hrest⟩ := h
      rw [total_cons, ← Nat.add_assoc] at hend hrest ⊢
      have hgo := ih hrest hbs (by omega) hend (by omega : bs.length < fuel)
      rw [frees_live]
      revert hgo
      cases (frees (a + s) bs).find? fun b => w ≤ b.2 with
      | none => exact id
      | some found =>
        rintro ⟨pre, post, rfl, hat, hfits, hfound⟩
        refine ⟨⟨s, some o⟩ :: pre, post, rfl, ?_, hfits, hfound⟩
        rw [hat, total_cons, Nat.add_assoc]

end Search

section Insert

/-- The merge with the next block: the block `x` of `s` bytes and what stands after it become
`joinNext s post`, and only the header of `x` is written. -/
theorem mergeNext_links (hs : xBlockSize m x = s) (hlinks : Links m p (x + s) post e)
    (hp : p = x ∨ p + 8 ≤ x ∨ x + 8 ≤ p) (he : x + s + total post = e)
    (hlt : e < 4294967296) (hroomy : Roomy post) (hmin : 8 ≤ s) :
    ∃ n post', joinNext s post = ⟨n, none⟩ :: post' ∧ Roomy post' ∧
      xBlockSize (mergeNext e m p x) x = n ∧
      Links (mergeNext e m p x) x (x + n) post' e ∧
      AgreeOff (Within x 8) (mergeNext e m p x) m := by
  have hfirst : x + s ≤ pxNextFreeBlock m p := Links.le_next (he.symm ▸ hlinks)
  rcases joinNext_cases s post with ⟨n, post', rfl, hjoin⟩ | ⟨hlive, hjoin⟩
  · -- the next block is free: its bytes and its link move to `x`
    obtain ⟨hn, hpost'⟩ := roomy_cons.mp hroomy
    obtain ⟨hnext, hsize, hrest⟩ := hlinks
    rw [total_cons] at he
    dsimp only at hn he
    have hm : mergeNext e m p x =
        setNextFreeBlock (setBlockSize m x (s + n)) x (pxNextFreeBlock m (x + s)) := by
      rw [mergeNext]
      rw [hs, hnext, if_pos rfl, if_pos (by omega), hsize]
      dsimp only
      rw [next_setSize hp, hnext, next_setSize (by omega)]
    have hagree : AgreeOff (Within x 8) (mergeNext e m p x) m := by
      rw [hm]
      exact (agreeOff_setNext _ _ _).trans (agreeOff_setSize _ _ _)
    refine ⟨s + n, post', hjoin, hpost', ?_, ?_, hagree⟩
    · rw [hm, size_setNext (.inl rfl), size_setSize_self (by omega)]
    · rw [← Nat.add_assoc]
      refine hrest.rebase hpost' ?_ fun r hr _ _ => header_of_agreeOff hagree (by omega)
      rw [hm, next_setNext_self (pxNextFreeBlock_lt m (x + s))]
  · -- the next block is allocated or the end: `x` takes over the link of `p`
    have hm : mergeNext e m p x = setNextFreeBlock m x (pxNextFreeBlock m p) := by
      rw [mergeNext]
      rw [hs]
      split
      · next hadjacent =>
        have hend : pxNextFreeBlock m p = e := by
          cases post with
          | nil => exact hlinks
          | cons b post =>
            obtain ⟨n, _ | o⟩ := b
            · exact absurd rfl (hlive n post)
            · have hn := (roomy_cons.mp hroomy).1
              have hrest : Links m p (x + s + n) post (x + s + n + total post) := by
                simpa [← he, Nat.add_assoc] using hlinks.2.2
              have hle := hrest.le_next
              dsimp only at hn
              omega
        rw [if_neg (by simpa using hend), hend]
      · rfl
    have hagree : AgreeOff (Within x 8) (mergeNext e m p x) m := by
      rw [hm]
      exact agreeOff_setNext _ _ _
    refine ⟨s, post, hjoin, hroomy, ?_, ?_, hagree⟩
    · rw [hm, size_setNext (.inl rfl), hs]
    · refine hlinks.rebase hroomy ?_ fun r hr _ _ => header_of_agreeOff hagree (by omega)
      rw [hm, next_setNext_self (pxNextFreeBlock_lt m p)]

/-- The block is joined with the free block `p` that ends where it starts. -/
theorem insertAfter_joined {n : ℕ} (hn : xBlockSize m p = n) (hx : p + n = x)
    (hs : xBlockSize m x = s) (hlinks : Links m p (x + s) post e)
    (he : x + s + total post = e) (hlt : e < 4294967296) (hroomy : Roomy post)
    (hmin : 8 ≤ n) :
    ∃ k post', joinNext (n + s) post = ⟨k, none⟩ :: post' ∧
      xBlockSize (insertAfter e m p x) p = k ∧
      Links (insertAfter e m p x) p (p + k) post' e ∧
      AgreeOff (Within p 8) (insertAfter e m p x) m := by
  have hm : insertAfter e m p x = mergeNext e (setBlockSize m p (n + s)) p p := by
    rw [insertAfter, mergePrevious]
    rw [hn, hs, if_pos hx]
    dsimp only
    rw [if_neg (by simp)]
  have hagree := agreeOff_setSize m p (n + s)
  have hlinks' : Links (setBlockSize m p (n + s)) p (p + (n + s)) post e := by
    rw [← Nat.add_assoc, hx]
    exact hlinks.rebase hroomy (next_setSize (.inl rfl))
      fun r hr _ _ => header_of_agreeOff hagree (by omega)
  obtain ⟨k, post', hjoin, _, hsize, hrest, hoff⟩ := mergeNext_links
    (size_setSize_self (by omega)) hlinks' (.inl rfl) (by omega) hlt hroomy (by omega)
  rw [hm]
  exact ⟨k, post', hjoin, hsize, hrest, hoff.trans hagree⟩

/-- The block becomes the next one after `p`, which ends before it. -/
theorem insertAfter_linked (hpx : p + xBlockSize m p ≠ x) (hs : xBlockSize m x = s)
    (hlinks : Links m p (x + s) post e) (hp : p + 8 ≤ x ∨ e + 8 ≤ p)
    (he : x + s + total post = e) (hlt : e < 4294967296) (hroomy : Roomy post)
    (hmin : 8 ≤ s) :
    ∃ n post', joinNext s post = ⟨n, none⟩ :: post' ∧
      xBlockSize (insertAfter e m p x) x = n ∧
      Links (insertAfter e m p x) x (x + n) post' e ∧
      pxNextFreeBlock (insertAfter e m p x) p = x ∧
      xBlockSize (insertAfter e m p x) p = xBlockSize m p ∧
      AgreeOff (fun y => Within x 8 y ∨ Within p 8 y) (insertAfter e m p x) m := by
  have hm : insertAfter e m p x = setNextFreeBlock (mergeNext e m p x) p x := by
    rw [insertAfter, mergePrevious]
    rw [if_neg hpx]
    dsimp only
    rw [if_pos (by omega)]
  obtain ⟨n, post', hjoin, hroomy', hsize, hrest, hoff⟩ :=
    mergeNext_links hs hlinks (by omega) he hlt hroomy hmin
  have hagree := agreeOff_setNext (mergeNext e m p x) p x
  have htotal := total_joinNext s post
  rw [hjoin, total_cons] at htotal
  dsimp only at htotal
  rw [hm]
  refine ⟨n, post', hjoin, ?_, ?_, next_setNext_self (by omega), ?_, ?_⟩
  · rw [size_setNext (by omega), hsize]
  · refine hrest.rebase hroomy' ?_ fun r hr hr' _ => header_of_agreeOff hagree (by omega)
    exact next_setNext_of_apart (by omega)
  · rw [size_setNext (.inl rfl), (header_of_agreeOff hoff (by omega)).2]
  · exact (hagree.mono fun y hy => .inr hy).trans (hoff.mono fun y hy => .inl hy)

/-- Two memories that agree on the headers it reads are changed alike. -/
theorem insertAfter_congr {R : ℕ → Prop} (hagree : AgreeOff R m m')
    (hapart : p + 8 ≤ x ∨ x + 8 ≤ p) (hp : ∀ y, Within p 8 y → ¬R y)
    (hx : ∀ y, Within x 8 y → ¬R y)
    (hn : ∀ y, Within (pxNextFreeBlock m p) 8 y → ¬R y) :
    AgreeOff R (insertAfter e m p x) (insertAfter e m' p x) := by
  -- both runs join with the previous block or both do not
  have hmerge : (mergePrevious m p x).2 = (mergePrevious m' p x).2 ∧
      AgreeOff R (mergePrevious m p x).1 (mergePrevious m' p x).1 := by
    unfold mergePrevious
    rw [size_of_agreeOff hagree hp, size_of_agreeOff hagree hx]
    split
    · exact ⟨rfl, hagree.store32 _ _⟩
    · exact ⟨rfl, hagree⟩
  have hpx : (mergePrevious m p x).2 = p ∨ (mergePrevious m p x).2 = x := by
    rw [mergePrevious]
    split
    · exact .inl rfl
    · exact .inr rfl
  have hnext : pxNextFreeBlock (mergePrevious m p x).1 p = pxNextFreeBlock m p := by
    rw [mergePrevious]
    split
    · exact next_setSize (.inl rfl)
    · rfl
  unfold insertAfter
  dsimp only
  rw [← hmerge.1]
  generalize (mergePrevious m p x).2 = px at *
  generalize (mergePrevious m p x).1 = m₁ at *
  generalize (mergePrevious m' p x).1 = m₂ at *
  have hout : ∀ y, Within px 8 y → ¬R y := by
    rcases hpx with rfl | rfl
    · exact hp
    · exact hx
  have hsame := hmerge.2
  have hlink := next_of_agreeOff hsame hp
  rw [← hnext] at hn
  -- the headers that the second half reads lie outside the differing region
  have hgo : AgreeOff R (mergeNext e m₁ p px) (mergeNext e m₂ p px) := by
    have hgrown : ∀ v, AgreeOff R (setBlockSize m₁ px v) (setBlockSize m₂ px v) :=
      fun v => hsame.store32 _ _
    have hkeep : ∀ v, pxNextFreeBlock (setBlockSize m₁ px v) p = pxNextFreeBlock m₁ p :=
      fun v => next_setSize (by omega)
    have hkeep' : ∀ v, pxNextFreeBlock (setBlockSize m₂ px v) p = pxNextFreeBlock m₁ p :=
      fun v => (next_of_agreeOff (hgrown v) hp).symm.trans (hkeep v)
    unfold mergeNext
    rw [← hlink, ← size_of_agreeOff hsame hout, ← size_of_agreeOff hsame hn]
    dsimp only
    split
    · split
      · rw [hkeep, hkeep', ← next_of_agreeOff (hgrown _) hn]
        exact (hgrown _).store32 _ _
      · exact hsame.store32 _ _
    · exact hsame.store32 _ _
  split
  · exact hgo.store32 _ _
  · exact hgo

/-- The last free block ends where the blocks after it start, or before. -/
theorem Links.add_size_lastFree_le {q : ℕ} (h : Links m q a pre e) :
    lastFree q a pre = q ∨
      lastFree q a pre + xBlockSize m (lastFree q a pre) ≤ a + total pre := by
  rcases lastFree_cases q a pre with ⟨hlast, _⟩ | ⟨pre₁, n, pre₂, rfl, _, hlast⟩
  · exact .inl hlast
  · right
    rw [hlast]
    obtain ⟨_, _, hsize, _⟩ := links_append.mp h
    rw [hsize, total_append, total_cons]
    dsimp only
    omega

/-- A node that is not the free block right before `x` does not end at `x`. -/
theorem add_size_lastFree_lt {q : ℕ} (h : Links m q a pre e) (hroomy : Roomy pre)
    (hq : q + 8 ≤ a + total pre ∨ a + total pre < q) (hstart : xBlockSize m q = 0)
    (hlive : ∀ pre' n, pre ≠ pre' ++ [⟨n, none⟩]) :
    lastFree q a pre + xBlockSize m (lastFree q a pre) ≠ a + total pre := by
  rcases lastFree_cases q a pre with ⟨hlast, _⟩ | ⟨pre₁, n, pre₂, rfl, _, hlast⟩
  · rw [hlast, hstart]
    omega
  · rw [hlast]
    obtain ⟨_, _, hsize, _⟩ := links_append.mp h
    rw [hsize, total_append, total_cons]
    cases pre₂ with
    | nil => exact absurd rfl (hlive pre₁ n)
    | cons b pre₂ =>
      have hb := (roomy_cons.mp (roomy_cons.mp (roomy_append.mp hroomy).2).2).1
      rw [total_cons]
      dsimp only at hb ⊢
      omega

/-- The block `x` between `pre` and `post` is given back: the list holds their blocks and its
bytes, and only the headers of `x` and of the free block before it are written. -/
theorem insertAfter_release {q : ℕ} (hpre : Links m q a pre (pxNextFreeBlock m (lastFree q a pre)))
    (hs : xBlockSize m (a + total pre) = s)
    (hpost : Links m (lastFree q a pre) (a + total pre + s) post e)
    (hq : q + 8 ≤ a ∨ e + 8 ≤ q) (hstart : xBlockSize m q = 0)
    (he : a + total pre + s + total post = e) (hlt : e < 4294967296) (hroomy : Roomy pre)
    (hroomy' : Roomy post) (hmin : 8 ≤ s) :
    Links (insertAfter e m (lastFree q a pre) (a + total pre)) q a (release pre s post) e ∧
      xBlockSize (insertAfter e m (lastFree q a pre) (a + total pre)) q = xBlockSize m q ∧
      AgreeOff (fun y => Within (a + total pre) 8 y ∨ Within (lastFree q a pre) 8 y)
        (insertAfter e m (lastFree q a pre) (a + total pre)) m := by
  rcases release_cases pre s post with ⟨pre', n, rfl, hrelease⟩ | ⟨hlive, hrelease⟩
  · -- the block before `x` is free: it grows, and the chain before it stays
    obtain ⟨hroomyPre, hn⟩ := roomy_append.mp hroomy
    have hn := (roomy_cons.mp hn).1
    have hlast : lastFree q a (pre' ++ [⟨n, none⟩]) = a + total pre' := by
      rw [lastFree_append, lastFree_free, lastFree_nil]
    have htotal : total (pre' ++ [(⟨n, none⟩ : Block α)]) = total pre' + n := by
      rw [total_append, total_cons, total_nil, Nat.add_zero]
    rw [htotal, ← Nat.add_assoc] at hs he
    rw [hlast, htotal, ← Nat.add_assoc] at hpost ⊢
    obtain ⟨hlinks, hnext, hsize, _⟩ := links_append.mp hpre
    obtain ⟨k, post', hjoin, hsize', hrest, hagree⟩ :=
      insertAfter_joined hsize rfl hs hpost he hlt hroomy' (by dsimp only at hn; omega)
    have hbefore := hroomyPre.lastFree_bounds q a
    refine ⟨?_, (header_of_agreeOff hagree (by omega)).2, hagree.mono fun y hy => .inr hy⟩
    rw [hrelease, hjoin, links_append]
    have hkeep := (header_of_agreeOff hagree (q := lastFree q a pre') (by omega)).1
    rw [hkeep]
    refine ⟨hlinks.rebase hroomyPre (header_of_agreeOff hagree (by omega)).1
      fun r hr hr' _ => header_of_agreeOff hagree (by omega), hkeep.trans hnext, hsize', hrest⟩
  · -- the block before `x` is allocated or there is none: `x` is linked in
    have hbefore := hroomy.lastFree_bounds q a
    have hapart : lastFree q a pre + 8 ≤ a + total pre ∨ e + 8 ≤ lastFree q a pre := by omega
    obtain ⟨n, post', hjoin, hsize, hrest, hnext, hkeep, hagree⟩ :=
      insertAfter_linked (add_size_lastFree_lt hpre hroomy (by omega) hstart hlive) hs hpost
        hapart he hlt hroomy' hmin
    have hkeepq : xBlockSize (insertAfter e m (lastFree q a pre) (a + total pre)) q =
        xBlockSize m q := by
      by_cases hlast : lastFree q a pre = q
      · simpa only [hlast] using hkeep
      · exact size_of_agreeOff hagree fun y hy => hy.apart_or (by omega) (by omega)
    refine ⟨?_, hkeepq, hagree⟩
    rw [hrelease, hjoin, links_append, hnext]
    refine ⟨hpre.redirect hroomy (by omega) hagree ?_ hkeep hnext, hnext, hsize, hrest⟩
    exact fun y hy => ⟨hy.1, hy.apart (by omega)⟩

end Insert

end RmMicroControllers
