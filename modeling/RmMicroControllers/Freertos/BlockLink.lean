import Mathlib.Data.Nat.Bitwise
import RmMicroControllers.Freertos.Heap4
import RmMicroControllers.Library.Segments

/-!
# Blocks in memory

`Links m p a bs e` ties a memory to a list of consecutive blocks: from the node `p` before
address `a` on, every block of `bs` has the header that the allocator gives it, and the chain
of `pxNextFreeBlock` pointers runs from `p` through exactly the free blocks to `e`.
-/

namespace RmMicroControllers

open Memory Segments

section Masks

theorem and_seven (x : ℕ) : x &&& 7 = x % 8 := Nat.and_two_pow_sub_one_eq_mod x 3

theorem and_allocated {x : ℕ} (h : x < 4294967296) :
    x &&& 2147483648 = 0 ↔ x < 2147483648 := by
  have hx : x &&& 2147483648 = (x.testBit 31).toNat * 2147483648 := Nat.and_two_pow x 31
  rw [hx, Nat.testBit_eq_decide_div_mod_eq]
  by_cases hlt : x < 2147483648
  · rw [Nat.div_eq_of_lt hlt]
    simpa using hlt
  · rw [show x / 2 ^ 31 % 2 = 1 by omega]
    simpa using hlt

theorem or_allocated {x : ℕ} (h : x < 2147483648) : x ||| 2147483648 = x + 2147483648 :=
  Nat.or_two_pow_eq_add_of_lt (n := 31) h

theorem and_complement_allocated (x : ℕ) : x &&& complement 2147483648 = x % 2147483648 :=
  Nat.and_two_pow_sub_one_eq_mod x 31

theorem and_complement_seven {x : ℕ} (h : x < 4294967296) :
    x &&& complement 7 = x - x % 8 := by
  have hdiv : (x &&& 4294967288) / 8 = x / 8 &&& 536870911 := Nat.and_div_two_pow (n := 3)
  have hmod : (x &&& 4294967288) % 8 = x % 8 &&& 0 := Nat.and_mod_two_pow (n := 3)
  have hlow : x / 8 &&& 536870911 = x / 8 % 536870912 :=
    Nat.and_two_pow_sub_one_eq_mod (x / 8) 29
  rw [Nat.and_zero] at hmod
  change x &&& 4294967288 = x - x % 8
  omega

theorem subtract_of_le {x y : ℕ} (h : y ≤ x) (hx : x - y < 4294967296) :
    subtract x y = x - y := by
  rw [subtract]
  omega

end Masks

namespace Layout

variable (L : Layout)

theorem alignedHeap_eq : pucAlignedHeap L = L.ucHeap + (8 - L.ucHeap % 8) % 8 := by
  have h := L.ucHeap_end
  rw [configTOTAL_HEAP_SIZE] at h
  rw [pucAlignedHeap]
  rw [and_seven, and_complement_seven (by omega)]
  split <;> omega

theorem alignedHeap_add_total :
    pucAlignedHeap L + xTotalHeapSize L = L.ucHeap + configTOTAL_HEAP_SIZE := by
  have h := L.ucHeap_end
  have halign := L.alignedHeap_eq
  rw [configTOTAL_HEAP_SIZE] at h
  rw [xTotalHeapSize, configTOTAL_HEAP_SIZE]
  rw [and_seven]
  split
  · rw [subtract_of_le (x := pucAlignedHeap L) (by omega) (by omega),
      subtract_of_le (by omega) (by omega)]
    omega
  · omega

theorem endAddress_eq :
    endAddress L = L.ucHeap + 59992 - (L.ucHeap + 59992) % 8 := by
  have h := L.ucHeap_end
  rw [endAddress]
  rw [L.alignedHeap_add_total]
  rw [configTOTAL_HEAP_SIZE, xHeapStructSize] at *
  rw [subtract_of_le (by omega) (by omega), and_complement_seven (by omega)]
  omega

theorem alignedHeap_mod : pucAlignedHeap L % 8 = 0 := by
  rw [L.alignedHeap_eq]
  omega

theorem alignedHeap_pos : 0 < pucAlignedHeap L := by
  have h := L.ucHeap_pos
  rw [L.alignedHeap_eq]
  omega

theorem endAddress_mod : endAddress L % 8 = 0 := by
  rw [L.endAddress_eq]
  omega

/-- The aligned heap area has room for more than one block. -/
theorem area_size : pucAlignedHeap L + 59976 ≤ endAddress L := by
  rw [L.alignedHeap_eq, L.endAddress_eq]
  omega

theorem area_le : endAddress L ≤ pucAlignedHeap L + 59992 := by
  rw [L.alignedHeap_eq, L.endAddress_eq]
  omega

theorem endAddress_lt : endAddress L + 8 ≤ 4294967296 := by
  have h := L.ucHeap_end
  rw [configTOTAL_HEAP_SIZE] at h
  rw [L.endAddress_eq]
  omega

/-- The list head lies outside the aligned heap area and its end marker. -/
theorem xStart_apart : L.xStart + 8 ≤ pucAlignedHeap L ∨ endAddress L + 8 ≤ L.xStart := by
  have h := L.disjoint
  rw [configTOTAL_HEAP_SIZE, xHeapStructSize] at h
  rw [L.alignedHeap_eq, L.endAddress_eq]
  omega

end Layout

section Headers

variable {m m' : Mem} {R : ℕ → Prop} {p q v : ℕ}

theorem pxNextFreeBlock_lt (m : Mem) (p : ℕ) : pxNextFreeBlock m p < 4294967296 := load32_lt m p

@[simp]
theorem next_setNext_self (h : v < 4294967296) :
    pxNextFreeBlock (setNextFreeBlock m p v) p = v := load32_store32_self h

@[simp]
theorem size_setSize_self (h : v < 4294967296) :
    xBlockSize (setBlockSize m p v) p = v := load32_store32_self h

theorem next_setNext_of_apart (h : p + 8 ≤ q ∨ q + 8 ≤ p) :
    pxNextFreeBlock (setNextFreeBlock m q v) p = pxNextFreeBlock m p :=
  load32_store32_of_disjoint (by omega)

theorem size_setSize_of_apart (h : p + 8 ≤ q ∨ q + 8 ≤ p) :
    xBlockSize (setBlockSize m q v) p = xBlockSize m p :=
  load32_store32_of_disjoint (by omega)

theorem next_setSize (h : p = q ∨ p + 8 ≤ q ∨ q + 8 ≤ p) :
    pxNextFreeBlock (setBlockSize m q v) p = pxNextFreeBlock m p :=
  load32_store32_of_disjoint (by omega)

theorem size_setNext (h : p = q ∨ p + 8 ≤ q ∨ q + 8 ≤ p) :
    xBlockSize (setNextFreeBlock m q v) p = xBlockSize m p :=
  load32_store32_of_disjoint (by omega)

theorem agreeOff_setNext (m : Mem) (p v : ℕ) :
    AgreeOff (Within p 8) (setNextFreeBlock m p v) m := by
  intro x hx
  rw [Within] at hx
  exact store32_of_outside (by omega)

theorem agreeOff_setSize (m : Mem) (p v : ℕ) :
    AgreeOff (Within p 8) (setBlockSize m p v) m := by
  intro x hx
  rw [Within] at hx
  exact store32_of_outside (by omega)

/-- A header outside the region where two memories differ reads the same. -/
theorem next_of_agreeOff (h : AgreeOff R m m') (hq : ∀ x, Within q 8 x → ¬R x) :
    pxNextFreeBlock m q = pxNextFreeBlock m' q :=
  h.load32 fun x hx hx' => hq x ⟨hx, by omega⟩

theorem size_of_agreeOff (h : AgreeOff R m m') (hq : ∀ x, Within q 8 x → ¬R x) :
    xBlockSize m q = xBlockSize m' q :=
  h.load32 fun x hx hx' => hq x ⟨by omega, by omega⟩

/-- Writes to the header at `p` leave the headers apart from it alone. -/
theorem header_of_agreeOff (h : AgreeOff (Within p 8) m m') (hq : q + 8 ≤ p ∨ p + 8 ≤ q) :
    pxNextFreeBlock m q = pxNextFreeBlock m' q ∧ xBlockSize m q = xBlockSize m' q := by
  have hout : ∀ x, Within q 8 x → ¬Within p 8 x := fun x hx => hx.apart hq
  exact ⟨next_of_agreeOff h hout, size_of_agreeOff h hout⟩

end Headers

section Links

variable {α : Type*} {m m' : Mem} {p q a e e' x : ℕ} {bs pre post : List (Block α)}

/-- The chain of free blocks from `p` to `e` and the headers of the blocks placed from `a` on. -/
def Links (m : Mem) : ℕ → ℕ → List (Block α) → ℕ → Prop
  | p, _, [], e => pxNextFreeBlock m p = e
  | p, a, ⟨s, none⟩ :: bs, e =>
    pxNextFreeBlock m p = a ∧ xBlockSize m a = s ∧ Links m a (a + s) bs e
  | p, a, ⟨s, some _⟩ :: bs, e =>
    pxNextFreeBlock m a = 0 ∧ xBlockSize m a = s + 2147483648 ∧ Links m p (a + s) bs e

@[simp]
theorem links_nil : Links m p a ([] : List (Block α)) e ↔ pxNextFreeBlock m p = e := Iff.rfl

theorem links_free {s : ℕ} :
    Links m p a (⟨s, none⟩ :: bs) e ↔
      pxNextFreeBlock m p = a ∧ xBlockSize m a = s ∧ Links m a (a + s) bs e := Iff.rfl

theorem links_live {s : ℕ} {o : α} :
    Links m p a (⟨s, some o⟩ :: bs) e ↔
      pxNextFreeBlock m a = 0 ∧ xBlockSize m a = s + 2147483648 ∧
        Links m p (a + s) bs e := Iff.rfl

/-- Every block has at least the minimum size and ends on an aligned boundary. -/
def Roomy (bs : List (Block α)) : Prop := ∀ b ∈ bs, 16 ≤ b.size ∧ b.size % 8 = 0

theorem roomy_cons {b : Block α} :
    Roomy (b :: bs) ↔ (16 ≤ b.size ∧ b.size % 8 = 0) ∧ Roomy bs :=
  List.forall_mem_cons

theorem roomy_append : Roomy (pre ++ post) ↔ Roomy pre ∧ Roomy post :=
  List.forall_mem_append

theorem Roomy.mid {b : Block α} (h : Roomy (pre ++ b :: post)) : 16 ≤ b.size ∧ b.size % 8 = 0 :=
  h b (List.mem_append_right _ List.mem_cons_self)

theorem Roomy.le_of_mem_lives (h : Roomy bs) {x : ℕ × ℕ × α} (hx : x ∈ lives a bs) :
    16 ≤ x.2.1 := by
  obtain ⟨pre, post, rfl, -⟩ := mem_lives hx
  exact h.mid.1

theorem Roomy.le_of_mem_frees (h : Roomy bs) {x : ℕ × ℕ} (hx : x ∈ frees a bs) : 16 ≤ x.2 := by
  obtain ⟨pre, post, rfl, -⟩ := mem_frees hx
  exact h.mid.1

theorem Roomy.total_mod (h : Roomy bs) : total bs % 8 = 0 := by
  induction bs with
  | nil => rfl
  | cons b bs ih =>
    obtain ⟨hb, hbs⟩ := roomy_cons.mp h
    have hrest := ih hbs
    rw [total_cons]
    omega

theorem Roomy.length_le (h : Roomy bs) : 16 * bs.length ≤ total bs := by
  induction bs with
  | nil => simp
  | cons b bs ih =>
    obtain ⟨hb, hbs⟩ := roomy_cons.mp h
    have hrest := ih hbs
    rw [List.length_cons, total_cons]
    omega

/-- The last free block is one of the blocks. -/
theorem Roomy.lastFree_bounds (h : Roomy bs) (p a : ℕ) :
    lastFree p a bs = p ∨ a ≤ lastFree p a bs ∧ lastFree p a bs + 16 ≤ a + total bs ∧
      lastFree p a bs % 8 = a % 8 := by
  rcases lastFree_cases p a bs with ⟨hlast, _⟩ | ⟨pre, s, post, rfl, _, hlast⟩
  · exact .inl hlast
  · right
    obtain ⟨hpre, hpost⟩ := roomy_append.mp h
    have hmod := hpre.total_mod
    have hs := (roomy_cons.mp hpost).1
    rw [hlast, total_append, total_cons]
    dsimp only at hs ⊢
    omega

theorem links_append :
    Links m p a (pre ++ post) e ↔
      Links m p a pre (pxNextFreeBlock m (lastFree p a pre)) ∧
        Links m (lastFree p a pre) (a + total pre) post e := by
  induction pre generalizing p a with
  | nil => simp
  | cons b pre ih =>
    obtain ⟨s, _ | o⟩ := b
    · simp only [List.cons_append, links_free, lastFree_free, total_cons, ih, Nat.add_assoc,
        and_assoc]
    · simp only [List.cons_append, links_live, lastFree_live, total_cons, ih, Nat.add_assoc,
        and_assoc]

/-- The first link leads into the area or to its end. -/
theorem Links.le_next (h : Links m p a bs (a + total bs)) : a ≤ pxNextFreeBlock m p := by
  induction bs generalizing p a with
  | nil =>
    rw [links_nil] at h
    simp [h]
  | cons b bs ih =>
    obtain ⟨s, _ | o⟩ := b
    · exact h.1.ge
    · have hrest : a + s ≤ pxNextFreeBlock m p := ih (by simpa [Nat.add_assoc] using h.2.2)
      omega

/-- The first link leads to a free block or past the blocks. -/
theorem Links.next_mem (h : Links m p a bs e) :
    pxNextFreeBlock m p = e ∨ ∃ s, (pxNextFreeBlock m p, s) ∈ frees a bs := by
  induction bs generalizing p a with
  | nil => exact .inl h
  | cons b bs ih =>
    obtain ⟨s, _ | o⟩ := b
    · refine .inr ⟨s, ?_⟩
      rw [h.1]
      exact List.mem_cons_self
    · exact ih h.2.2

/-- Another last link: nothing else that the chain or the headers say changes. -/
theorem Links.update (h : Links m p a bs e) (hroomy : Roomy bs)
    (hp : p < a ∨ a + total bs ≤ p)
    (hsize : ∀ r, a ≤ r → r + 16 ≤ a + total bs → r % 8 = a % 8 →
      xBlockSize m' r = xBlockSize m r)
    (hnext : ∀ r, r ≠ lastFree p a bs →
      (r = p ∨ a ≤ r ∧ r + 16 ≤ a + total bs ∧ r % 8 = a % 8) →
        pxNextFreeBlock m' r = pxNextFreeBlock m r)
    (hlast : pxNextFreeBlock m' (lastFree p a bs) = e') : Links m' p a bs e' := by
  induction bs generalizing p a with
  | nil => exact hlast
  | cons b bs ih =>
    obtain ⟨hb, hbs⟩ := roomy_cons.mp hroomy
    rw [total_cons] at hp hsize hnext
    obtain ⟨s, _ | o⟩ := b
    · dsimp only at hb hp hsize hnext
      rw [lastFree_free] at hnext hlast
      obtain ⟨hfirst, hs, hrest⟩ := h
      -- the free block itself is the last one or one behind it is, never the node before it
      have hpne : p ≠ lastFree a (a + s) bs := by
        rcases hbs.lastFree_bounds a (a + s) with heq | ⟨hle, hle', _⟩ <;> omega
      refine ⟨(hnext p hpne (.inl rfl)).trans hfirst,
        (hsize a (by omega) (by omega) rfl).trans hs, ih hrest hbs (by omega) ?_ ?_ hlast⟩
      · exact fun r hr hr' hmod => hsize r (by omega) (by omega) (by omega)
      · exact fun r hr hr' => hnext r hr (by omega)
    · dsimp only at hb hp hsize hnext
      rw [lastFree_live] at hnext hlast
      obtain ⟨hnull, hs, hrest⟩ := h
      have hane : a ≠ lastFree p (a + s) bs := by
        rcases hbs.lastFree_bounds p (a + s) with heq | ⟨hle, hle', _⟩ <;> omega
      refine ⟨(hnext a hane (by omega)).trans hnull,
        (hsize a (by omega) (by omega) rfl).trans hs, ih hrest hbs (by omega) ?_ ?_ hlast⟩
      · exact fun r hr hr' hmod => hsize r (by omega) (by omega) (by omega)
      · exact fun r hr hr' => hnext r hr (by omega)

/-- The same blocks reached from another node, in a memory with the same headers. -/
theorem Links.rebase (h : Links m p a bs e) (hroomy : Roomy bs)
    (hq : pxNextFreeBlock m' q = pxNextFreeBlock m p)
    (hsame : ∀ r, a ≤ r → r + 16 ≤ a + total bs → r % 8 = a % 8 →
      pxNextFreeBlock m' r = pxNextFreeBlock m r ∧ xBlockSize m' r = xBlockSize m r) :
    Links m' q a bs e := by
  induction bs generalizing p q a with
  | nil => exact hq.trans h
  | cons b bs ih =>
    obtain ⟨hb, hbs⟩ := roomy_cons.mp hroomy
    rw [total_cons] at hsame
    have hhead := hsame a (by omega) (by omega) rfl
    have htail : ∀ r, a + b.size ≤ r → r + 16 ≤ a + b.size + total bs →
        r % 8 = (a + b.size) % 8 →
        pxNextFreeBlock m' r = pxNextFreeBlock m r ∧ xBlockSize m' r = xBlockSize m r :=
      fun r hr hr' hmod => hsame r (by omega) (by omega) (by omega)
    obtain ⟨s, _ | o⟩ := b
    · obtain ⟨hfirst, hs, hrest⟩ := h
      exact ⟨hq.trans hfirst, hhead.2.trans hs, ih hrest hbs hhead.1 htail⟩
    · obtain ⟨hnull, hs, hrest⟩ := h
      exact ⟨hhead.1.trans hnull, hhead.2.trans hs, ih hrest hbs hq htail⟩

/-- Writes behind the blocks and to the header of their last free one redirect the chain. -/
theorem Links.redirect {R : ℕ → Prop} (h : Links m p a bs e) (hroomy : Roomy bs)
    (hp : p + 8 ≤ a ∨ a + total bs ≤ p)
    (hagree : AgreeOff (fun y => R y ∨ Within (lastFree p a bs) 8 y) m' m)
    (hR : ∀ y, R y → a + total bs ≤ y ∧ ¬Within p 8 y)
    (hsize : xBlockSize m' (lastFree p a bs) = xBlockSize m (lastFree p a bs))
    (hnext : pxNextFreeBlock m' (lastFree p a bs) = e') : Links m' p a bs e' := by
  -- two different headers among the blocks and `p` do not overlap
  have hout : ∀ r, r ≠ lastFree p a bs →
      (r = p ∨ a ≤ r ∧ r + 16 ≤ a + total bs ∧ r % 8 = a % 8) →
        ∀ y, Within r 8 y → ¬(R y ∨ Within (lastFree p a bs) 8 y) := by
    rintro r hne hr y hy (hRy | hlast)
    · obtain ⟨hge, hnotp⟩ := hR y hRy
      rcases hr with rfl | hr
      · exact hnotp hy
      · rw [Within] at hy
        omega
    · rw [Within] at hy hlast
      rcases hroomy.lastFree_bounds p a with heq | ⟨hle, hle', hmod⟩ <;> omega
  refine h.update hroomy (by omega) ?_ ?_ hnext
  · intro r hr hr' hmod
    by_cases hne : r = lastFree p a bs
    · rw [hne, hsize]
    · exact size_of_agreeOff hagree (hout r hne (.inr ⟨hr, hr', hmod⟩))
  · exact fun r hne hr => next_of_agreeOff hagree (hout r hne hr)

end Links

end RmMicroControllers
