import Mathlib.Algebra.GroupWithZero.Nat
import Mathlib.Data.List.Basic
import Mathlib.Data.List.Chain

/-!
# Contiguous blocks

An area of memory cut into consecutive blocks, each free or with an owner. `frees` and `lives`
place the blocks one after another, and `release` gives a block back to its neighbours: it
joins with the free block before it, the free block after it, both or neither.
-/

namespace Segments

/-- A block of `size` bytes; `owner = none` says that it is free. -/
structure Block (α : Type*) where
  size : ℕ
  owner : Option α

variable {α : Type*}

/-- The bytes that the blocks take together. -/
def total : List (Block α) → ℕ
  | [] => 0
  | b :: bs => b.size + total bs

/-- The bytes of the free blocks. -/
def freeBytes : List (Block α) → ℕ
  | [] => 0
  | ⟨s, none⟩ :: bs => s + freeBytes bs
  | ⟨_, some _⟩ :: bs => freeBytes bs

/-- Address and size of the free blocks, for blocks placed from `a` on. -/
def frees : ℕ → List (Block α) → List (ℕ × ℕ)
  | _, [] => []
  | a, ⟨s, none⟩ :: bs => (a, s) :: frees (a + s) bs
  | a, ⟨s, some _⟩ :: bs => frees (a + s) bs

/-- Address, size and owner of the other blocks, for blocks placed from `a` on. -/
def lives : ℕ → List (Block α) → List (ℕ × ℕ × α)
  | _, [] => []
  | a, ⟨s, none⟩ :: bs => lives (a + s) bs
  | a, ⟨s, some o⟩ :: bs => (a, s, o) :: lives (a + s) bs

/-- The last free block of the blocks placed from `a` on, or `p` where none is free. -/
def lastFree : ℕ → ℕ → List (Block α) → ℕ
  | p, _, [] => p
  | _, a, ⟨s, none⟩ :: bs => lastFree a (a + s) bs
  | p, a, ⟨s, some _⟩ :: bs => lastFree p (a + s) bs

/-- No two neighbours are both free. -/
def Separated (bs : List (Block α)) : Prop :=
  bs.IsChain fun b c => b.owner = none → c.owner ≠ none

/-- `s` free bytes in front of `bs`, joined with a free block that `bs` starts with. -/
def joinNext (s : ℕ) : List (Block α) → List (Block α)
  | ⟨n, none⟩ :: bs => ⟨s + n, none⟩ :: bs
  | bs => ⟨s, none⟩ :: bs

/-- `s` bytes between `pre` and `post` given back: joined with their free neighbours. -/
def release : List (Block α) → ℕ → List (Block α) → List (Block α)
  | [], s, post => joinNext s post
  | [⟨n, none⟩], s, post => joinNext (n + s) post
  | b :: pre, s, post => b :: release pre s post

/-- The blocks that an allocation of `w` bytes for `o` leaves of `s` free bytes: the rest stays
free where it is larger than `least`, else the whole block is given away. -/
def carve (least w s : ℕ) (o : α) : List (Block α) :=
  if least < s - w then [⟨w, some o⟩, ⟨s - w, none⟩] else [⟨s, some o⟩]

/-- The size of the block that such an allocation gives away. -/
def granted (least w s : ℕ) : ℕ := if least < s - w then w else s

variable {a p s n w least : ℕ} {o : α} {bs pre post : List (Block α)}

section Total

@[simp] theorem total_nil : total ([] : List (Block α)) = 0 := rfl
@[simp] theorem total_cons (b : Block α) : total (b :: bs) = b.size + total bs := rfl

@[simp] theorem total_append (pre post : List (Block α)) :
    total (pre ++ post) = total pre + total post := by
  induction pre with
  | nil => simp
  | cons b pre ih => simp [ih, Nat.add_assoc]

@[simp] theorem freeBytes_nil : freeBytes ([] : List (Block α)) = 0 := rfl
@[simp] theorem freeBytes_free : freeBytes (⟨s, none⟩ :: bs) = s + freeBytes bs := rfl
@[simp] theorem freeBytes_live : freeBytes (⟨s, some o⟩ :: bs) = freeBytes bs := rfl

@[simp] theorem freeBytes_append (pre post : List (Block α)) :
    freeBytes (pre ++ post) = freeBytes pre + freeBytes post := by
  induction pre with
  | nil => simp
  | cons b pre ih =>
    obtain ⟨s, _ | o⟩ := b
    · simp [ih, Nat.add_assoc]
    · simp [ih]

theorem freeBytes_le_total (bs : List (Block α)) : freeBytes bs ≤ total bs := by
  induction bs with
  | nil => simp
  | cons b bs ih =>
    obtain ⟨s, _ | o⟩ := b
    · simpa using ih
    · simpa using Nat.le_add_left_of_le ih

end Total

section Placement

@[simp] theorem frees_nil : frees a ([] : List (Block α)) = [] := rfl
@[simp] theorem frees_free : frees a (⟨s, none⟩ :: bs) = (a, s) :: frees (a + s) bs := rfl
@[simp] theorem frees_live : frees a (⟨s, some o⟩ :: bs) = frees (a + s) bs := rfl

@[simp] theorem lives_nil : lives a ([] : List (Block α)) = [] := rfl
@[simp] theorem lives_free : lives a (⟨s, none⟩ :: bs) = lives (a + s) bs := rfl
@[simp] theorem lives_live :
    lives a (⟨s, some o⟩ :: bs) = (a, s, o) :: lives (a + s) bs := rfl

@[simp] theorem lastFree_nil : lastFree p a ([] : List (Block α)) = p := rfl
@[simp] theorem lastFree_free : lastFree p a (⟨s, none⟩ :: bs) = lastFree a (a + s) bs := rfl
@[simp] theorem lastFree_live :
    lastFree p a (⟨s, some o⟩ :: bs) = lastFree p (a + s) bs := rfl

theorem length_frees_add_lives (a : ℕ) (bs : List (Block α)) :
    (frees a bs).length + (lives a bs).length = bs.length := by
  induction bs generalizing a with
  | nil => rfl
  | cons b bs ih =>
    have hrest := ih (a + b.size)
    obtain ⟨s, _ | o⟩ := b
    · dsimp only at hrest
      rw [frees_free, lives_free, List.length_cons, List.length_cons]
      omega
    · dsimp only at hrest
      rw [frees_live, lives_live, List.length_cons, List.length_cons]
      omega

theorem frees_append (a : ℕ) (pre post : List (Block α)) :
    frees a (pre ++ post) = frees a pre ++ frees (a + total pre) post := by
  induction pre generalizing a with
  | nil => simp
  | cons b pre ih =>
    obtain ⟨s, _ | o⟩ := b
    · simp [ih, Nat.add_assoc]
    · simp [ih, Nat.add_assoc]

theorem lives_append (a : ℕ) (pre post : List (Block α)) :
    lives a (pre ++ post) = lives a pre ++ lives (a + total pre) post := by
  induction pre generalizing a with
  | nil => simp
  | cons b pre ih =>
    obtain ⟨s, _ | o⟩ := b
    · simp [ih, Nat.add_assoc]
    · simp [ih, Nat.add_assoc]

theorem lastFree_append (p a : ℕ) (pre post : List (Block α)) :
    lastFree p a (pre ++ post) = lastFree (lastFree p a pre) (a + total pre) post := by
  induction pre generalizing p a with
  | nil => simp
  | cons b pre ih =>
    obtain ⟨s, _ | o⟩ := b
    · simp [ih, Nat.add_assoc]
    · simp [ih, Nat.add_assoc]

/-- A live block is one of the list, and the others stand before and after it. -/
theorem mem_lives {x : ℕ × ℕ × α} (h : x ∈ lives a bs) :
    ∃ pre post, bs = pre ++ ⟨x.2.1, some x.2.2⟩ :: post ∧ x.1 = a + total pre := by
  induction bs generalizing a with
  | nil => simp at h
  | cons b bs ih =>
    obtain ⟨s, _ | o⟩ := b
    · obtain ⟨pre, post, rfl, hx⟩ := ih (by simpa using h)
      exact ⟨⟨s, none⟩ :: pre, post, rfl, by simp [hx, Nat.add_assoc]⟩
    · rcases List.mem_cons.mp h with rfl | h
      · exact ⟨[], bs, rfl, by simp⟩
      · obtain ⟨pre, post, rfl, hx⟩ := ih h
        exact ⟨⟨s, some o⟩ :: pre, post, rfl, by simp [hx, Nat.add_assoc]⟩

/-- A free block is one of the list, and the others stand before and after it. -/
theorem mem_frees {x : ℕ × ℕ} (h : x ∈ frees a bs) :
    ∃ pre post, bs = pre ++ ⟨x.2, none⟩ :: post ∧ x.1 = a + total pre := by
  induction bs generalizing a with
  | nil => simp at h
  | cons b bs ih =>
    obtain ⟨s, _ | o⟩ := b
    · rcases List.mem_cons.mp h with rfl | h
      · exact ⟨[], bs, rfl, by simp⟩
      · obtain ⟨pre, post, rfl, hx⟩ := ih h
        exact ⟨⟨s, none⟩ :: pre, post, rfl, by simp [hx, Nat.add_assoc]⟩
    · obtain ⟨pre, post, rfl, hx⟩ := ih (by simpa using h)
      exact ⟨⟨s, some o⟩ :: pre, post, rfl, by simp [hx, Nat.add_assoc]⟩

theorem mem_lives_mid {x : ℕ} (hx : a + total pre = x) :
    (x, s, o) ∈ lives a (pre ++ ⟨s, some o⟩ :: post) := by
  rw [lives_append, lives_live, hx]
  exact List.mem_append_right _ List.mem_cons_self

theorem mem_frees_mid {x : ℕ} (hx : a + total pre = x) :
    (x, s) ∈ frees a (pre ++ ⟨s, none⟩ :: post : List (Block α)) := by
  rw [frees_append, frees_free, hx]
  exact List.mem_append_right _ List.mem_cons_self

theorem lives_bounds {x : ℕ × ℕ × α} (h : x ∈ lives a bs) :
    a ≤ x.1 ∧ x.1 + x.2.1 ≤ a + total bs := by
  obtain ⟨pre, post, rfl, hx⟩ := mem_lives h
  rw [total_append, total_cons, hx]
  dsimp only
  omega

theorem frees_bounds {x : ℕ × ℕ} (h : x ∈ frees a bs) : a ≤ x.1 ∧ x.1 + x.2 ≤ a + total bs := by
  obtain ⟨pre, post, rfl, hx⟩ := mem_frees h
  rw [total_append, total_cons, hx]
  dsimp only
  omega

/-- A live block and a free block do not overlap. -/
theorem lives_frees_disjoint {x : ℕ × ℕ × α} {y : ℕ × ℕ} (hx : x ∈ lives a bs)
    (hy : y ∈ frees a bs) : x.1 + x.2.1 ≤ y.1 ∨ y.1 + y.2 ≤ x.1 := by
  induction bs generalizing a with
  | nil => simp at hx
  | cons b bs ih =>
    obtain ⟨s, _ | o⟩ := b
    · rcases List.mem_cons.mp hy with rfl | hy
      · exact .inr (lives_bounds (a := a + s) hx).1
      · exact ih hx hy
    · rcases List.mem_cons.mp hx with rfl | hx
      · exact .inl (frees_bounds (a := a + s) hy).1
      · exact ih hx hy

theorem sum_frees (a : ℕ) (bs : List (Block α)) :
    ((frees a bs).map Prod.snd).sum = freeBytes bs := by
  induction bs generalizing a with
  | nil => rfl
  | cons b bs ih =>
    obtain ⟨s, _ | o⟩ := b
    · simp [ih]
    · simp [ih]

/-- The free bytes are bounded by the number of the free blocks and a bound on their sizes. -/
theorem freeBytes_le_length_mul {k : ℕ} (h : ∀ x ∈ frees a bs, x.2 ≤ k) :
    freeBytes bs ≤ (frees a bs).length * k := by
  induction bs generalizing a with
  | nil => exact Nat.zero_le _
  | cons b bs ih =>
    obtain ⟨s, _ | o⟩ := b
    · obtain ⟨hs, hrest⟩ := List.forall_mem_cons.mp h
      have hle := ih hrest
      rw [freeBytes_free, frees_free, List.length_cons, Nat.succ_mul]
      dsimp only at hs
      omega
    · exact ih h

theorem lastFree_mem (p a : ℕ) (bs : List (Block α)) :
    lastFree p a bs = p ∨ ∃ s, (lastFree p a bs, s) ∈ frees a bs := by
  induction bs generalizing p a with
  | nil => exact .inl rfl
  | cons b bs ih =>
    obtain ⟨s, _ | o⟩ := b
    · right
      rw [lastFree_free, frees_free]
      rcases ih a (a + s) with hlast | ⟨n, hmem⟩
      · exact ⟨s, by rw [hlast]; exact List.mem_cons_self⟩
      · exact ⟨n, List.mem_cons_of_mem _ hmem⟩
    · exact ih p (a + s)

/-- The last free block before the end of the list, or none at all. -/
theorem lastFree_cases (p a : ℕ) (bs : List (Block α)) :
    (lastFree p a bs = p ∧ ∀ b ∈ bs, b.owner ≠ none) ∨
      ∃ pre s post, bs = pre ++ ⟨s, none⟩ :: post ∧ (∀ b ∈ post, b.owner ≠ none) ∧
        lastFree p a bs = a + total pre := by
  induction bs generalizing p a with
  | nil => exact .inl ⟨rfl, by simp⟩
  | cons b bs ih =>
    obtain ⟨s, _ | o⟩ := b
    · right
      rcases ih a (a + s) with ⟨hlast, hlive⟩ | ⟨pre, n, post, rfl, hlive, hlast⟩
      · exact ⟨[], s, bs, rfl, hlive, by simpa using hlast⟩
      · exact ⟨⟨s, none⟩ :: pre, n, post, rfl, hlive, by simp [hlast, Nat.add_assoc]⟩
    · rcases ih p (a + s) with ⟨hlast, hlive⟩ | ⟨pre, n, post, rfl, hlive, hlast⟩
      · refine .inl ⟨by simpa using hlast, ?_⟩
        simpa using hlive
      · exact .inr ⟨⟨s, some o⟩ :: pre, n, post, rfl, hlive, by simp [hlast, Nat.add_assoc]⟩

end Placement

section Release

theorem release_free (pre : List (Block α)) (n s : ℕ) (post : List (Block α)) :
    release (pre ++ [⟨n, none⟩]) s post = pre ++ joinNext (n + s) post := by
  induction pre with
  | nil => rfl
  | cons b pre ih =>
    obtain ⟨c, cs, hc⟩ : ∃ c cs, pre ++ [(⟨n, none⟩ : Block α)] = c :: cs := by
      cases pre with
      | nil => exact ⟨_, _, rfl⟩
      | cons c cs => exact ⟨_, _, rfl⟩
    rw [List.cons_append, List.cons_append, ← ih, hc]
    obtain ⟨k, _ | o⟩ := b
    · rfl
    · rfl

theorem release_live (pre : List (Block α)) (n : ℕ) (o : α) (s : ℕ) (post : List (Block α)) :
    release (pre ++ [⟨n, some o⟩]) s post = pre ++ ⟨n, some o⟩ :: joinNext s post := by
  induction pre with
  | nil => rfl
  | cons b pre ih =>
    obtain ⟨c, cs, hc⟩ : ∃ c cs, pre ++ [(⟨n, some o⟩ : Block α)] = c :: cs := by
      cases pre with
      | nil => exact ⟨_, _, rfl⟩
      | cons c cs => exact ⟨_, _, rfl⟩
    rw [List.cons_append, List.cons_append, ← ih, hc]
    obtain ⟨k, _ | o⟩ := b
    · rfl
    · rfl

/-- The list ends with a free block or it does not. -/
theorem release_cases (pre : List (Block α)) (s : ℕ) (post : List (Block α)) :
    (∃ pre' n, pre = pre' ++ [⟨n, none⟩] ∧ release pre s post = pre' ++ joinNext (n + s) post) ∨
      (∀ pre' n, pre ≠ pre' ++ [⟨n, none⟩]) ∧ release pre s post = pre ++ joinNext s post := by
  rcases pre.eq_nil_or_concat with rfl | ⟨pre', ⟨n, _ | o⟩, rfl⟩
  · exact .inr ⟨by simp, rfl⟩
  · exact .inl ⟨pre', n, by simp, by simpa using release_free pre' n s post⟩
  · exact .inr ⟨by simp, by simpa using release_live pre' n o s post⟩

theorem joinNext_cases (s : ℕ) (post : List (Block α)) :
    (∃ n post', post = ⟨n, none⟩ :: post' ∧ joinNext s post = ⟨s + n, none⟩ :: post') ∨
      (∀ n post', post ≠ ⟨n, none⟩ :: post') ∧ joinNext s post = ⟨s, none⟩ :: post := by
  match post with
  | [] => exact .inr ⟨by simp, rfl⟩
  | ⟨n, none⟩ :: post' => exact .inl ⟨n, post', rfl, rfl⟩
  | ⟨n, some o⟩ :: post' => exact .inr ⟨by simp, rfl⟩

theorem total_joinNext (s : ℕ) (post : List (Block α)) :
    total (joinNext s post) = s + total post := by
  rcases joinNext_cases s post with ⟨n, post', rfl, h⟩ | ⟨_, h⟩
  · simp [h, Nat.add_assoc]
  · simp [h]

theorem total_release (pre : List (Block α)) (s : ℕ) (post : List (Block α)) :
    total (release pre s post) = total pre + s + total post := by
  rcases release_cases pre s post with ⟨pre', n, rfl, h⟩ | ⟨_, h⟩
  · simp [h, total_joinNext, Nat.add_assoc]
  · simp [h, total_joinNext, Nat.add_assoc]

theorem freeBytes_joinNext (s : ℕ) (post : List (Block α)) :
    freeBytes (joinNext s post) = s + freeBytes post := by
  rcases joinNext_cases s post with ⟨n, post', rfl, h⟩ | ⟨_, h⟩
  · simp [h, Nat.add_assoc]
  · simp [h]

theorem freeBytes_release (pre : List (Block α)) (s : ℕ) (post : List (Block α)) :
    freeBytes (release pre s post) = freeBytes pre + s + freeBytes post := by
  rcases release_cases pre s post with ⟨pre', n, rfl, h⟩ | ⟨_, h⟩
  · simp [h, freeBytes_joinNext, Nat.add_assoc]
  · simp [h, freeBytes_joinNext, Nat.add_assoc]

theorem lives_joinNext (a s : ℕ) (post : List (Block α)) :
    lives a (joinNext s post) = lives (a + s) post := by
  rcases joinNext_cases s post with ⟨n, post', rfl, h⟩ | ⟨_, h⟩
  · simp [h, Nat.add_assoc]
  · simp [h]

/-- The other owners keep their blocks, at the addresses they had. -/
theorem lives_release (a : ℕ) (pre : List (Block α)) (s : ℕ) (post : List (Block α)) :
    lives a (release pre s post) = lives a pre ++ lives (a + total pre + s) post := by
  rcases release_cases pre s post with ⟨pre', n, rfl, h⟩ | ⟨_, h⟩
  · simp [h, lives_append, lives_joinNext, Nat.add_assoc]
  · simp [h, lives_append, lives_joinNext, Nat.add_assoc]

/-- What joining free blocks keeps holds of all blocks after a release. -/
theorem forall_release {P : Block α → Prop}
    (hadd : ∀ m n, P ⟨m, none⟩ → P ⟨n, none⟩ → P ⟨m + n, none⟩) (hpre : ∀ b ∈ pre, P b)
    (hs : P ⟨s, none⟩) (hpost : ∀ b ∈ post, P b) : ∀ b ∈ release pre s post, P b := by
  have hjoin : ∀ s, P ⟨s, none⟩ → ∀ b ∈ joinNext s post, P b := by
    intro s hs
    rcases joinNext_cases s post with ⟨n, post', rfl, h⟩ | ⟨_, h⟩
    · obtain ⟨hn, hpost'⟩ := List.forall_mem_cons.mp hpost
      rw [h]
      exact List.forall_mem_cons.mpr ⟨hadd s n hs hn, hpost'⟩
    · rw [h]
      exact List.forall_mem_cons.mpr ⟨hs, hpost⟩
  rcases release_cases pre s post with ⟨pre', n, rfl, h⟩ | ⟨_, h⟩
  · rw [h]
    obtain ⟨hpre', hn⟩ := List.forall_mem_append.mp hpre
    have hn := hn _ List.mem_cons_self
    exact List.forall_mem_append.mpr ⟨hpre', hjoin _ (hadd n s hn hs)⟩
  · rw [h]
    exact List.forall_mem_append.mpr ⟨hpre, hjoin s hs⟩

end Release

section Separated

@[simp] theorem separated_nil : Separated ([] : List (Block α)) := List.isChain_nil

theorem separated_cons {b : Block α} :
    Separated (b :: bs) ↔ (∀ c ∈ bs.head?, b.owner = none → c.owner ≠ none) ∧ Separated bs :=
  List.isChain_cons

theorem separated_append :
    Separated (pre ++ post) ↔ Separated pre ∧ Separated post ∧
      ∀ b ∈ pre.getLast?, ∀ c ∈ post.head?, b.owner = none → c.owner ≠ none :=
  List.isChain_append

/-- A live block separates what stands before it from what stands after it. -/
theorem separated_live :
    Separated (pre ++ ⟨s, some o⟩ :: post) ↔ Separated pre ∧ Separated post := by
  rw [separated_append, separated_cons]
  simp

theorem separated_joinNext (s : ℕ) (h : Separated post) : Separated (joinNext s post) := by
  rcases joinNext_cases s post with ⟨n, post', rfl, hj⟩ | ⟨hne, hj⟩
  · rw [hj]
    obtain ⟨hhead, htail⟩ := separated_cons.mp h
    exact separated_cons.mpr ⟨hhead, htail⟩
  · rw [hj]
    refine separated_cons.mpr ⟨fun c hc _ hnone => ?_, h⟩
    obtain ⟨n, o⟩ := c
    obtain ⟨post', rfl⟩ := List.head?_eq_some_iff.mp hc
    exact hne n post' (by rw [show o = none from hnone])

theorem separated_release (s : ℕ) (hpre : Separated pre) (hpost : Separated post) :
    Separated (release pre s post) := by
  rcases release_cases pre s post with ⟨pre', n, rfl, h⟩ | ⟨hne, h⟩
  · rw [h]
    obtain ⟨hpre', _, hlast⟩ := separated_append.mp hpre
    refine separated_append.mpr ⟨hpre', separated_joinNext _ hpost, fun b hb _ _ hnone => ?_⟩
    exact absurd rfl (hlast b hb ⟨n, none⟩ rfl hnone)
  · rw [h]
    refine separated_append.mpr ⟨hpre, separated_joinNext s hpost, fun b hb _ _ hnone => ?_⟩
    obtain ⟨n, o⟩ := b
    obtain ⟨pre', hpre'⟩ := List.getLast?_eq_some_iff.mp hb
    exact absurd (by rw [hpre', show o = none from hnone]) (hne pre' n)

/-- The blocks of a separated list after a free one do not start with a free one. -/
theorem Separated.head_live (h : Separated (pre ++ ⟨s, none⟩ :: post)) :
    ∀ n post', post ≠ ⟨n, none⟩ :: post' := by
  rintro n post' rfl
  have hcons := (separated_append.mp h).2.1
  exact (separated_cons.mp hcons).1 ⟨n, none⟩ rfl rfl rfl

/-- Between two free blocks of a separated list there is always room. -/
theorem Separated.frees_pairwise_lt (h : Separated bs) (hpos : ∀ b ∈ bs, 0 < b.size) (a : ℕ) :
    (frees a bs).Pairwise fun x y => x.1 + x.2 < y.1 := by
  induction bs generalizing a with
  | nil => exact List.Pairwise.nil
  | cons b bs ih =>
    obtain ⟨hhead, htail⟩ := separated_cons.mp h
    obtain ⟨_, hrest⟩ := List.forall_mem_cons.mp hpos
    obtain ⟨s, _ | o⟩ := b
    · refine List.pairwise_cons.mpr ⟨fun y hy => ?_, ih htail hrest (a + s)⟩
      cases bs with
      | nil => cases hy
      | cons c bs =>
        obtain ⟨n, _ | o⟩ := c
        · exact absurd rfl (hhead ⟨n, none⟩ rfl rfl)
        · have hn : 0 < n := hrest _ List.mem_cons_self
          have hy' : a + s + n ≤ y.1 := (frees_bounds (a := a + s + n) hy).1
          dsimp only
          omega
    · exact ih htail hrest (a + s)

end Separated

section Carve

theorem le_granted (least : ℕ) (h : w ≤ s) : w ≤ granted least w s ∧ granted least w s ≤ s := by
  rw [granted]
  split <;> omega

theorem total_carve (h : w ≤ s) (o : α) : total (carve least w s o) = s := by
  rw [carve]
  split
  · simp only [total_cons, total_nil]
    omega
  · simp

theorem freeBytes_carve (least w s : ℕ) (o : α) :
    freeBytes (carve least w s o) = s - granted least w s := by
  rw [carve, granted]
  split
  · simp
  · simp

theorem lives_carve (a : ℕ) (o : α) :
    lives a (carve least w s o) = [(a, granted least w s, o)] := by
  rw [carve, granted]
  split
  · simp
  · simp

/-- A separated list stays separated when a free block of it is given away. -/
theorem separated_carve (h : Separated (pre ++ ⟨s, none⟩ :: post)) (o : α) :
    Separated (pre ++ (carve least w s o ++ post)) := by
  obtain ⟨hpre, hfree, _⟩ := separated_append.mp h
  obtain ⟨hhead, hpost⟩ := separated_cons.mp hfree
  rw [carve]
  split
  · refine separated_live.mpr ⟨hpre, separated_cons.mpr ⟨?_, hpost⟩⟩
    exact hhead
  · exact separated_live.mpr ⟨hpre, hpost⟩

end Carve

section Gaps

/-- The free stretches of the area from `a` to `e` that the stretches `taken` leave. -/
def gaps (e : ℕ) : ℕ → List (ℕ × ℕ) → List (ℕ × ℕ)
  | a, [] => if a < e then [(a, e - a)] else []
  | a, x :: taken => if a < x.1 then (a, x.1 - a) :: gaps e (x.1 + x.2) taken
    else gaps e (x.1 + x.2) taken

/-- Address and size of the live blocks. -/
def stretches (a : ℕ) (bs : List (Block α)) : List (ℕ × ℕ) :=
  (lives a bs).map fun x => (x.1, x.2.1)

@[simp] theorem stretches_nil : stretches a ([] : List (Block α)) = [] := rfl
@[simp] theorem stretches_free : stretches a (⟨s, none⟩ :: bs) = stretches (a + s) bs := rfl
@[simp] theorem stretches_live :
    stretches a (⟨s, some o⟩ :: bs) = (a, s) :: stretches (a + s) bs := rfl

/-- The live blocks stand one behind the other. -/
theorem stretches_pairwise (a : ℕ) (bs : List (Block α)) :
    (stretches a bs).Pairwise fun x y => x.1 + x.2 ≤ y.1 := by
  induction bs generalizing a with
  | nil => exact List.Pairwise.nil
  | cons b bs ih =>
    obtain ⟨s, _ | o⟩ := b
    · exact ih (a + s)
    · apply List.Pairwise.cons _ (ih (a + s))
      intro y hy
      obtain ⟨x, hx, rfl⟩ := List.mem_map.mp hy
      exact (lives_bounds hx).1

/-- In a separated list the free blocks are exactly what the live ones leave. -/
theorem Separated.frees_eq_gaps (h : Separated bs) (hpos : ∀ b ∈ bs, 0 < b.size) (a : ℕ) :
    frees a bs = gaps (a + total bs) a (stretches a bs) := by
  induction bs generalizing a with
  | nil =>
    rw [total_nil, stretches_nil, gaps, if_neg (by omega)]
    rfl
  | cons b bs ih =>
    obtain ⟨hhead, htail⟩ := separated_cons.mp h
    obtain ⟨hb, hrest⟩ := List.forall_mem_cons.mp hpos
    have hstep := ih htail hrest (a + b.size)
    rw [total_cons, ← Nat.add_assoc]
    obtain ⟨s, _ | o⟩ := b
    · dsimp only at hb hstep ⊢
      rw [frees_free, stretches_free, hstep]
      cases bs with
      | nil =>
        rw [total_nil, stretches_nil, gaps, gaps, if_neg (by omega), if_pos (by omega)]
        rw [Nat.add_zero, Nat.add_sub_cancel_left]
      | cons c bs =>
        obtain ⟨n, _ | o⟩ := c
        · exact absurd rfl (hhead ⟨n, none⟩ rfl rfl)
        · rw [stretches_live, gaps, gaps]
          dsimp only
          rw [if_neg (by omega), if_pos (by omega), Nat.add_sub_cancel_left]
    · dsimp only at hstep ⊢
      rw [frees_live, stretches_live, gaps, hstep]
      dsimp only
      rw [if_neg (by omega)]

/-- Between and around `k` live blocks there are at most `k + 1` free ones. -/
theorem Separated.length_frees_le (h : Separated bs) (a : ℕ) :
    (frees a bs).length ≤ (lives a bs).length + 1 := by
  -- one free block more than live ones needs a free block at the start
  suffices hstrong : (frees a bs).length ≤ (lives a bs).length + 1 ∧
      ((∀ b ∈ bs.head?, b.owner ≠ none) → (frees a bs).length ≤ (lives a bs).length) from hstrong.1
  induction bs generalizing a with
  | nil => simp
  | cons b bs ih =>
    obtain ⟨hhead, htail⟩ := separated_cons.mp h
    obtain ⟨s, _ | o⟩ := b
    · have hle := (ih htail (a + s)).2 fun c hc => hhead c hc rfl
      rw [frees_free, lives_free, List.length_cons]
      exact ⟨by omega, fun hlive => absurd rfl (hlive ⟨s, none⟩ rfl)⟩
    · have hle := (ih htail (a + s)).1
      rw [frees_live, lives_live, List.length_cons]
      exact ⟨by omega, fun _ => hle⟩

end Gaps

end Segments
