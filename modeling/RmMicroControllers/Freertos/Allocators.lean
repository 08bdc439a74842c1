import Mathlib.Algebra.Ring.Int.Defs
import RmMicroControllers.Freertos.Reallocation

/-!
# The allocator callbacks

The four callbacks that the middleware allocates through keep `usedMemory` beside the heap.
A call adds the bytes asked for, whether it gets a block or not, and a release subtracts the
whole block.
-/

namespace RmMicroControllers

open Memory Segments Transition

/-- The two counters of `allocators.c`. -/
structure UsedMemory where
  absoluteUsedMemory : Int32
  usedMemory : Int32
  deriving DecidableEq

namespace UsedMemory

/-- Both counters grow by the bytes asked for. -/
def add (u : UsedMemory) (size : UInt32) : UsedMemory :=
  { absoluteUsedMemory := u.absoluteUsedMemory + size.toInt32
    usedMemory := u.usedMemory + size.toInt32 }

/-- `usedMemory -= getBlockSize(pointer)` -/
def release (u : UsedMemory) (blockSize : ℕ) : UsedMemory :=
  { u with usedMemory := u.usedMemory - (UInt32.ofNat blockSize).toInt32 }

end UsedMemory

section Callbacks

def freertosAllocate (L : Layout) (h : Heap) (u : UsedMemory) (size : UInt32) :
    Except HeapFault (Heap × UsedMemory × ℕ) := do
  let u := u.add size
  let r ← pvPortMalloc L h size
  pure (r.1, u, r.2)

def freertosDeallocate (L : Layout) (h : Heap) (u : UsedMemory) (pointer : ℕ) :
    Except HeapFault (Heap × UsedMemory) :=
  if pointer ≠ 0 then do
    let u := u.release (getBlockSize h pointer)
    let h ← vPortFree L h pointer
    pure (h, u)
  else pure (h, u)

def freertosReallocate (L : Layout) (h : Heap) (u : UsedMemory) (pointer : ℕ) (size : UInt32) :
    Except HeapFault (Heap × UsedMemory × ℕ) :=
  if pointer ≠ 0 then do
    let u := (u.add size).release (getBlockSize h pointer)
    let r ← pvPortRealloc L h pointer size
    pure (r.1, u, r.2)
  else do
    let u := u.add size
    let r ← pvPortMalloc L h size
    pure (r.1, u, r.2)

def freertosZeroAllocate (L : Layout) (h : Heap) (u : UsedMemory)
    (number_of_elements size_of_element : UInt32) : Except HeapFault (Heap × UsedMemory × ℕ) := do
  let u := u.add (number_of_elements * size_of_element)
  let r ← pvPortCalloc L h number_of_elements size_of_element
  pure (r.1, u, r.2)

end Callbacks

section Runs

inductive AllocatorCall where
  | allocate (size : UInt32)
  | deallocate (pointer : ℕ)
  | reallocate (pointer : ℕ) (size : UInt32)
  | zeroAllocate (number_of_elements size_of_element : UInt32)

/-- The session of the callers and the counters. -/
structure Accounts extends Session where
  used : UsedMemory

namespace Accounts

variable {L : Layout} {m : Mem} {a a' : Accounts}

/-- Nothing is held and nothing counted before the first call. -/
def start (m : Mem) : Accounts := { Session.start m with used := ⟨0, 0⟩ }

def step (L : Layout) (a : Accounts) : AllocatorCall → Except HeapFault Accounts
  | .allocate size => do
    let r ← freertosAllocate L a.heap a.used size
    pure { heap := r.1, used := r.2.1, live := Session.hold r.2.2 size.toNat a.live }
  | .deallocate pointer => do
    let r ← freertosDeallocate L a.heap a.used pointer
    pure { heap := r.1, used := r.2, live := Session.drop pointer a.live }
  | .reallocate pointer size => do
    let r ← freertosReallocate L a.heap a.used pointer size
    pure { heap := r.1, used := r.2.1,
           live := Session.hold r.2.2 size.toNat (Session.drop pointer a.live) }
  | .zeroAllocate n size => do
    let r ← freertosZeroAllocate L a.heap a.used n size
    pure { heap := r.1, used := r.2.1, live := Session.hold r.2.2 (n * size).toNat a.live }

/-- A request that gets a block, or asks for nothing. -/
def Served (L : Layout) (a : Accounts) (size : UInt32) : Prop :=
  size = 0 ∨ (firstFit size.toNat (freeBlocks L (initialised L a.heap))).isSome

/-- The calls that release nothing and whose requests are served. -/
def Keeps (L : Layout) (a : Accounts) : AllocatorCall → Prop
  | .allocate size => Served L a size
  | .deallocate pointer => pointer = 0
  | .reallocate pointer size => pointer = 0 ∧ Served L a size
  | .zeroAllocate n size => Served L a (n * size)

/-- The bytes asked for, over the blocks that are held. -/
def requested (a : Accounts) : ℕ := (a.live.map Prod.snd).sum

/-- The counter is the sum of the requests of the blocks held, as a 32-bit number. -/
def Balanced (a : Accounts) : Prop := a.used.usedMemory = Int32.ofNat a.requested

instance decidableKeeps (L : Layout) (a : Accounts) : (e : AllocatorCall) → Decidable (Keeps L a e)
  | .allocate size => inferInstanceAs (Decidable (size = 0 ∨ _))
  | .deallocate pointer => inferInstanceAs (Decidable (pointer = 0))
  | .reallocate pointer size => inferInstanceAs (Decidable (pointer = 0 ∧ (size = 0 ∨ _)))
  | .zeroAllocate n size => inferInstanceAs (Decidable (n * size = 0 ∨ _))

/-- The runs that release nothing and in which every request is served. -/
abbrev Runs (L : Layout) (m : Mem) (es : List AllocatorCall) (a : Accounts) : Prop :=
  Run (Guarded (Keeps L) (ofExcept (step L))) (start m) es a

/-- What every such run keeps. -/
structure Sound (L : Layout) (a : Accounts) : Prop where
  valid : a.toSession.Valid L
  pointers : ∀ b ∈ a.live, b.1 ≠ 0
  balanced : a.Balanced

theorem ofNat_add_toInt32 (k : ℕ) (size : UInt32) :
    Int32.ofNat k + size.toInt32 = Int32.ofNat (size.toNat + k) := by
  have hsize : size.toInt32 = Int32.ofNat size.toNat :=
    Int32.toBitVec_inj.mp (BitVec.ofNat_toNat 32 size.toBitVec).symm
  rw [hsize, ← Int32.ofNat_add, Nat.add_comm]

theorem requested_hold (p n : ℕ) (a : Accounts) (hp : p ≠ 0) :
    ((Session.hold p n a.live).map Prod.snd).sum = n + a.requested := by
  rw [Session.hold, requested]
  rw [if_neg hp, List.map_cons, List.sum_cons]

theorem drop_null (hpointers : ∀ b ∈ a.live, b.1 ≠ 0) : Session.drop 0 a.live = a.live :=
  List.filter_eq_self.mpr fun b hb => by simpa using hpointers b hb

/-- A served request is booked with what was asked for: it got a block, or asked for nothing. -/
theorem Balanced.request {size : UInt32} {h : Heap} {p : ℕ} (hb : a.Balanced)
    (hp : p ≠ 0 ∨ size = 0 ∧ p = 0) :
    Balanced { heap := h, used := a.used.add size,
               live := Session.hold p size.toNat a.live } := by
  rw [Balanced] at hb ⊢
  rw [UsedMemory.add]
  dsimp only
  rw [hb, ofNat_add_toInt32]
  apply congrArg Int32.ofNat
  rcases hp with hp | ⟨rfl, rfl⟩
  · exact (requested_hold p size.toNat a hp).symm
  · exact Nat.zero_add _

theorem pointers_hold {p n : ℕ} (hpointers : ∀ b ∈ a.live, b.1 ≠ 0) :
    ∀ b ∈ Session.hold p n a.live, b.1 ≠ 0 := by
  rw [Session.hold]
  split
  · exact hpointers
  · next hp => exact List.forall_mem_cons.mpr ⟨hp, hpointers⟩

/-- On a sound heap a served request does not come back empty-handed. -/
theorem Served.returned {size : UInt32} {r : Heap × ℕ} (hv : a.toSession.Valid L)
    (hserved : Served L a size) (hcall : pvPortMalloc L a.heap size = .ok r) :
    r.2 ≠ 0 ∨ size = 0 ∧ r.2 = 0 := by
  obtain ⟨_, bs, ht, _⟩ := hv
  rcases pvPortMalloc_cases ht size with ⟨hfit, hmalloc⟩ | ⟨x, _, _, _, h', _, hmalloc, _⟩
  · obtain rfl := Except.ok.inj (hmalloc.symm.trans hcall)
    rcases hserved with hnull | hsome
    · exact .inr ⟨hnull, rfl⟩
    · rw [ht.freeBlocks_eq, hfit] at hsome
      cases hsome
  · obtain rfl := Except.ok.inj (hmalloc.symm.trans hcall)
    exact .inl (Nat.succ_ne_zero _)

theorem Sound.malloc {size : UInt32} {r : Heap × ℕ} (hs : Sound L a) (hserved : Served L a size)
    (hcall : pvPortMalloc L a.heap size = .ok r) :
    Sound L { heap := r.1, used := a.used.add size,
              live := Session.hold r.2 size.toNat a.live } := by
  obtain ⟨hv, hpointers, hbalanced⟩ := hs
  have hstep : Session.step L a.toSession (.malloc size) =
      .ok { heap := r.1, live := Session.hold r.2 size.toNat a.live } := by
    rw [Session.step, hcall]
    rfl
  exact ⟨Session.malloc_valid hv hstep, pointers_hold hpointers,
    hbalanced.request (hserved.returned hv hcall)⟩

theorem Sound.calloc {n size : UInt32} {r : Heap × ℕ} (hs : Sound L a)
    (hserved : Served L a (n * size)) (hcall : pvPortCalloc L a.heap n size = .ok r) :
    Sound L { heap := r.1, used := a.used.add (n * size),
              live := Session.hold r.2 (n * size).toNat a.live } := by
  obtain ⟨hv, hpointers, hbalanced⟩ := hs
  have hstep : Session.step L a.toSession (.calloc n size) =
      .ok { heap := r.1, live := Session.hold r.2 (n * size).toNat a.live } := by
    rw [Session.step, hcall, UInt32.mul_comm n size]
    rfl
  -- the pointer is the one that the inner allocation returned
  obtain ⟨r₁, hmalloc, hptr⟩ : ∃ r₁, pvPortMalloc L a.heap (n * size) = .ok r₁ ∧ r₁.2 = r.2 := by
    rw [pvPortCalloc] at hcall
    rw [UInt32.mul_comm size n] at hcall
    obtain ⟨r₁, hmalloc, hrest⟩ := Fallible.bind_eq_ok.mp hcall
    obtain ⟨m', _, hret⟩ := Fallible.bind_eq_ok.mp hrest
    have hpair : ({ r₁.1 with mem := m' }, r₁.2) = r := Except.ok.inj hret
    exact ⟨r₁, hmalloc, by rw [← hpair]⟩
  have hreturned := hserved.returned hv hmalloc
  rw [hptr] at hreturned
  exact ⟨Session.calloc_valid hv hstep, pointers_hold hpointers, hbalanced.request hreturned⟩

theorem Sound.step {e : AllocatorCall} (hs : Sound L a) (hkeeps : Keeps L a e)
    (hstep : step L a e = .ok a') : Sound L a' := by
  cases e with
  | allocate size =>
    rw [Accounts.step, freertosAllocate] at hstep
    cases hcall : pvPortMalloc L a.heap size with
    | error f =>
      rw [hcall] at hstep
      cases hstep
    | ok r =>
      rw [hcall] at hstep
      obtain rfl := Except.ok.inj hstep
      exact hs.malloc hkeeps hcall
  | deallocate pointer =>
    obtain rfl : pointer = 0 := hkeeps
    obtain rfl := Except.ok.inj hstep
    refine ⟨?_, ?_, ?_⟩
    · rw [drop_null hs.pointers]
      exact hs.valid
    · rw [drop_null hs.pointers]
      exact hs.pointers
    · rw [drop_null hs.pointers]
      exact hs.balanced
  | reallocate pointer size =>
    obtain ⟨rfl, hserved⟩ := hkeeps
    rw [Accounts.step, freertosReallocate, if_neg (by simp)] at hstep
    dsimp only at hstep
    cases hcall : pvPortMalloc L a.heap size with
    | error f =>
      rw [hcall] at hstep
      cases hstep
    | ok r =>
      rw [hcall] at hstep
      obtain rfl := Except.ok.inj hstep
      rw [drop_null hs.pointers]
      exact hs.malloc hserved hcall
  | zeroAllocate n size =>
    rw [Accounts.step, freertosZeroAllocate] at hstep
    cases hcall : pvPortCalloc L a.heap n size with
    | error f =>
      rw [hcall] at hstep
      cases hstep
    | ok r =>
      rw [hcall] at hstep
      obtain rfl := Except.ok.inj hstep
      exact hs.calloc hkeeps hcall

theorem runs_sound {es : List AllocatorCall} (hrun : Runs L m es a) : Sound L a := by
  apply hrun.invariant (I := Sound L) (fun a e a' hs hstep => hs.step hstep.1 hstep.2)
  exact ⟨Session.start_valid L m, fun b hb => absurd hb List.not_mem_nil, rfl⟩

/-- While nothing is released and every request is served, the counter is what is held. -/
theorem usedMemory_eq {es : List AllocatorCall} (hrun : Runs L m es a)
    (hlt : a.requested < 2147483648) : a.used.usedMemory.toInt = a.requested := by
  rw [(runs_sound hrun).balanced]
  exact Int32.toInt_ofNat_of_lt hlt

/-- Two allocations on a fresh heap. -/
theorem usedMemory_eq_two :
    ∃ a : Accounts, a.requested = 200 ∧ a.used.usedMemory.toInt = a.requested := by
  obtain ⟨a, hrun, hend⟩ := Run.of_check (Keeps .internal) (step .internal)
    (start fun _ => 255) [.allocate 100, .zeroAllocate 4 25, .deallocate 0] requested
    (x := 200) (by decide +kernel)
  exact ⟨a, hend, usedMemory_eq hrun (by omega)⟩

/-- One byte allocated and released again: whatever each block counts for, the counter is not
what the blocks held count for. -/
theorem usedMemory_drifts :
    ∃ a : Accounts, Run (ofExcept (step .internal)) (start fun _ => 255)
      [.allocate 1, .deallocate 536870920] a ∧ a.live = [] ∧ a.used.usedMemory = -15 ∧
        ∀ measure : ℕ × ℕ → ℤ, a.used.usedMemory.toInt ≠ (a.live.map measure).sum := by
  obtain ⟨a, hrun, hend⟩ := Run.of_check (fun _ _ => True) (step .internal)
    (start fun _ => 255) [.allocate 1, .deallocate 536870920]
    (fun a => (a.live, a.used.usedMemory)) (x := ([], -15)) (by decide +kernel)
  obtain ⟨hlive, hused⟩ := Prod.mk.inj hend
  refine ⟨a, hrun.forget_guard, hlive, hused, fun measure => ?_⟩
  rw [hlive, hused, List.map_nil]
  decide

end Accounts

end Runs

end RmMicroControllers
