import Mathlib.Algebra.GroupWithZero.Nat
import Mathlib.Data.List.Basic

/-!
# Fallible computations

Inversion of `Except` binds, so that a run of a `do` block is taken apart with `obtain`, and
the two rules for a fold whose step may fail: what every step keeps, and when it cannot fail.
-/

namespace Fallible

-- The lengths of fixed arrays are not zero, which the literals of their index types rest on.
instance neZero_two : NeZero 2 := ⟨Nat.succ_ne_zero 1⟩
instance neZero_three : NeZero 3 := ⟨Nat.succ_ne_zero 2⟩
instance neZero_four : NeZero 4 := ⟨Nat.succ_ne_zero 3⟩
instance neZero_five : NeZero 5 := ⟨Nat.succ_ne_zero 4⟩
instance neZero_six : NeZero 6 := ⟨Nat.succ_ne_zero 5⟩
instance neZero_eight : NeZero 8 := ⟨Nat.succ_ne_zero 7⟩
instance neZero_sixteen : NeZero 16 := ⟨Nat.succ_ne_zero 15⟩
instance neZero_eighteen : NeZero 18 := ⟨Nat.succ_ne_zero 17⟩

variable {φ α β : Type*}

@[simp]
theorem pure_eq_ok {a b : α} : (pure a : Except φ α) = .ok b ↔ a = b :=
  ⟨fun h => Except.ok.inj h, fun h => h ▸ rfl⟩

@[simp]
theorem ok_bind {α β : Type _} (a : α) (f : α → Except φ β) :
    ((Except.ok a : Except φ α) >>= f) = f a := rfl

@[simp]
theorem error_bind {α β : Type _} (e : φ) (f : α → Except φ β) :
    ((Except.error e : Except φ α) >>= f) = .error e := rfl

/-- A bind succeeds exactly when both parts do. -/
theorem bind_eq_ok {α β : Type _} {x : Except φ α} {f : α → Except φ β} {b : β} :
    (x >>= f) = .ok b ↔ ∃ a, x = .ok a ∧ f a = .ok b := by
  cases x with
  | error e =>
    rw [error_bind]
    simp
  | ok a =>
    rw [ok_bind]
    simp

/-- A bind fails exactly when its first failing part does. -/
theorem bind_eq_error {α β : Type _} {x : Except φ α} {f : α → Except φ β} {e : φ} :
    (x >>= f) = .error e ↔ x = .error e ∨ ∃ a, x = .ok a ∧ f a = .error e := by
  cases x with
  | error e' =>
    rw [error_bind]
    simp
  | ok a =>
    rw [ok_bind]
    simp

/-- A computation whose result is known succeeds. -/
theorem exists_ok_of_toOption {x : Except φ α} {f : α → β} {b : β}
    (h : x.toOption.map f = some b) : ∃ a, x = .ok a ∧ f a = b := by
  cases x with
  | error e => cases h
  | ok a => exact ⟨a, rfl, Option.some.inj h⟩

/-- What every successful step keeps, a successful fold keeps. -/
theorem foldlM_invariant {β : Type _} {f : β → α → Except φ β} {I : β → Prop} {l : List α}
    {b b' : β} (hstep : ∀ b a b', I b → f b a = .ok b' → I b')
    (h : l.foldlM f b = .ok b') (hb : I b) : I b' := by
  induction l generalizing b with
  | nil => simpa using (pure_eq_ok.mp h) ▸ hb
  | cons a l ih =>
    rw [List.foldlM_cons] at h
    obtain ⟨c, hc, hrest⟩ := bind_eq_ok.mp h
    exact ih hrest (hstep _ _ _ hb hc)

/-- A fold whose steps all succeed under an invariant succeeds. -/
theorem foldlM_exists {β : Type _} {f : β → α → Except φ β} {I : β → Prop} {l : List α} {b : β}
    (hstep : ∀ b, ∀ a ∈ l, I b → ∃ b', f b a = .ok b' ∧ I b') (hb : I b) :
    ∃ b', l.foldlM f b = .ok b' ∧ I b' := by
  induction l generalizing b with
  | nil => exact ⟨b, rfl, hb⟩
  | cons a l ih =>
    obtain ⟨c, hc, hI⟩ := hstep b a List.mem_cons_self hb
    obtain ⟨b', hb', hI'⟩ := ih (fun b x hx => hstep b x (List.mem_cons_of_mem _ hx)) hI
    exact ⟨b', by rw [List.foldlM_cons, hc]; exact hb', hI'⟩

/-- Every error that a computation can end with satisfies `P`. -/
def ErrorsIn (P : φ → Prop) (x : Except φ α) : Prop := ∀ e, x = .error e → P e

section ErrorsIn

variable {α β : Type _} {P : φ → Prop}

theorem ErrorsIn.ok (a : α) : ErrorsIn P (.ok a : Except φ α) := fun _ h => by cases h

theorem ErrorsIn.pure (a : α) : ErrorsIn P (Pure.pure a : Except φ α) := .ok a

theorem errorsIn_error {e : φ} : ErrorsIn P (.error e : Except φ α) ↔ P e :=
  ⟨fun h => h e rfl, fun h _ he => Except.error.inj he ▸ h⟩

theorem ErrorsIn.bind {x : Except φ α} {f : α → Except φ β} (hx : ErrorsIn P x)
    (hf : ∀ a, x = .ok a → ErrorsIn P (f a)) : ErrorsIn P (x >>= f) := by
  intro e he
  rcases bind_eq_error.mp he with he | ⟨a, ha, he⟩
  · exact hx e he
  · exact hf a ha e he

/-- A fold whose steps keep an invariant and fail only in `P` fails only in `P`. -/
theorem ErrorsIn.foldlM {f : β → α → Except φ β} {I : β → Prop} {l : List α} {b : β}
    (hstep : ∀ b, ∀ a ∈ l, I b → ErrorsIn P (f b a) ∧ ∀ b', f b a = .ok b' → I b')
    (hb : I b) : ErrorsIn P (l.foldlM f b) := by
  induction l generalizing b with
  | nil => exact .ok b
  | cons a l ih =>
    rw [List.foldlM_cons]
    obtain ⟨herr, hkeep⟩ := hstep b a List.mem_cons_self hb
    exact herr.bind fun c hc =>
      ih (fun b x hx => hstep b x (List.mem_cons_of_mem _ hx)) (hkeep c hc)

end ErrorsIn

end Fallible
