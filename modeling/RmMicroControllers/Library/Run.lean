import Mathlib.Data.List.Basic
import Mathlib.Data.List.Induction

/-!
# Runs of labelled transition relations

A transition relation `R : σ → ε → σ → Prop` says which states an event may lead to.
`Run R s es t` is the reflexive-transitive closure that keeps the list of events, grown at
its end so that an induction on a run sees the last event first. `Guarded A R` restricts a
relation to steps whose source and event satisfy `A`, and `Ghost upd R` adds a history
variable that the program itself does not have.
-/

namespace Transition

variable {σ τ ε γ : Type*}

/-- The states a run of `R` over a list of events leads to. -/
inductive Run (R : σ → ε → σ → Prop) (s : σ) : List ε → σ → Prop where
  | nil : Run R s [] s
  | snoc {es : List ε} {t u : σ} {e : ε} : Run R s es t → R t e u → Run R s (es ++ [e]) u

/-- The steps of `R` whose source state and event satisfy `A`. -/
def Guarded (A : σ → ε → Prop) (R : σ → ε → σ → Prop) (s : σ) (e : ε) (t : σ) : Prop :=
  A s e ∧ R s e t

/-- The steps of `R` with a history variable updated from the source and the target. -/
def Ghost (upd : σ → γ → ε → σ → γ) (R : σ → ε → σ → Prop) (s : σ × γ) (e : ε)
    (t : σ × γ) : Prop :=
  R s.1 e t.1 ∧ t.2 = upd s.1 s.2 e t.1

/-- A step function with a history variable, for running it. -/
def ghostStep {φ : Type*} (upd : σ → γ → ε → σ → γ) (step : σ → ε → Except φ σ) (s : σ × γ)
    (e : ε) : Except φ (σ × γ) :=
  (step s.1 e).map fun t => (t, upd s.1 s.2 e t)

/-- The relation of a step function that may fail. -/
def ofExcept {φ : Type*} (step : σ → ε → Except φ σ) (s : σ) (e : ε) (t : σ) : Prop :=
  step s e = .ok t

variable {R R' : σ → ε → σ → Prop} {s t u : σ} {es : List ε} {e : ε}

namespace Run

/-- What holds at the start and is kept by every step holds at the end of every run. -/
theorem invariant {I : σ → Prop} (hI : ∀ s e t, I s → R s e t → I t)
    (h : Run R s es t) (hs : I s) : I t := by
  induction h with
  | nil => exact hs
  | snoc _ hstep ih => exact hI _ _ _ ih hstep

/-- An invariant about the state together with the events that led to it. -/
theorem invariant_events {I : List ε → σ → Prop}
    (hI : ∀ es s e t, I es s → R s e t → I (es ++ [e]) t) (h : Run R s es t)
    (hs : I [] s) : I es t := by
  induction h with
  | nil => exact hs
  | snoc _ hstep ih => exact hI _ _ _ _ ih hstep

/-- A quantity that the events of a run leave alone is the same at its end. -/
theorem frame (h : Run R s es t) {I : σ → Prop} (f : σ → τ)
    (hI : ∀ s e t, I s → R s e t → I t)
    (hf : ∀ s e t, I s → e ∈ es → R s e t → f t = f s) (hs : I s) : f t = f s := by
  induction h with
  | nil => rfl
  | snoc h hstep ih =>
    have hlast := hf _ _ _ (h.invariant hI hs) (by simp) hstep
    exact hlast.trans (ih fun s e t hs he => hf s e t hs (List.mem_append_left _ he))

/-- A stronger relation has fewer runs. -/
theorem mono (hR : ∀ s e t, R s e t → R' s e t) (h : Run R s es t) : Run R' s es t := by
  induction h with
  | nil => exact .nil
  | snoc _ hstep ih => exact .snoc ih (hR _ _ _ hstep)

/-- The last step of a run. -/
theorem snoc_inv (h : Run R s (es ++ [e]) u) : ∃ t, Run R s es t ∧ R t e u := by
  generalize hes : es ++ [e] = es' at h
  cases h with
  | nil => simp at hes
  | snoc h hstep =>
    obtain ⟨rfl, he⟩ := List.append_inj' hes rfl
    obtain rfl := List.singleton_inj.mp he
    exact ⟨_, h, hstep⟩

/-- A run of a deterministic relation is determined by its events. -/
theorem unique (hR : ∀ s e t t', R s e t → R s e t' → t = t') (h : Run R s es t)
    (h' : Run R s es u) : t = u := by
  induction h generalizing u with
  | nil =>
    generalize hes : [] = es at h'
    cases h' with
    | nil => rfl
    | snoc _ _ => simp at hes
  | snoc _ hstep ih =>
    obtain ⟨v, hv, hstep'⟩ := h'.snoc_inv
    obtain rfl := ih hv
    exact hR _ _ _ _ hstep hstep'

theorem nil_inv (h : Run R s [] t) : s = t := by
  generalize hes : [] = es at h
  cases h with
  | nil => rfl
  | snoc _ _ => simp at hes

theorem single_inv (h : Run R s [e] t) : R s e t := by
  obtain ⟨u, hu, hstep⟩ : ∃ u, Run R s [] u ∧ R u e t := snoc_inv h
  exact nil_inv hu ▸ hstep

theorem single (h : R s e t) : Run R s [e] t := .snoc .nil h

theorem append {es' : List ε} (h : Run R s es t) (h' : Run R t es' u) :
    Run R s (es ++ es') u := by
  induction h' with
  | nil => simpa using h
  | snoc _ hstep ih => simpa [List.append_assoc] using ih.snoc hstep

theorem cons (h : R s e t) (h' : Run R t es u) : Run R s (e :: es) u :=
  (single h).append h'

/-- A run over two joined lists passes through a state between them. -/
theorem append_inv {es' : List ε} (h : Run R s (es ++ es') u) :
    ∃ t, Run R s es t ∧ Run R t es' u := by
  induction es' using List.reverseRecOn generalizing u with
  | nil => exact ⟨u, by simpa using h, .nil⟩
  | append_singleton es' e ih =>
    rw [← List.append_assoc] at h
    obtain ⟨v, hv, hstep⟩ := h.snoc_inv
    obtain ⟨t, ht, ht'⟩ := ih hv
    exact ⟨t, ht, ht'.snoc hstep⟩

/-- A run passes through the states before and after each of its events. -/
theorem cons_inv {es' : List ε} (h : Run R s (es ++ e :: es') u) :
    ∃ t t', Run R s es t ∧ R t e t' ∧ Run R t' es' u := by
  obtain ⟨t, ht, h⟩ := h.append_inv
  obtain ⟨t', ht', h⟩ : ∃ t', Run R t [e] t' ∧ Run R t' es' u := append_inv h
  exact ⟨t, t', ht, single_inv ht', h⟩

/-- A guarded step function, for running a given list of events. -/
def check {φ : Type*} (A : σ → ε → Prop) [∀ s e, Decidable (A s e)]
    (step : σ → ε → Except φ σ) (s : σ) (e : ε) : Option σ :=
  if A s e then (step s e).toOption else none

/-- What folding the guarded step function computes is the end of a run. -/
theorem of_check {φ : Type*} (A : σ → ε → Prop) [∀ s e, Decidable (A s e)]
    (step : σ → ε → Except φ σ) (s : σ) (es : List ε) (f : σ → τ) {x : τ}
    (h : (es.foldlM (check A step) s).map f = some x) :
    ∃ t, Run (Guarded A (ofExcept step)) s es t ∧ f t = x := by
  obtain ⟨t, ht, hx⟩ := Option.map_eq_some_iff.mp h
  refine ⟨t, ?_, hx⟩
  clear h hx
  induction es generalizing s with
  | nil =>
    obtain rfl := Option.some.inj ht
    exact .nil
  | cons e es ih =>
    rw [List.foldlM_cons] at ht
    obtain ⟨u, hu, ht⟩ := Option.bind_eq_some_iff.mp ht
    rw [check] at hu
    split at hu
    · next hA =>
      refine cons ⟨hA, ?_⟩ (ih _ ht)
      cases hstep : step s e with
      | error f => rw [hstep] at hu; cases hu
      | ok v => rw [hstep] at hu; exact hstep.trans (congrArg _ (Option.some.inj hu))
    · cases hu

/-- Where the guarded step function ends, for a list of events that it accepts. -/
def lastState {φ : Type*} (A : σ → ε → Prop) [∀ s e, Decidable (A s e)]
    (step : σ → ε → Except φ σ) (s : σ) (es : List ε) : σ :=
  (es.foldlM (check A step) s).getD s

theorem run_lastState {φ : Type*} {A : σ → ε → Prop} [∀ s e, Decidable (A s e)]
    {step : σ → ε → Except φ σ} (h : (es.foldlM (check A step) s).isSome = true) :
    Run (Guarded A (ofExcept step)) s es (lastState A step s es) := by
  obtain ⟨t, ht⟩ := Option.isSome_iff_exists.mp h
  obtain ⟨t', hrun, rfl⟩ := of_check A step s es id (x := t) (by rw [ht]; rfl)
  rwa [lastState, ht]

/-- A run of a deterministic relation carries a history variable along. -/
theorem exists_ghost (upd : σ → γ → ε → σ → γ) (h : Run R s es t) (g : γ) :
    ∃ g', Run (Ghost upd R) (s, g) es (t, g') := by
  induction h with
  | nil => exact ⟨g, .nil⟩
  | snoc _ hstep ih =>
    obtain ⟨g', hg⟩ := ih
    exact ⟨upd _ g' _ _, Run.snoc (u := (_, _)) hg ⟨hstep, rfl⟩⟩

/-- Forgetting the history variable gives back a run of the program. -/
theorem forget_ghost {upd : σ → γ → ε → σ → γ} {s t : σ × γ}
    (h : Run (Ghost upd R) s es t) : Run R s.1 es t.1 := by
  induction h with
  | nil => exact .nil
  | snoc _ hstep ih => exact ih.snoc hstep.1

theorem ghost_of_ghostStep {φ : Type*} {upd : σ → γ → ε → σ → γ} {step : σ → ε → Except φ σ}
    {s t : σ × γ} (h : ofExcept (ghostStep upd step) s e t) :
    Ghost upd (ofExcept step) s e t := by
  rw [ofExcept, ghostStep] at h
  cases hstep : step s.1 e with
  | error f => rw [hstep] at h; cases h
  | ok u =>
    rw [hstep] at h
    obtain rfl := Except.ok.inj h
    exact ⟨hstep, rfl⟩

/-- Running the step function with its history variable gives a run with that history. -/
theorem of_check_ghost {φ : Type*} (A : σ → ε → Prop) [∀ s e, Decidable (A s e)]
    (upd : σ → γ → ε → σ → γ) (step : σ → ε → Except φ σ) (s : σ × γ) (es : List ε)
    (f : σ × γ → τ) {x : τ}
    (h : (es.foldlM (check (fun s e => A s.1 e) (ghostStep upd step)) s).map f = some x) :
    ∃ t, Run (Ghost upd (Guarded A (ofExcept step))) s es t ∧ f t = x := by
  obtain ⟨t, hrun, hx⟩ := of_check _ _ _ _ _ h
  refine ⟨t, hrun.mono fun s e t ht => ?_, hx⟩
  obtain ⟨hA, ht⟩ := ht
  obtain ⟨hstep, hg⟩ := ghost_of_ghostStep ht
  exact ⟨⟨hA, hstep⟩, hg⟩

/-- A run of a restricted relation is a run. -/
theorem forget_guard {A : σ → ε → Prop} (h : Run (Guarded A R) s es t) : Run R s es t :=
  h.mono fun _ _ _ hs => hs.2

end Run

end Transition
