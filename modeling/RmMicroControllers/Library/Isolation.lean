import RmMicroControllers.Library.Run

/-!
# Isolation of a part of a system

`E` relates the states that a part of the system cannot tell apart, and `concerns` selects the
events that it takes notice of. If no other event changes what the part sees, and the events
that concern it act alike on states that look alike, then what the part sees at the end of a run
is decided by those events, whatever else has happened.
-/

namespace Transition

variable {σ ε : Type*}

/-- One step at a time, in the states that runs from `start` reach. -/
structure Isolates (R : σ → ε → σ → Prop) (start : σ) (concerns : ε → Bool)
    (E : σ → σ → Prop) : Prop where
  equiv : Equivalence E
  unseen : ∀ {es : List ε} {s t : σ} {e : ε}, Run R start es s → concerns e = false →
    R s e t → E s t
  seen : ∀ {es es' : List ε} {s s' t t' : σ} {e : ε}, Run R start es s → Run R start es' s' →
    concerns e = true → E s s' → R s e t → R s' e t' → E t t'

namespace Isolates

variable {R : σ → ε → σ → Prop} {start : σ} {concerns : ε → Bool} {E : σ → σ → Prop}

/-- A run without an event that concerns the part leaves it where it was. -/
theorem same_of_unseen (h : Isolates R start concerns E) {es : List ε} {s : σ}
    (hrun : Run R start es s) (hes : es.filter concerns = []) : E start s := by
  induction hrun with
  | nil => exact h.equiv.refl start
  | @snoc es s t e hrun hstep ih =>
    have hno := List.filter_eq_nil_iff.mp hes
    have he : concerns e = false := Bool.eq_false_iff.mpr (hno e (by simp))
    have hbefore : es.filter concerns = [] :=
      List.filter_eq_nil_iff.mpr fun e' he' => hno e' (List.mem_append_left _ he')
    exact h.equiv.trans (ih hbefore) (h.unseen hrun he hstep)

/-- Two runs with the same events that concern the part look alike to it. -/
theorem same_of_runs (h : Isolates R start concerns E) {es es' : List ε} {s s' : σ}
    (hs : Run R start es s) (hs' : Run R start es' s')
    (hes : es.filter concerns = es'.filter concerns) : E s s' := by
  induction hs generalizing es' s' with
  | nil => exact h.same_of_unseen hs' hes.symm
  | @snoc es s t e hrun hstep ih =>
    rw [List.filter_append] at hes
    cases he : concerns e with
    | false =>
      rw [List.filter_singleton, he, cond_false, List.append_nil] at hes
      exact h.equiv.trans (h.equiv.symm (h.unseen hrun he hstep)) (ih hs' hes)
    | true =>
      rw [List.filter_singleton, he, cond_true] at hes
      -- the other run ends with the same event, but for events that are not seen
      induction hs' with
      | nil => exact absurd hes (by simp)
      | @snoc es' s' t' e' hrun' hstep' ih' =>
        rw [List.filter_append] at hes
        cases he' : concerns e' with
        | false =>
          rw [List.filter_singleton, he', cond_false, List.append_nil] at hes
          exact h.equiv.trans (ih' hes) (h.unseen hrun' he' hstep')
        | true =>
          rw [List.filter_singleton, he', cond_true] at hes
          obtain ⟨hfront, hlast⟩ := List.append_inj' hes rfl
          obtain rfl := List.singleton_inj.mp hlast
          exact h.seen hrun hrun' he (ih hrun' hfront) hstep hstep'

end Isolates

end Transition
