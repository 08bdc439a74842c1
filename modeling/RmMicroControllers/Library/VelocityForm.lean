import Mathlib.Algebra.BigOperators.Ring.List
import Mathlib.Algebra.Field.Basic
import Mathlib.Tactic.Ring

/-!
# The velocity form of a controller

A controller in velocity form adds to its own output: the proportional part of the change of
the error, and the integral of the new error. Since it was last cleared, its output is that of
the positional form: the proportional part of the error, less that of the error at the
clearing, and the sum of all integrals.

## Main definitions

- `ErrorTrace` — the errors since the last clearing
- `positional` — the output in positional form
- `positionalPid` — the same with a derivative part
- `Accumulates` — what a controller in velocity form keeps, against its trace
-/

namespace VelocityForm

variable {K : Type*}

/-- The errors since the last clearing, the oldest first, and the one before them. -/
structure ErrorTrace (K : Type*) where
  base : K
  errors : List K := []

namespace ErrorTrace

/-- The most recent error. -/
def last (t : ErrorTrace K) : K := t.errors.getLastD t.base

/-- The error before the most recent one. -/
def previous (t : ErrorTrace K) : K := t.errors.dropLast.getLastD t.base

/-- One more error. -/
def push (t : ErrorTrace K) (e : K) : ErrorTrace K := { t with errors := t.errors ++ [e] }

/-- The trace after a clearing. -/
def restart (t : ErrorTrace K) : ErrorTrace K := ⟨t.last, []⟩

@[simp]
theorem last_push (t : ErrorTrace K) (e : K) : (t.push e).last = e := by
  simp [last, push]

@[simp]
theorem previous_push (t : ErrorTrace K) (e : K) : (t.push e).previous = t.last := by
  simp [previous, last, push]

@[simp]
theorem base_push (t : ErrorTrace K) (e : K) : (t.push e).base = t.base := rfl

end ErrorTrace

section Positional

variable [Field K]

/-- The output in positional form, with the part that each error adds to the integral. -/
def positional (kp : K) (integral : K → K) (t : ErrorTrace K) : K :=
  kp * (t.last - t.base) + (t.errors.map integral).sum

@[simp]
theorem positional_restart (kp : K) (integral : K → K) (t : ErrorTrace K) :
    positional kp integral t.restart = 0 := by
  simp [positional, ErrorTrace.restart, ErrorTrace.last]

/-- An integral part proportional to the error adds up to a multiple of the sum of errors. -/
theorem positional_mul_left (kp ki : K) (t : ErrorTrace K) :
    positional kp (ki * ·) t = kp * (t.last - t.base) + ki * t.errors.sum := by
  rw [positional, List.sum_map_mul_left, List.map_id']

/-- One step of the velocity form. -/
theorem positional_push (kp : K) (integral : K → K) (t : ErrorTrace K) (e : K) :
    positional kp integral (t.push e) =
      positional kp integral t + kp * (e - t.last) + integral e := by
  unfold positional
  rw [ErrorTrace.last_push, ErrorTrace.base_push]
  simp only [ErrorTrace.push, List.map_append, List.map_cons, List.map_nil, List.sum_append,
    List.sum_cons, List.sum_nil]
  ring

/-- The output and the previous error that the velocity form keeps. -/
structure Accumulates (kp : K) (integral : K → K) (t : ErrorTrace K) (out previous : K) :
    Prop where
  out_eq : out = positional kp integral t
  previous_eq : previous = t.last

namespace Accumulates

variable {kp out previous : K} {integral : K → K} {t : ErrorTrace K}

/-- A controller that has never run has no output. -/
theorem initial (ht : t.errors = []) (hout : out = 0) (hprevious : previous = t.base) :
    Accumulates kp integral t out previous :=
  ⟨by simp [positional, ErrorTrace.last, ht, hout],
    by simp [ErrorTrace.last, ht, hprevious]⟩

theorem restart (h : Accumulates kp integral t out previous) :
    Accumulates kp integral t.restart 0 previous :=
  ⟨(positional_restart kp integral t).symm, h.previous_eq⟩

theorem push (h : Accumulates kp integral t out previous) (e : K) :
    Accumulates kp integral (t.push e) (out + kp * (e - previous) + integral e) e := by
  refine ⟨?_, (t.last_push e).symm⟩
  rw [positional_push, ← h.out_eq, ← h.previous_eq]

end Accumulates

end Positional

section Derivative

variable [Field K]

/-- The output in positional form with a derivative part, which looks at the last two errors. -/
def positionalPid (kp : K) (integral : K → K) (kd : K) (t : ErrorTrace K) : K :=
  positional kp integral t + kd * (t.last - t.previous)

/-- One step of the velocity form: its derivative part is a second difference. -/
theorem positionalPid_push (kp : K) (integral : K → K) (kd : K) (t : ErrorTrace K) (e : K) :
    positionalPid kp integral kd (t.push e) =
      positionalPid kp integral kd t + kp * (e - t.last) + integral e +
        kd * (e - 2 * t.last + t.previous) := by
  unfold positionalPid
  rw [positional_push, ErrorTrace.last_push, ErrorTrace.previous_push]
  ring

end Derivative

end VelocityForm
