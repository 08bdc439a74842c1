import Mathlib.Data.Fin.Tuple.Basic

/-!
# Windows over a history

A history is a list with its newest entry first. A window of `n` cells shows its latest `n`
entries, newest first, and a blank where there are fewer. Pushing an entry into the window
drops the oldest one, and is what moving all cells but the last by one and overwriting the
first one does.
-/

namespace Window

variable {α : Type*} {n : ℕ}

/-- The latest `n` entries of a history, filled up with `blank`. -/
def latest (blank : α) (n : ℕ) (history : List α) : Fin n → α := fun k => history.getD k blank

/-- A new entry in front of a window. -/
def push (a : α) (w : Fin (n + 1) → α) : Fin (n + 1) → α := Fin.cons a fun k => w k.castSucc

/-- `len` cells from `src` on, moved to `dst`. The ranges may overlap. -/
def moveCells (dst src len : ℕ) (h : src + len ≤ n) (w : Fin n → α) : Fin n → α := fun k =>
  if hk : dst ≤ k.val ∧ k.val < dst + len then w ⟨src + (k.val - dst), by omega⟩ else w k

/-- Pushing into a window follows the history. -/
theorem push_latest (blank a : α) (history : List α) :
    push a (latest blank (n + 1) history) = latest blank (n + 1) (a :: history) := by
  funext k
  cases k using Fin.cases with
  | zero => rfl
  | succ k => rfl

/-- The cells of a window, moved by one, with the first one overwritten. -/
theorem push_eq_update (a : α) (w : Fin (n + 1) → α) :
    push a w = Function.update (moveCells 1 0 n (by omega) w) 0 a := by
  funext k
  cases k using Fin.cases with
  | zero => rw [Function.update_self]; rfl
  | succ k =>
    have hk : 1 ≤ k.succ.val ∧ k.succ.val < 1 + n := by
      rw [Fin.val_succ]
      omega
    rw [Function.update_of_ne (Fin.succ_ne_zero k), moveCells, dif_pos hk]
    change w k.castSucc = _
    congr 1
    apply Fin.ext
    simp

end Window
