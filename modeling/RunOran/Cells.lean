import Mathlib.Logic.Function.Basic
import Mathlib.Data.List.Basic

/-!
# Loops over cells

A loop whose body reads and writes one cell of a store, chosen by the loop variable. Whatever the order
in which the cells are visited, each ends as the fold of the visits to it (`visit_apply`).
-/

namespace Cells

variable {α K V : Type} [DecidableEq K] (key : α → K) (val : α → V → V)

/-- Visits the cell of each element in turn. -/
def visit (cells : K → V) (xs : List α) : K → V :=
  xs.foldl (fun cells x => Function.update cells (key x) (val x (cells (key x)))) cells

@[simp] theorem visit_nil (cells : K → V) : visit key val cells [] = cells := rfl

theorem visit_cons (cells : K → V) (x : α) (xs : List α) : visit key val cells (x :: xs) =
    visit key val (Function.update cells (key x) (val x (cells (key x)))) xs := rfl

/-- A cell is the fold of its visits. -/
theorem visit_apply (cells : K → V) (xs : List α) (k : K) :
    visit key val cells xs k =
      (xs.filter fun x => key x = k).foldl (fun v x => val x v) (cells k) := by
  induction xs generalizing cells with
  | nil => rfl
  | cons x xs ih =>
    rw [visit_cons, ih]
    by_cases hx : key x = k
    · subst hx
      rw [List.filter_cons_of_pos (by simp), List.foldl_cons, Function.update_self]
    · rw [List.filter_cons_of_neg (by simpa using hx), Function.update_of_ne (Ne.symm hx)]

/-- A cell that is not visited. -/
theorem visit_of_forall_ne (cells : K → V) {xs : List α} {k : K} (h : ∀ x ∈ xs, key x ≠ k) :
    visit key val cells xs k = cells k := by
  have hnone : (xs.filter fun x => key x = k) = [] := by
    rw [List.filter_eq_nil_iff]
    intro x hx
    simpa using h x hx
  rw [visit_apply, hnone, List.foldl_nil]

/-- A cell that is visited once. -/
theorem visit_of_filter_eq (cells : K → V) {xs : List α} {k : K} {x : α}
    (h : (xs.filter fun x => key x = k) = [x]) : visit key val cells xs k = val x (cells k) := by
  rw [visit_apply, h, List.foldl_cons, List.foldl_nil]

end Cells
