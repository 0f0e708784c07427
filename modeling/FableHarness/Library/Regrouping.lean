import Mathlib.Algebra.BigOperators.Group.List.Basic

/-!
# Regrouping a list of amounts

Two lists of amounts are regroupings of one another if one is made from the
other by reordering, by splitting amounts into parts and by merging amounts.
Nonempty lists are regroupings of one another exactly when they have the same
total.
-/

universe u

/-- One list is made from the other by reordering, splitting and merging. -/
inductive Regrouped {M : Type u} [AddCommMonoid M] : List M → List M → Prop where
  | reorder {left right : List M} (perm : left.Perm right) : Regrouped left right
  | split (before parts after : List M) (nonempty : parts ≠ []) :
      Regrouped (before ++ parts.sum :: after) (before ++ (parts ++ after))
  | symm {left right : List M} (regrouped : Regrouped left right) :
      Regrouped right left
  | trans {left middle right : List M} (first : Regrouped left middle)
      (second : Regrouped middle right) : Regrouped left right

namespace Regrouped

variable {M : Type u} [AddCommMonoid M] {left right amounts : List M}

theorem sum_eq (regrouped : Regrouped left right) : left.sum = right.sum := by
  induction regrouped with
  | reorder perm => exact perm.sum_eq
  | split before parts after _ =>
      rw [List.sum_append, List.sum_cons, List.sum_append, List.sum_append]
  | symm _ inductionHypothesis => exact inductionHypothesis.symm
  | trans _ _ first second => exact first.trans second

/-- All amounts merged into one. -/
theorem merged (nonempty : amounts ≠ []) : Regrouped [amounts.sum] amounts := by
  have whole := Regrouped.split [] amounts [] nonempty
  rwa [List.nil_append, List.append_nil, List.nil_append] at whole

theorem iff_sum_eq (leftNonempty : left ≠ []) (rightNonempty : right ≠ []) :
    Regrouped left right ↔ left.sum = right.sum := by
  constructor
  · exact sum_eq
  · intro sameTotal
    have toTotal : Regrouped left [right.sum] := by
      rw [← sameTotal]
      exact (merged leftNonempty).symm
    exact toTotal.trans (merged rightNonempty)

end Regrouped
