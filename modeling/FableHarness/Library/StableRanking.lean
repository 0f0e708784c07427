import Mathlib.Data.List.Basic
import Mathlib.Order.Lattice

/-!
# The best of a list

A ranking puts the highest scores first and keeps items of equal score in the
order of the list.  Its first `k` items are the `k` best: whatever is left out
is outranked by all of them, and is left out for want of room only.
-/

universe u v

namespace StableRanking

variable {α : Type u} {β : Type v} [LinearOrder β] (score : α → β)

def higherFirst (left right : α) : Bool := decide (score right ≤ score left)

/-- Highest scores first, equal scores in the order of the list. -/
def ranking (items : List α) : List α := items.mergeSort (higherFirst score)

/-- A higher score, or the same score and an earlier place. -/
def Outranks (items : List α) (left right : α) : Prop :=
  score right < score left ∨
    score left = score right ∧ [left, right].Sublist items

/-- `top` are the `k` best of `items`, in order. -/
structure IsTopK (items : List α) (k : Nat) (top : List α) : Prop where
  length_le : top.length ≤ k
  subset : top ⊆ items
  ordered : top.Pairwise (Outranks score items)
  best :
    ∀ omitted ∈ items, omitted ∉ top → ∀ chosen ∈ top,
      Outranks score items chosen omitted
  full : ∀ omitted ∈ items, omitted ∉ top → top.length = k

variable {score} {items : List α}

theorem Outranks.score_le {left right : α}
    (outranks : Outranks score items left right) : score right ≤ score left := by
  rcases outranks with higher | ⟨same, _⟩
  · exact higher.le
  · exact same.ge

theorem higherFirst_trans (first second third : α)
    (high : higherFirst score first second = true)
    (low : higherFirst score second third = true) :
    higherFirst score first third = true :=
  decide_eq_true ((of_decide_eq_true low).trans (of_decide_eq_true high))

theorem higherFirst_total (left right : α) :
    (higherFirst score left right || higherFirst score right left) = true := by
  rw [Bool.or_eq_true]
  exact (le_total (score right) (score left)).imp decide_eq_true decide_eq_true

/-! ## The ranking -/

theorem ranking_perm (score : α → β) (items : List α) :
    (ranking score items).Perm items :=
  List.mergeSort_perm _ _

theorem mem_ranking {item : α} : item ∈ ranking score items ↔ item ∈ items :=
  (ranking_perm score items).mem_iff

theorem pairwise_ranking (score : α → β) (items : List α) :
    (ranking score items).Pairwise fun left right => score right ≤ score left :=
  (List.pairwise_mergeSort higherFirst_trans higherFirst_total items).imp
    of_decide_eq_true

/-- The items of one score stand in the ranking as they stand in the list. -/
theorem filter_ranking (score : α → β) (items : List α) (value : β) :
    ((ranking score items).filter fun item => score item = value) =
      items.filter fun item => score item = value := by
  have alike :
      (items.filter fun item => score item = value).Pairwise
        fun left right => higherFirst score left right = true := by
    rw [List.pairwise_filter]
    apply List.pairwise_of_forall
    intro left right leftValue rightValue
    apply decide_eq_true
    rw [of_decide_eq_true leftValue, of_decide_eq_true rightValue]
  have kept :
      (items.filter fun item => score item = value).Sublist (ranking score items) :=
    List.sublist_mergeSort higherFirst_trans higherFirst_total alike
      List.filter_sublist
  have within := kept.filter fun item => decide (score item = value)
  rw [List.filter_filter] at within
  simp only [Bool.and_self] at within
  have sameLength :=
    ((ranking_perm score items).filter
      fun item => decide (score item = value)).length_eq
  exact (within.eq_of_length sameLength.symm).symm

theorem pairwise_outranks_ranking (score : α → β) (items : List α) :
    (ranking score items).Pairwise (Outranks score items) := by
  rw [List.pairwise_iff_forall_sublist]
  intro left right both
  have ordered :=
    List.pairwise_iff_forall_sublist.mp (pairwise_ranking score items) both
  rcases ordered.lt_or_eq with higher | same
  · exact Or.inl higher
  · refine Or.inr ⟨same.symm, ?_⟩
    have tied := both.filter fun item => decide (score item = score left)
    rw [filter_ranking] at tied
    simp only [List.filter_cons, same, decide_true, if_true, List.filter_nil] at tied
    exact tied.trans List.filter_sublist

/-! ## Its first items -/

theorem mem_drop_of_omitted {k : Nat} {omitted : α} (member : omitted ∈ items)
    (absent : omitted ∉ (ranking score items).take k) :
    omitted ∈ (ranking score items).drop k := by
  have ranked : omitted ∈ ranking score items := mem_ranking.mpr member
  rw [← List.take_append_drop k (ranking score items), List.mem_append] at ranked
  exact ranked.resolve_left absent

/-- The first `k` items of a ranking are the `k` best. -/
theorem isTopK_take_ranking (score : α → β) (items : List α) (k : Nat) :
    IsTopK score items k ((ranking score items).take k) where
  length_le := List.length_take_le _ _
  subset item taken := mem_ranking.mp (List.mem_of_mem_take taken)
  ordered := (pairwise_outranks_ranking score items).sublist (List.take_sublist _ _)
  best omitted member absent chosen taken := by
    have ordered := pairwise_outranks_ranking score items
    rw [← List.take_append_drop k (ranking score items),
      List.pairwise_append] at ordered
    exact ordered.2.2 chosen taken omitted (mem_drop_of_omitted member absent)
  full omitted member absent := by
    have dropped := List.length_pos_of_mem (mem_drop_of_omitted member absent)
    rw [List.length_drop] at dropped
    rw [List.length_take]
    omega

end StableRanking
