import Mathlib.Data.List.Forall2

/-!
# Unambiguous texts

A text made of several parts is read in one way only if each part shows where
it ends: it closes itself, or what may follow it starts with a symbol that no
part goes on with.
-/

namespace Delimited

universe u v w

variable {α : Type u} {β : Type v}

/-- What follows a part is nothing, or starts with a symbol that stops it. -/
def Stops (stop : α → Prop) (rest : List α) : Prop :=
  ∀ head ∈ rest.head?, stop head

/-- A part, followed by what may follow it, is read as the same part only. -/
def Unambiguous (render : β → List α) (same : β → β → Prop)
    (stop : α → Prop) (part : β) : Prop :=
  ∀ other rest others,
    Stops stop rest → Stops stop others →
      render part ++ rest = render other ++ others →
        same part other ∧ rest = others

theorem stops_nil (stop : α → Prop) : Stops stop [] := by
  intro head member
  cases member

theorem stops_cons {stop : α → Prop} {head : α} (stops : stop head)
    (tail : List α) : Stops stop (head :: tail) := by
  intro other member
  cases member
  exact stops

/-- Two runs of symbols that do not stop, up to symbols that do, are equal. -/
theorem append_inj_of_stops {stop : α → Prop} {run other rest others : List α}
    (goes : ∀ symbol ∈ run, ¬ stop symbol)
    (otherGoes : ∀ symbol ∈ other, ¬ stop symbol)
    (stops : Stops stop rest) (otherStops : Stops stop others)
    (equality : run ++ rest = other ++ others) :
    run = other ∧ rest = others := by
  induction run generalizing other with
  | nil =>
      cases other with
      | nil => exact ⟨rfl, equality⟩
      | cons head tail =>
          refine absurd (stops head ?_) (otherGoes head List.mem_cons_self)
          rw [List.nil_append] at equality
          rw [equality]
          rfl
  | cons symbol run inductionHypothesis =>
      cases other with
      | nil =>
          refine absurd (otherStops symbol ?_) (goes symbol List.mem_cons_self)
          rw [List.nil_append] at equality
          rw [← equality]
          rfl
      | cons head tail =>
          obtain ⟨sameHead, sameTail⟩ := List.cons.inj equality
          obtain ⟨sameRun, sameRest⟩ :=
            inductionHypothesis
              (fun later member => goes later (List.mem_cons_of_mem _ member))
              (fun later member =>
                otherGoes later (List.mem_cons_of_mem _ member))
              sameTail
          exact ⟨by rw [sameHead, sameRun], sameRest⟩

/-! ## Sequences of parts -/

section Sequences

variable {same : β → β → Prop} {stop : α → Prop} {render : β → List α}
  {close : α}

/-- Every part opens with a symbol that stops the part before it and does not
close the sequence. -/
def OpensWith (render : β → List α) (opens : α → Prop) : Prop :=
  ∀ part rest, ∃ head tail, render part ++ rest = head :: tail ∧ opens head

theorem OpensWith.mono {opens weaker : α → Prop}
    (opening : OpensWith render opens) (weaken : ∀ head, opens head → weaker head) :
    OpensWith render weaker := by
  intro part rest
  obtain ⟨head, tail, shape, opened⟩ := opening part rest
  exact ⟨head, tail, shape, weaken head opened⟩

/-- A part is not taken for the end of its sequence. -/
theorem OpensWith.ne_close (opening : OpensWith render (· ≠ close))
    (part : β) (rest otherRest : List α) :
    close :: otherRest ≠ render part ++ rest := by
  intro closed
  obtain ⟨head, tail, shape, different⟩ := opening part rest
  rw [shape] at closed
  exact different (List.cons.inj closed).1.symm

theorem stops_flatMap (opening : OpensWith render stop) (closes : stop close)
    (parts : List β) (rest : List α) :
    Stops stop (parts.flatMap render ++ close :: rest) := by
  cases parts with
  | nil => exact stops_cons closes rest
  | cons part parts =>
      rw [List.flatMap_cons, List.append_assoc]
      obtain ⟨head, tail, shape, stops⟩ :=
        opening part (parts.flatMap render ++ close :: rest)
      rw [shape]
      exact stops_cons stops tail

/-- A closed sequence of parts is read as the same parts only. -/
theorem flatMap_inj
    (opens : OpensWith render fun head => stop head ∧ head ≠ close)
    (closes : stop close) {parts others : List β}
    (unambiguous : ∀ part ∈ parts, Unambiguous render same stop part)
    {rest otherRest : List α}
    (equality :
      parts.flatMap render ++ close :: rest =
        others.flatMap render ++ close :: otherRest) :
    List.Forall₂ same parts others ∧ rest = otherRest := by
  have stopsTail := stops_flatMap (opens.mono fun _ both => both.1) closes
  have notClosed := (opens.mono fun _ both => both.2).ne_close
  induction parts generalizing others with
  | nil =>
      cases others with
      | nil => exact ⟨.nil, (List.cons.inj equality).2⟩
      | cons other others =>
          rw [List.flatMap_cons, List.append_assoc] at equality
          exact absurd equality (notClosed other _ rest)
  | cons part parts inductionHypothesis =>
      cases others with
      | nil =>
          rw [List.flatMap_cons, List.append_assoc] at equality
          exact absurd equality.symm (notClosed part _ otherRest)
      | cons other others =>
          rw [List.flatMap_cons, List.flatMap_cons, List.append_assoc,
            List.append_assoc] at equality
          obtain ⟨samePart, later⟩ :=
            unambiguous part List.mem_cons_self other _ _ (stopsTail parts rest)
              (stopsTail others otherRest) equality
          obtain ⟨sameParts, sameRest⟩ :=
            inductionHypothesis
              (fun next member =>
                unambiguous next (List.mem_cons_of_mem _ member))
              later
          exact ⟨.cons samePart sameParts, sameRest⟩

theorem unambiguous_prepend (separator : List α) {part : β}
    (unambiguous : Unambiguous render same stop part) :
    Unambiguous (fun next => separator ++ render next) same stop part := by
  intro other rest others stops otherStops equality
  rw [List.append_assoc, List.append_assoc, List.append_cancel_left_eq] at equality
  exact unambiguous other rest others stops otherStops equality

theorem intercalate_map_cons (separator : List α) (render : β → List α)
    (part : β) (parts : List β) :
    separator.intercalate ((part :: parts).map render) =
      render part ++ parts.flatMap fun next => separator ++ render next := by
  induction parts generalizing part with
  | nil => simp
  | cons next parts inductionHypothesis =>
      rw [List.map_cons, List.intercalate_cons_of_ne_nil (by simp),
        inductionHypothesis next, List.flatMap_cons, List.append_assoc,
        List.append_assoc]

/-- A closed sequence with separators is read as the same parts only. -/
theorem intercalate_inj {comma : α} {separator : List α}
    (commaStops : stop comma) (closes : stop close) (different : comma ≠ close)
    (opens : OpensWith render (· ≠ close)) {parts others : List β}
    (unambiguous : ∀ part ∈ parts, Unambiguous render same stop part)
    {rest otherRest : List α}
    (equality :
      (comma :: separator).intercalate (parts.map render) ++ close :: rest =
        (comma :: separator).intercalate (others.map render) ++
          close :: otherRest) :
    List.Forall₂ same parts others ∧ rest = otherRest := by
  have commaOpens :
      OpensWith (fun next => (comma :: separator) ++ render next)
        fun head => stop head ∧ head ≠ close :=
    fun _ _ => ⟨comma, _, rfl, commaStops, different⟩
  have stopsTail := stops_flatMap (commaOpens.mono fun _ both => both.1) closes
  have notClosed := opens.ne_close
  cases parts with
  | nil =>
      cases others with
      | nil => exact ⟨.nil, (List.cons.inj equality).2⟩
      | cons other others =>
          rw [intercalate_map_cons, List.append_assoc] at equality
          exact absurd equality (notClosed other _ rest)
  | cons part parts =>
      cases others with
      | nil =>
          rw [intercalate_map_cons, List.append_assoc] at equality
          exact absurd equality.symm (notClosed part _ otherRest)
      | cons other others =>
          rw [intercalate_map_cons, intercalate_map_cons, List.append_assoc,
            List.append_assoc] at equality
          obtain ⟨samePart, later⟩ :=
            unambiguous part List.mem_cons_self other _ _ (stopsTail parts rest)
              (stopsTail others otherRest) equality
          obtain ⟨sameParts, sameRest⟩ :=
            flatMap_inj commaOpens closes
              (fun next member =>
                unambiguous_prepend (comma :: separator)
                  (unambiguous next (List.mem_cons_of_mem _ member)))
              later
          exact ⟨.cons samePart sameParts, sameRest⟩

end Sequences

end Delimited
