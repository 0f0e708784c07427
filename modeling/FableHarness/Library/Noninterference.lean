import FableHarness.Library.LabelledRun

/-!
# Noninterference by unwinding

Two runs of one machine under schedules that agree on the visible labels.  A
relation between the states that hidden steps of either side keep, and that a
visible step taken on both sides keeps, relates the ends of the two runs.
-/

namespace LabelledRun

universe u v

variable {S : Type u} {L : Type v} {step : S → L → S}

/-- An unwinding relation for the labels that `allowed` admits. -/
structure Unwinding (step : S → L → S) (visible : L → Bool)
    (allowed : L → Prop) (related : S → S → Prop) : Prop where
  hiddenLeft :
    ∀ {left right label},
      allowed label → visible label = false → related left right →
        related (step left label) right
  hiddenRight :
    ∀ {left right label},
      allowed label → visible label = false → related left right →
        related left (step right label)
  shown :
    ∀ {left right label},
      allowed label → visible label = true → related left right →
        related (step left label) (step right label)

namespace Unwinding

variable {visible : L → Bool} {allowed : L → Prop} {related : S → S → Prop}

/-- A run of hidden steps on the right. -/
theorem run_hiddenRight (unwinding : Unwinding step visible allowed related)
    {left right : S} {schedule : List L}
    (admitted : ∀ label ∈ schedule, allowed label)
    (hidden : ∀ label ∈ schedule, visible label = false)
    (holds : related left right) :
    related left (run step right schedule) := by
  induction schedule generalizing right with
  | nil =>
      exact holds
  | cons label rest inductionHypothesis =>
      apply inductionHypothesis
      · exact fun later member => admitted later (List.mem_cons_of_mem _ member)
      · exact fun later member => hidden later (List.mem_cons_of_mem _ member)
      · exact
          unwinding.hiddenRight (admitted label List.mem_cons_self)
            (hidden label List.mem_cons_self) holds

/-- The two-run theorem. -/
theorem run_related (unwinding : Unwinding step visible allowed related)
    {left right : S} {leftSchedule rightSchedule : List L}
    (leftAdmitted : ∀ label ∈ leftSchedule, allowed label)
    (rightAdmitted : ∀ label ∈ rightSchedule, allowed label)
    (sameVisible : leftSchedule.filter visible = rightSchedule.filter visible)
    (holds : related left right) :
    related (run step left leftSchedule) (run step right rightSchedule) := by
  induction leftSchedule generalizing left right rightSchedule with
  | nil =>
      apply unwinding.run_hiddenRight rightAdmitted _ holds
      intro label member
      have none := List.filter_eq_nil_iff.mp sameVisible.symm label member
      simpa using none
  | cons label rest inductionHypothesis =>
      have labelAllowed := leftAdmitted label List.mem_cons_self
      have restAdmitted : ∀ later ∈ rest, allowed later :=
        fun later member => leftAdmitted later (List.mem_cons_of_mem _ member)
      cases seen : visible label with
      | false =>
          rw [List.filter_cons_of_neg (by simp [seen])] at sameVisible
          exact
            inductionHypothesis restAdmitted rightAdmitted sameVisible
              (unwinding.hiddenLeft labelAllowed seen holds)
      | true =>
          rw [List.filter_cons_of_pos seen] at sameVisible
          -- The right schedule reaches the same label after hidden steps only.
          obtain ⟨before, after, rfl, hidden, _, sameRest⟩ :=
            List.filter_eq_cons_iff.mp sameVisible.symm
          rw [run_append]
          apply inductionHypothesis restAdmitted _ sameRest.symm
          · apply unwinding.shown labelAllowed seen
            apply unwinding.run_hiddenRight _ _ holds
            · exact fun later member =>
                rightAdmitted later (List.mem_append_left _ member)
            · exact fun later member => by simpa using hidden later member
          · exact fun later member =>
              rightAdmitted later
                (List.mem_append_right _ (List.mem_cons_of_mem _ member))

end Unwinding

end LabelledRun
