import Mathlib.Data.List.Basic

/-!
# Runs of a labelled step function

A machine is a total step function on states and labels; a schedule is a list
of labels, so quantifying over schedules is quantifying over every order in
which the steps can be taken.  The rules below turn what one step preserves
into what a whole run preserves.
-/

namespace LabelledRun

universe u v w

variable {S : Type u} {L : Type v}

/-- The state reached from `state` by taking the steps of `schedule` in order. -/
def run (step : S → L → S) (state : S) (schedule : List L) : S :=
  schedule.foldl step state

variable (step : S → L → S)

@[simp]
theorem run_nil (state : S) : run step state [] = state :=
  rfl

@[simp]
theorem run_cons (state : S) (label : L) (rest : List L) :
    run step state (label :: rest) = run step (step state label) rest :=
  rfl

theorem run_append (state : S) (initial rest : List L) :
    run step state (initial ++ rest) =
      run step (run step state initial) rest :=
  List.foldl_append

theorem run_concat (state : S) (initial : List L) (label : L) :
    run step state (initial ++ [label]) =
      step (run step state initial) label := by
  simp [run_append]

/-! ## Invariants -/

/-- What every step preserves holds wherever a run ends. -/
theorem run_invariant {invariant : S → Prop}
    (stepKeeps : ∀ state label, invariant state → invariant (step state label))
    {state : S} (holds : invariant state) (schedule : List L) :
    invariant (run step state schedule) := by
  induction schedule generalizing state with
  | nil =>
      exact holds
  | cons label rest inductionHypothesis =>
      exact inductionHypothesis (stepKeeps state label holds)

/-- Every step of the run is taken in a state that permits it. -/
def Permitted (permits : S → L → Prop) (state : S) (schedule : List L) : Prop :=
  ∀ initial label rest,
    schedule = initial ++ label :: rest →
      permits (run step state initial) label

variable {step}

theorem permitted_cons_iff {permits : S → L → Prop}
    {state : S} {label : L} {rest : List L} :
    Permitted step permits state (label :: rest) ↔
      permits state label ∧ Permitted step permits (step state label) rest := by
  constructor
  · intro permitted
    refine ⟨permitted [] label rest rfl, ?_⟩
    intro initial later suffix equality
    exact permitted (label :: initial) later suffix (by rw [equality]; rfl)
  · rintro ⟨first, later⟩ initial taken suffix equality
    cases initial with
    | nil =>
        cases equality
        exact first
    | cons head initial =>
        cases equality
        exact later initial taken suffix rfl

theorem permitted_append_left {permits : S → L → Prop}
    {state : S} {initial rest : List L}
    (permitted : Permitted step permits state (initial ++ rest)) :
    Permitted step permits state initial := by
  intro before label after equality
  apply permitted before label (after ++ rest)
  rw [equality, List.append_assoc, List.cons_append]

theorem permitted_append_right {permits : S → L → Prop}
    {state : S} {initial rest : List L}
    (permitted : Permitted step permits state (initial ++ rest)) :
    Permitted step permits (run step state initial) rest := by
  intro before label after equality
  rw [← run_append]
  apply permitted (initial ++ before) label after
  rw [equality, List.append_assoc]

theorem permitted_nil (permits : S → L → Prop) (state : S) :
    Permitted step permits state [] := by
  intro initial label rest equality
  cases initial <;> cases equality

theorem permitted_of_forall {permits : S → L → Prop} {schedule : List L}
    (each : ∀ label ∈ schedule, ∀ state, permits state label) (state : S) :
    Permitted step permits state schedule := by
  intro initial label rest equality
  exact each label (by simp [equality]) _

instance decidablePermitted {permits : S → L → Prop}
    [∀ state label, Decidable (permits state label)] :
    ∀ (state : S) (schedule : List L),
      Decidable (Permitted step permits state schedule)
  | state, [] => isTrue (permitted_nil permits state)
  | state, label :: rest =>
      let _ : Decidable (Permitted step permits (step state label) rest) :=
        decidablePermitted (step state label) rest
      decidable_of_iff
        (permits state label ∧ Permitted step permits (step state label) rest)
        permitted_cons_iff.symm

theorem permitted_concat_iff {permits : S → L → Prop}
    {state : S} {initial : List L} {label : L} :
    Permitted step permits state (initial ++ [label]) ↔
      Permitted step permits state initial ∧
        permits (run step state initial) label := by
  constructor
  · intro permitted
    exact
      ⟨permitted_append_left permitted, permitted initial label [] rfl⟩
  · rintro ⟨earlier, last⟩ before taken after equality
    rcases List.eq_nil_or_concat' after with rfl | ⟨middle, final, rfl⟩
    · obtain ⟨rfl, single⟩ := List.append_inj' equality rfl
      cases single
      exact last
    · rw [← List.cons_append, ← List.append_assoc] at equality
      obtain ⟨rfl, _⟩ := List.append_inj' equality rfl
      exact earlier before taken middle rfl

/-- The invariant rule for runs whose steps are all permitted. -/
theorem run_invariant_of_permitted
    {permits : S → L → Prop} {invariant : S → Prop}
    (stepKeeps :
      ∀ state label,
        permits state label → invariant state →
          invariant (step state label))
    {state : S} {schedule : List L}
    (permitted : Permitted step permits state schedule)
    (holds : invariant state) :
    invariant (run step state schedule) := by
  induction schedule generalizing state with
  | nil =>
      exact holds
  | cons label rest inductionHypothesis =>
      obtain ⟨first, later⟩ := permitted_cons_iff.mp permitted
      exact inductionHypothesis later (stepKeeps state label first holds)

/-- A relation that every step respects relates a state to every later one. -/
theorem run_related {order : S → S → Prop} [Std.Refl order] [IsTrans S order]
    (stepRelates : ∀ state label, order state (step state label))
    (state : S) (schedule : List L) :
    order state (run step state schedule) := by
  induction schedule generalizing state with
  | nil =>
      exact Std.Refl.refl state
  | cons label rest inductionHypothesis =>
      exact
        IsTrans.trans _ _ _ (stepRelates state label)
          (inductionHypothesis (step state label))

end LabelledRun
