import FableHarness.Library.ExceptionState

/-!
# Programs indifferent to a change of state

A program is indifferent to a change if running it after the change is running
it before and changing the state it leaves: it neither reads nor writes what the
change touches.  One rule for each way of building programs.
-/

namespace ExceptionState

variable {ε ε' σ τ α β : Type}

/-- Change the state in which a run stopped. -/
def mapState (change : σ → σ) : EStateM.Result ε σ α → EStateM.Result ε σ α
  | .ok value state => .ok value (change state)
  | .error exc state => .error exc (change state)

@[simp]
theorem answer_mapState (change : σ → σ) (result : EStateM.Result ε σ α) :
    answer (mapState change result) = answer result := by
  cases result <;> rfl

@[simp]
theorem finalState_mapState (change : σ → σ) (result : EStateM.Result ε σ α) :
    finalState (mapState change result) = change (finalState result) := by
  cases result <;> rfl

def Indifferent (change : σ → σ) (program : EStateM ε σ α) : Prop :=
  ∀ state, program.run (change state) = mapState change (program.run state)

section

variable {change : σ → σ}

/-- The answer does not depend on what is changed. -/
theorem Indifferent.answer_eq {program : EStateM ε σ α}
    (indifferent : Indifferent change program) (state : σ) :
    answer (program.run (change state)) = answer (program.run state) := by
  rw [indifferent state, answer_mapState]

/-- What is already as the change makes it stays so. -/
theorem Indifferent.finalState_eq {program : EStateM ε σ α}
    (indifferent : Indifferent change program) {state : σ}
    (unchanged : change state = state) :
    finalState (program.run state) = change (finalState (program.run state)) := by
  have same := indifferent state
  rw [unchanged] at same
  calc
    finalState (program.run state)
        = finalState (mapState change (program.run state)) :=
          congrArg finalState same
    _ = change (finalState (program.run state)) := finalState_mapState _ _

theorem indifferent_pure (value : α) :
    Indifferent change (pure value : EStateM ε σ α) :=
  fun _ => rfl

theorem indifferent_throw (exc : ε) :
    Indifferent change (throw exc : EStateM ε σ α) :=
  fun _ => rfl

theorem indifferent_modifyGet {step : σ → α × σ}
    (commutes : ∀ state, step (change state) =
      ((step state).1, change (step state).2)) :
    Indifferent change (modifyGet step : EStateM ε σ α) := by
  intro state
  have stepped :
      ∀ started, (modifyGet step : EStateM ε σ α).run started =
        .ok (step started).1 (step started).2 :=
    fun _ => rfl
  rw [stepped, stepped, commutes]
  rfl

theorem indifferent_bind {first : EStateM ε σ α} {next : α → EStateM ε σ β}
    (firstIndifferent : Indifferent change first)
    (nextIndifferent : ∀ value, Indifferent change (next value)) :
    Indifferent change (first >>= next) := by
  intro state
  rw [EStateM.run_bind, EStateM.run_bind, firstIndifferent state]
  cases first.run state with
  | ok value after => exact nextIndifferent value after
  | error exc after => rfl

/-- A program may look at the state if it does not look at what is changed. -/
theorem indifferent_get_bind {next : σ → EStateM ε σ β}
    (unread : ∀ state, next (change state) = next state)
    (nextIndifferent : ∀ state, Indifferent change (next state)) :
    Indifferent change ((get : EStateM ε σ σ) >>= next) := by
  intro state
  have looked :
      ∀ started,
        ((get : EStateM ε σ σ) >>= next).run started =
          (next started).run started :=
    fun _ => rfl
  rw [looked, looked, unread]
  exact nextIndifferent state state

theorem indifferent_tryCatch {body : EStateM ε σ α} {handler : ε → EStateM ε σ α}
    (bodyIndifferent : Indifferent change body)
    (handlerIndifferent : ∀ exc, Indifferent change (handler exc)) :
    Indifferent change (tryCatch body handler) := by
  intro state
  rw [run_tryCatch, run_tryCatch, bodyIndifferent state]
  cases body.run state with
  | ok value after => rfl
  | error exc after => exact handlerIndifferent exc after

theorem indifferent_attempt {program : EStateM ε σ α}
    (indifferent : Indifferent change program) :
    Indifferent change (attempt program : EStateM ε' σ (Except ε α)) := by
  intro state
  rw [run_attempt, run_attempt, indifferent state, answer_mapState,
    finalState_mapState]
  rfl

/-- A program on one component is indifferent to changes beside it. -/
theorem indifferent_focus {get : σ → τ} {put : τ → σ → σ} {wrap : ε → ε'}
    (program : EStateM ε τ α) (reads : ∀ state, get (change state) = get state)
    (writes :
      ∀ part state, put part (change state) = change (put part state)) :
    Indifferent change (focus get put wrap program) := by
  intro state
  rw [run_focus, run_focus, reads]
  cases program.run (get state) with
  | ok value part => simp only [mapState, writes]
  | error exc part => simp only [mapState, writes]

end

end ExceptionState
