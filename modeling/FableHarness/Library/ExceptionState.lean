/-!
# Programs with state and exceptions

`EStateM ε σ` is the shape of an imperative program: a state that survives an
exception.  This module adds the rules by which a run is taken apart, among them
the inversion of `bind`, and a lens that runs a program on one component of a
larger state.
-/

namespace ExceptionState

variable {ε ε' σ τ α β : Type}

/-- The state in which a run stopped. -/
def finalState : EStateM.Result ε σ α → σ
  | .ok _ state => state
  | .error _ state => state

/-- What the caller of a run receives. -/
def answer : EStateM.Result ε σ α → Except ε α
  | .ok value _ => .ok value
  | .error exc _ => .error exc

@[simp]
theorem finalState_ok (value : α) (state : σ) :
    finalState (.ok value state : EStateM.Result ε σ α) = state :=
  rfl

@[simp]
theorem finalState_error (exc : ε) (state : σ) :
    finalState (.error exc state : EStateM.Result ε σ α) = state :=
  rfl

@[simp]
theorem answer_ok (value : α) (state : σ) :
    answer (.ok value state : EStateM.Result ε σ α) = .ok value :=
  rfl

@[simp]
theorem answer_error (exc : ε) (state : σ) :
    answer (.error exc state : EStateM.Result ε σ α) = .error exc :=
  rfl

/-- The run that stopped in this state with this answer. -/
def resultOf (outcome : Except ε α) (state : σ) : EStateM.Result ε σ α :=
  match outcome with
  | .ok value => .ok value state
  | .error exc => .error exc state

@[simp]
theorem resultOf_ok (value : α) (state : σ) :
    resultOf (.ok value : Except ε α) state = .ok value state :=
  rfl

@[simp]
theorem resultOf_error (exc : ε) (state : σ) :
    resultOf (.error exc : Except ε α) state = .error exc state :=
  rfl

@[simp]
theorem answer_resultOf (outcome : Except ε α) (state : σ) :
    answer (resultOf outcome state) = outcome := by
  cases outcome <;> rfl

@[simp]
theorem finalState_resultOf (outcome : Except ε α) (state : σ) :
    finalState (resultOf outcome state) = state := by
  cases outcome <;> rfl

/-! ## Taking a run apart -/

@[simp]
theorem run_throw (exc : ε) (state : σ) :
    (throw exc : EStateM ε σ α).run state = .error exc state :=
  rfl

theorem run_ofExcept (outcome : Except ε α) (state : σ) :
    (MonadExcept.ofExcept outcome : EStateM ε σ α).run state =
      resultOf outcome state := by
  cases outcome <;> rfl

@[simp]
theorem run_tryCatch
    (body : EStateM ε σ α) (handler : ε → EStateM ε σ α) (state : σ) :
    (tryCatch body handler).run state =
      match body.run state with
      | .ok value after => .ok value after
      | .error exc after => (handler exc).run after := by
  change EStateM.tryCatch body handler state = _
  unfold EStateM.tryCatch EStateM.run
  cases body state <;> rfl

theorem run_map (change : α → β) (program : EStateM ε σ α) (state : σ) :
    (change <$> program).run state =
      match program.run state with
      | .ok value after => .ok (change value) after
      | .error exc after => .error exc after := by
  change EStateM.map change program state = _
  unfold EStateM.map EStateM.run
  cases program state <;> rfl

theorem run_bind_eq_ok
    {first : EStateM ε σ α} {next : α → EStateM ε σ β}
    {before after : σ} {value : β} :
    (first >>= next).run before = .ok value after ↔
      ∃ step middle,
        first.run before = .ok step middle ∧
          (next step).run middle = .ok value after := by
  rw [EStateM.run_bind]
  cases first.run before with
  | ok step middle =>
      constructor
      · intro rest
        exact ⟨step, middle, rfl, rest⟩
      · rintro ⟨_, _, equal, rest⟩
        cases equal
        exact rest
  | error exc middle =>
      simp

/-- A continuation matters only for the values that the program returns. -/
theorem bind_congr_of_ok {first : EStateM ε σ α} {next other : α → EStateM ε σ β}
    (agree :
      ∀ before value after, first.run before = .ok value after →
        next value = other value) :
    (first >>= next) = first >>= other := by
  funext before
  show (first >>= next).run before = (first >>= other).run before
  rw [EStateM.run_bind, EStateM.run_bind]
  cases ran : first.run before with
  | ok value after => simp only [agree before value after ran]
  | error exc after => rfl

/-- What every element's program returns, the list of returned values has. -/
theorem forall_mem_of_mapM_eq_ok {program : α → EStateM ε σ β} {post : β → Prop}
    (each :
      ∀ element before value after,
        (program element).run before = .ok value after → post value)
    {elements : List α} {before after : σ} {values : List β}
    (ran : (elements.mapM program).run before = .ok values after) :
    ∀ value ∈ values, post value := by
  induction elements generalizing before values with
  | nil =>
      rw [List.mapM_nil] at ran
      cases ran
      simp
  | cons element rest inductionHypothesis =>
      rw [List.mapM_cons] at ran
      obtain ⟨value, middle, first, ran⟩ := run_bind_eq_ok.mp ran
      obtain ⟨later, final, others, ran⟩ := run_bind_eq_ok.mp ran
      cases ran
      rw [List.forall_mem_cons]
      exact ⟨each element before value middle first, inductionHypothesis others⟩

/-- Run a program and hand its exception over as a value. -/
def attempt (program : EStateM ε σ α) : EStateM ε' σ (Except ε α) :=
  fun state =>
    match program.run state with
    | .ok value after => .ok (.ok value) after
    | .error exc after => .ok (.error exc) after

theorem run_attempt (program : EStateM ε σ α) (state : σ) :
    (attempt program : EStateM ε' σ (Except ε α)).run state =
      .ok (answer (program.run state)) (finalState (program.run state)) := by
  change
    (match program.run state with
      | .ok value after => EStateM.Result.ok (Except.ok value) after
      | .error exc after => .ok (.error exc) after) = _
  cases program.run state <;> rfl

/-- Run a program on one component of a larger state. -/
def focus (get : σ → τ) (put : τ → σ → σ) (wrap : ε → ε')
    (program : EStateM ε τ α) : EStateM ε' σ α :=
  fun state =>
    match program.run (get state) with
    | .ok value part => .ok value (put part state)
    | .error exc part => .error (wrap exc) (put part state)

theorem run_focus (get : σ → τ) (put : τ → σ → σ) (wrap : ε → ε')
    (program : EStateM ε τ α) (state : σ) :
    (focus get put wrap program).run state =
      match program.run (get state) with
      | .ok value part => .ok value (put part state)
      | .error exc part => .error (wrap exc) (put part state) :=
  rfl

end ExceptionState
