import FableHarness.Library.ExceptionState

/-!
# Programs in lockstep

Two programs over different states are in lockstep if from related states they
return agreeing values or raise the same exception, and stop in related states.
One rule for each way of building programs.
-/

namespace ExceptionState

variable {ε ε' σ σ' τ τ' α α' β β' : Type}

/-- The runs ended alike. -/
inductive Alike (related : σ → τ → Prop) (agree : α → β → Prop) :
    EStateM.Result ε σ α → EStateM.Result ε τ β → Prop
  | ok {value : α} {other : β} {state : σ} {shadow : τ} (values : agree value other)
      (states : related state shadow) :
      Alike related agree (.ok value state) (.ok other shadow)
  | error {exc : ε} {state : σ} {shadow : τ} (states : related state shadow) :
      Alike related agree (.error exc state) (.error exc shadow)

def Lockstep (related : σ → τ → Prop) (agree : α → β → Prop)
    (program : EStateM ε σ α) (other : EStateM ε τ β) : Prop :=
  ∀ state shadow, related state shadow →
    Alike related agree (program.run state) (other.run shadow)

section Ends

variable {related : σ → τ → Prop} {result : EStateM.Result ε σ α}

theorem Alike.answer_eq {shadow : EStateM.Result ε τ α}
    (alike : Alike related Eq result shadow) : answer shadow = answer result := by
  cases alike with
  | ok values states => exact congrArg Except.ok values.symm
  | error states => rfl

theorem alike_resultOf {outcome : Except ε α} {state : σ} {shadow : τ}
    (states : related state shadow) :
    Alike related Eq (resultOf outcome state) (resultOf outcome shadow) := by
  cases outcome with
  | ok value => exact .ok rfl states
  | error exc => exact .error states

theorem Alike.states {agree : α → β → Prop} {shadow : EStateM.Result ε τ β}
    (alike : Alike related agree result shadow) :
    related (finalState result) (finalState shadow) := by
  cases alike with
  | ok values states => exact states
  | error states => exact states

end Ends

section Rules

variable {related : σ → τ → Prop} {agree : α → β → Prop} {later : α' → β' → Prop}

theorem lockstep_pure {value : α} {other : β} (values : agree value other) :
    Lockstep related agree (pure value : EStateM ε σ α) (pure other) :=
  fun _ _ states => .ok values states

theorem lockstep_throw (exc : ε) :
    Lockstep related agree (throw exc : EStateM ε σ α) (throw exc) :=
  fun _ _ states => .error states

theorem lockstep_get :
    Lockstep related related (get : EStateM ε σ σ) (get : EStateM ε τ τ) :=
  fun _ _ states => .ok states states

theorem lockstep_modifyGet {step : σ → α × σ} {other : τ → β × τ}
    (steps :
      ∀ state shadow, related state shadow →
        agree (step state).1 (other shadow).1 ∧
          related (step state).2 (other shadow).2) :
    Lockstep related agree (modifyGet step : EStateM ε σ α) (modifyGet other) := by
  intro state shadow states
  obtain ⟨values, after⟩ := steps state shadow states
  exact .ok values after

theorem lockstep_bind {first : EStateM ε σ α} {second : EStateM ε τ β}
    {next : α → EStateM ε σ α'} {other : β → EStateM ε τ β'}
    (firsts : Lockstep related agree first second)
    (nexts :
      ∀ value shown, agree value shown →
        Lockstep related later (next value) (other shown)) :
    Lockstep related later (first >>= next) (second >>= other) := by
  intro state shadow states
  have alike := firsts state shadow states
  rw [EStateM.run_bind, EStateM.run_bind]
  generalize first.run state = ran at alike ⊢
  generalize second.run shadow = ranOther at alike ⊢
  cases alike with
  | ok values afters => exact nexts _ _ values _ _ afters
  | error afters => exact .error afters

/-- Programs that agree on equal values, followed by programs that depend on them. -/
theorem lockstep_seq {first : EStateM ε σ α} {second : EStateM ε τ α}
    {next : α → EStateM ε σ α'} {other : α → EStateM ε τ β'}
    (firsts : Lockstep related Eq first second)
    (nexts : ∀ value, Lockstep related later (next value) (other value)) :
    Lockstep related later (first >>= next) (second >>= other) := by
  apply lockstep_bind firsts
  rintro value _ rfl
  exact nexts value

theorem lockstep_tryCatch {body : EStateM ε σ α} {other : EStateM ε τ β}
    {handler : ε → EStateM ε σ α} {otherHandler : ε → EStateM ε τ β}
    (bodies : Lockstep related agree body other)
    (handlers : ∀ exc, Lockstep related agree (handler exc) (otherHandler exc)) :
    Lockstep related agree (tryCatch body handler) (tryCatch other otherHandler) := by
  intro state shadow states
  have alike := bodies state shadow states
  rw [run_tryCatch, run_tryCatch]
  generalize body.run state = ran at alike ⊢
  generalize other.run shadow = ranOther at alike ⊢
  cases alike with
  | ok values afters => exact .ok values afters
  | error afters => exact handlers _ _ _ afters

theorem lockstep_attempt {program : EStateM ε σ α} {other : EStateM ε τ α}
    (programs : Lockstep related Eq program other) :
    Lockstep related Eq (attempt program : EStateM ε' σ (Except ε α))
      (attempt other) := by
  intro state shadow states
  have alike := programs state shadow states
  rw [run_attempt, run_attempt, alike.answer_eq]
  exact .ok rfl alike.states

/-- Programs on components of the states. -/
theorem lockstep_focus {parts : σ' → τ' → Prop} {program : EStateM ε σ' α}
    {other : EStateM ε τ' β} {get : σ → σ'} {put : σ' → σ → σ} {getOther : τ → τ'}
    {putOther : τ' → τ → τ} (wrap : ε → ε')
    (programs : Lockstep parts agree program other)
    (reads : ∀ state shadow, related state shadow → parts (get state) (getOther shadow))
    (writes :
      ∀ state shadow, related state shadow → ∀ part otherPart, parts part otherPart →
        related (put part state) (putOther otherPart shadow)) :
    Lockstep related agree (focus get put wrap program)
      (focus getOther putOther wrap other) := by
  intro state shadow states
  have alike := programs _ _ (reads state shadow states)
  rw [run_focus, run_focus]
  generalize program.run (get state) = ran at alike ⊢
  generalize other.run (getOther shadow) = ranOther at alike ⊢
  cases alike with
  | ok values afters => exact .ok values (writes state shadow states _ _ afters)
  | error afters => exact .error (writes state shadow states _ _ afters)

theorem lockstep_mapM {program : α' → EStateM ε σ α} {other : α' → EStateM ε τ α}
    (programs : ∀ value, Lockstep related Eq (program value) (other value)) :
    ∀ values : List α',
      Lockstep related Eq (values.mapM program) (values.mapM other)
  | [] => by
      rw [List.mapM_nil, List.mapM_nil]
      exact lockstep_pure rfl
  | value :: rest => by
      rw [List.mapM_cons, List.mapM_cons]
      apply lockstep_bind (programs value)
      rintro first _ rfl
      apply lockstep_bind (lockstep_mapM programs rest)
      rintro others _ rfl
      exact lockstep_pure rfl

end Rules

/-- A program is in lockstep with itself. -/
theorem lockstep_self (program : EStateM ε σ α) :
    Lockstep Eq Eq program program := by
  rintro state _ rfl
  cases program.run state with
  | ok value after => exact .ok rfl rfl
  | error exc after => exact .error rfl

end ExceptionState
