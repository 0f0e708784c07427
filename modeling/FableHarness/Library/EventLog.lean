import FableHarness.Library.ExceptionState

/-!
# Programs that append to a log

A specification of a program by what it answers and by what it appends to a log
kept in its state, whichever way it ends, with one rule for each way of
building programs.
-/

namespace EventLog

open ExceptionState

variable {ε σ E α β : Type} (log : σ → List E)

/-! ## From one state -/

/-- Started in the state `before`, the program appends events to the log; its
answer, these events and the state it leaves satisfy `post`. -/
def Ends (program : EStateM ε σ α) (before : σ)
    (post : Except ε α → List E → σ → Prop) : Prop :=
  ∃ events,
    log (finalState (program.run before)) = log before ++ events ∧
      post (answer (program.run before)) events (finalState (program.run before))

variable {log}

section Ends

variable {before : σ} {post : Except ε α → List E → σ → Prop}

theorem Ends.mono {program : EStateM ε σ α}
    {weaker : Except ε α → List E → σ → Prop}
    (ends : Ends log program before post)
    (implies :
      ∀ outcome events after, post outcome events after →
        weaker outcome events after) :
    Ends log program before weaker := by
  obtain ⟨events, appended, holds⟩ := ends
  exact ⟨events, appended, implies _ _ _ holds⟩

/-- What is known of the outcome may be used with it. -/
theorem Ends.with_answer {program : EStateM ε σ α}
    (ends : Ends log program before post) :
    Ends log program before fun outcome events after =>
      post outcome events after ∧ outcome = answer (program.run before) := by
  obtain ⟨events, appended, holds⟩ := ends
  exact ⟨events, appended, holds, rfl⟩

theorem ends_of_ok {program : EStateM ε σ α} {value : α} {events : List E}
    {after : σ} (run : program.run before = .ok value after)
    (appended : log after = log before ++ events)
    (holds : post (.ok value) events after) :
    Ends log program before post := by
  refine ⟨events, ?_, ?_⟩
  · rw [run]
    exact appended
  · rw [run]
    exact holds

theorem ends_of_error {program : EStateM ε σ α} {exc : ε} {events : List E}
    {after : σ} (run : program.run before = .error exc after)
    (appended : log after = log before ++ events)
    (holds : post (.error exc) events after) :
    Ends log program before post := by
  refine ⟨events, ?_, ?_⟩
  · rw [run]
    exact appended
  · rw [run]
    exact holds

/-- A program that leaves the log alone, described by its own run. -/
theorem ends_of_silent {program : EStateM ε σ α}
    (silent : log (finalState (program.run before)) = log before) :
    Ends log program before fun outcome events after =>
      events = [] ∧ outcome = answer (program.run before) ∧
        after = finalState (program.run before) :=
  ⟨[], by rw [silent, List.append_nil], rfl, rfl, rfl⟩

theorem ends_pure {value : α} (holds : post (.ok value) [] before) :
    Ends log (pure value : EStateM ε σ α) before post :=
  ⟨[], (List.append_nil _).symm, holds⟩

theorem ends_throw {exc : ε} (holds : post (.error exc) [] before) :
    Ends log (throw exc : EStateM ε σ α) before post :=
  ⟨[], (List.append_nil _).symm, holds⟩

theorem ends_bind {first : EStateM ε σ β} {next : β → EStateM ε σ α}
    {middle : Except ε β → List E → σ → Prop}
    (firstEnds : Ends log first before middle)
    (raised :
      ∀ exc events after, middle (.error exc) events after →
        post (.error exc) events after)
    (continued :
      ∀ value events after, middle (.ok value) events after →
        Ends log (next value) after fun outcome later final =>
          post outcome (events ++ later) final) :
    Ends log (first >>= next) before post := by
  obtain ⟨events, appended, holds⟩ := firstEnds
  unfold Ends
  rw [EStateM.run_bind]
  cases run : first.run before with
  | error exc after =>
      rw [run] at appended holds
      exact ⟨events, appended, raised exc events after holds⟩
  | ok value after =>
      rw [run] at appended holds
      obtain ⟨later, grown, rest⟩ := continued value events after holds
      refine ⟨events ++ later, ?_, rest⟩
      have reached : log after = log before ++ events := appended
      rw [grown, reached, List.append_assoc]

/-- A bind whose first program is known to return. -/
theorem ends_bind_of_ok {first : EStateM ε σ β} {next : β → EStateM ε σ α}
    {value : β} {events : List E} {middle : σ}
    (run : first.run before = .ok value middle)
    (appended : log middle = log before ++ events)
    (nextEnds :
      Ends log (next value) middle fun outcome later final =>
        post outcome (events ++ later) final) :
    Ends log (first >>= next) before post := by
  obtain ⟨later, grown, holds⟩ := nextEnds
  refine ⟨events ++ later, ?_, ?_⟩
  · rw [EStateM.run_bind, run]
    change log (finalState ((next value).run middle)) = _
    rw [grown, appended, List.append_assoc]
  · rw [EStateM.run_bind, run]
    exact holds

/-- A bind whose first program is known to raise. -/
theorem ends_bind_of_error {first : EStateM ε σ β} {next : β → EStateM ε σ α}
    {exc : ε} {events : List E} {middle : σ}
    (run : first.run before = .error exc middle)
    (appended : log middle = log before ++ events)
    (holds : post (.error exc) events middle) :
    Ends log (first >>= next) before post := by
  refine ends_of_error ?_ appended holds
  rw [EStateM.run_bind, run]

theorem ends_tryCatch {body : EStateM ε σ α} {handler : ε → EStateM ε σ α}
    {middle : Except ε α → List E → σ → Prop}
    (bodyEnds : Ends log body before middle)
    (returned :
      ∀ value events after, middle (.ok value) events after →
        post (.ok value) events after)
    (handled :
      ∀ exc events after, middle (.error exc) events after →
        Ends log (handler exc) after fun outcome later final =>
          post outcome (events ++ later) final) :
    Ends log (tryCatch body handler) before post := by
  obtain ⟨events, appended, holds⟩ := bodyEnds
  unfold Ends
  rw [run_tryCatch]
  cases run : body.run before with
  | ok value after =>
      rw [run] at appended holds
      exact ⟨events, appended, returned value events after holds⟩
  | error exc after =>
      rw [run] at appended holds
      obtain ⟨later, grown, rest⟩ := handled exc events after holds
      have reached : log after = log before ++ events := appended
      refine ⟨events ++ later, ?_, rest⟩
      change log (finalState ((handler exc).run after)) = _
      rw [grown, reached, List.append_assoc]

end Ends

/-! ## From every state -/

variable (log) in
/-- From every state, the program appends events to the log, and its answer and
these events satisfy the specification. -/
def Emits (program : EStateM ε σ α) (spec : Except ε α → List E → Prop) : Prop :=
  ∀ before, Ends log program before fun outcome events _ => spec outcome events

/-- A program that leaves the log alone. -/
theorem emits_of_silent {program : EStateM ε σ α}
    {spec : Except ε α → List E → Prop}
    (silent : ∀ state, log (finalState (program.run state)) = log state)
    (holds : ∀ state, spec (answer (program.run state)) []) :
    Emits log program spec := by
  intro before
  refine (ends_of_silent (silent before)).mono ?_
  intro outcome events after ⟨none_, same, _⟩
  rw [none_, same]
  exact holds before

theorem emits_pure {spec : Except ε α → List E → Prop} {value : α}
    (holds : spec (.ok value) []) :
    Emits log (pure value : EStateM ε σ α) spec :=
  fun _ => ends_pure holds

/-! ## Programs that return -/

variable (log) in
/-- Whenever the program returns, the states before and after, its value and the
events it appended satisfy the specification. -/
def Returns (program : EStateM ε σ α) (spec : σ → α → List E → σ → Prop) : Prop :=
  ∀ before,
    Ends log program before fun outcome events after =>
      ∀ value, outcome = .ok value → spec before value events after

theorem returns_pure {spec : σ → α → List E → σ → Prop} {value : α}
    (holds : ∀ before, spec before value [] before) :
    Returns log (pure value : EStateM ε σ α) spec := by
  intro before
  apply ends_pure
  intro same equal
  cases equal
  exact holds before

theorem returns_of_silent {program : EStateM ε σ α}
    {spec : σ → α → List E → σ → Prop}
    (silent : ∀ before, log (finalState (program.run before)) = log before)
    (holds :
      ∀ before value after, program.run before = .ok value after →
        spec before value [] after) :
    Returns log program spec := by
  intro before
  refine (ends_of_silent (silent before)).mono ?_
  intro outcome events after ⟨noEvents, returned, final⟩ value equal
  rw [noEvents, final]
  cases run : program.run before with
  | ok other last =>
      rw [run] at returned
      cases equal.symm.trans returned
      exact holds before value last run
  | error exc last =>
      rw [run] at returned
      cases equal.symm.trans returned

theorem returns_get :
    Returns log (get : EStateM ε σ σ) fun before value events after =>
      value = before ∧ events = [] ∧ after = before := by
  apply returns_of_silent (fun _ => rfl)
  intro before value after equal
  cases equal
  exact ⟨rfl, rfl, rfl⟩

theorem returns_throw {spec : σ → α → List E → σ → Prop} (exc : ε) :
    Returns log (throw exc : EStateM ε σ α) spec := by
  intro before
  apply ends_throw
  intro value equal
  cases equal

theorem returns_bind {first : EStateM ε σ α} {next : α → EStateM ε σ β}
    {firstSpec : σ → α → List E → σ → Prop} {spec : σ → β → List E → σ → Prop}
    (firstReturns : Returns log first firstSpec)
    (nextReturns :
      ∀ value,
        Returns log (next value) fun middle result later after =>
          ∀ before events, firstSpec before value events middle →
            spec before result (events ++ later) after) :
    Returns log (first >>= next) spec := by
  intro before
  apply ends_bind (firstReturns before)
  · intro exc events after _ value equal
    cases equal
  · intro value events middle holds
    refine (nextReturns value middle).mono ?_
    intro outcome later after continues result equal
    exact continues result equal before events (holds value rfl)

/-- A handler that never returns adds nothing to what is known on return. -/
theorem returns_tryCatch {body : EStateM ε σ α} {handler : ε → EStateM ε σ α}
    {spec : σ → α → List E → σ → Prop} (bodyReturns : Returns log body spec)
    (handlerRaises :
      ∀ exc, Returns log (handler exc) fun _ _ _ _ => False) :
    Returns log (tryCatch body handler) spec := by
  intro before
  apply ends_tryCatch (bodyReturns before)
  · exact fun value events after holds => holds
  · intro exc events after _
    refine (handlerRaises exc after).mono ?_
    intro outcome later final raises value equal
    exact absurd (raises value equal) id

theorem Returns.mono {program : EStateM ε σ α}
    {spec weaker : σ → α → List E → σ → Prop}
    (returns : Returns log program spec)
    (implies :
      ∀ before value events after, spec before value events after →
        weaker before value events after) :
    Returns log program weaker := by
  intro before
  refine (returns before).mono ?_
  intro outcome events after holds value equal
  exact implies _ _ _ _ (holds value equal)

/-! ## Confinement -/

/-- A relation between two states and the events in between that composes. -/
class Composes (spec : σ → List E → σ → Prop) : Prop where
  nil : ∀ state, spec state [] state
  append :
    ∀ {before middle after earlier later},
      spec before earlier middle → spec middle later after →
        spec before (earlier ++ later) after

/-- Only `safe` events were appended. -/
def Only (safe : E → Prop) (_ : σ) (events : List E) (_ : σ) : Prop :=
  ∀ event ∈ events, safe event

instance (safe : E → Prop) : Composes (Only safe : σ → List E → σ → Prop) where
  nil _ := by simp [Only]
  append earlierSafe laterSafe := by
    intro event member
    rcases List.mem_append.mp member with early | late
    · exact earlierSafe event early
    · exact laterSafe event late

variable (log) in
/-- However the program ends, the states before and after and the events it
appended are related, and what it raises is benign. -/
def Confined (spec : σ → List E → σ → Prop) (benign : ε → Prop)
    (program : EStateM ε σ α) : Prop :=
  ∀ before,
    Ends log program before fun outcome events after =>
      spec before events after ∧ ∀ exc, outcome = .error exc → benign exc

section Confined

variable {spec : σ → List E → σ → Prop} {benign : ε → Prop}

theorem Confined.returns {program : EStateM ε σ α}
    (confined : Confined log spec benign program) :
    Returns log program fun before _ events after => spec before events after := by
  intro before
  refine (confined before).mono ?_
  exact fun _ _ _ holds _ _ => holds.1

theorem Confined.mono {coarser : σ → List E → σ → Prop} {tolerated : ε → Prop}
    {program : EStateM ε σ α} (confined : Confined log spec benign program)
    (implies : ∀ before events after, spec before events after →
      coarser before events after)
    (tolerates : ∀ exc, benign exc → tolerated exc) :
    Confined log coarser tolerated program := by
  intro before
  refine (confined before).mono ?_
  exact fun _ events after holds =>
    ⟨implies before events after holds.1,
      fun exc equal => tolerates exc (holds.2 exc equal)⟩

/-- What is known of a confined program that returned. -/
theorem Confined.of_ok {program : EStateM ε σ α} {before after : σ} {value : α}
    (confined : Confined log spec benign program)
    (run : program.run before = .ok value after) :
    ∃ events, log after = log before ++ events ∧ spec before events after := by
  obtain ⟨events, appended, kept, _⟩ := confined before
  rw [run] at appended kept
  exact ⟨events, appended, kept⟩

theorem confined_of_silent {program : EStateM ε σ α}
    (silent : ∀ state, log (finalState (program.run state)) = log state)
    (keeps : ∀ state, spec state [] (finalState (program.run state)))
    (raises :
      ∀ state exc, answer (program.run state) = .error exc → benign exc) :
    Confined log spec benign program := by
  intro before
  refine (ends_of_silent (silent before)).mono ?_
  intro outcome events after ⟨noEvents, returned, final⟩
  rw [noEvents, returned, final]
  exact ⟨keeps before, raises before⟩

variable [Composes spec]

theorem confined_pure (value : α) :
    Confined log spec benign (pure value : EStateM ε σ α) :=
  confined_of_silent (fun _ => rfl) Composes.nil fun _ _ equal => by cases equal

theorem confined_get : Confined log spec benign (get : EStateM ε σ σ) :=
  confined_of_silent (fun _ => rfl) Composes.nil fun _ _ equal => by cases equal

theorem confined_throw {exc : ε} (allowed : benign exc) :
    Confined log spec benign (throw exc : EStateM ε σ α) := by
  apply confined_of_silent (fun _ => rfl) Composes.nil
  intro _ other equal
  cases equal
  exact allowed

theorem confined_bind {first : EStateM ε σ α} {next : α → EStateM ε σ β}
    (firstConfined : Confined log spec benign first)
    (nextConfined : ∀ value, Confined log spec benign (next value)) :
    Confined log spec benign (first >>= next) := by
  intro before
  apply ends_bind (firstConfined before)
  · intro exc events after confined
    refine ⟨confined.1, ?_⟩
    intro other equal
    cases equal
    exact confined.2 exc rfl
  · intro value events middle confined
    refine (nextConfined value middle).mono ?_
    intro outcome later after rest
    exact ⟨Composes.append confined.1 rest.1, rest.2⟩

theorem confined_tryCatch {body : EStateM ε σ α} {handler : ε → EStateM ε σ α}
    {bodyBenign : ε → Prop} (bodyConfined : Confined log spec bodyBenign body)
    (handlerConfined :
      ∀ exc, Confined log spec (fun raised => bodyBenign exc → benign raised)
        (handler exc)) :
    Confined log spec benign (tryCatch body handler) := by
  intro before
  apply ends_tryCatch (bodyConfined before)
  · intro value events after confined
    exact ⟨confined.1, fun _ equal => by cases equal⟩
  · intro exc events middle confined
    refine (handlerConfined exc middle).mono ?_
    intro outcome later after rest
    refine ⟨Composes.append confined.1 rest.1, ?_⟩
    exact fun raised equal => rest.2 raised equal (confined.2 exc rfl)

/-- What an attempt hands over as a value is still benign. -/
theorem confined_attempt_bind {program : EStateM ε σ α}
    {next : Except ε α → EStateM ε σ β}
    (confined : Confined log spec benign program)
    (nextConfined :
      ∀ outcome, (∀ exc, outcome = .error exc → benign exc) →
        Confined log spec benign (next outcome)) :
    Confined log spec benign (attempt program >>= next) := by
  intro before
  obtain ⟨events, appended, kept, outcomeBenign⟩ := confined before
  refine ends_bind_of_ok (run_attempt program before) appended ?_
  refine (nextConfined _ outcomeBenign _).mono ?_
  intro outcome later after rest
  exact ⟨Composes.append kept rest.1, rest.2⟩

theorem confined_mapM {program : α → EStateM ε σ β}
    (confined : ∀ value, Confined log spec benign (program value)) :
    ∀ values : List α, Confined log spec benign (values.mapM program)
  | [] => by
      rw [List.mapM_nil]
      exact confined_pure []
  | value :: rest => by
      rw [List.mapM_cons]
      apply confined_bind (confined value)
      intro first
      apply confined_bind (confined_mapM confined rest)
      exact fun others => confined_pure (first :: others)

/-- A program that appends `safe` events only, in front of one that is specified
by its answer. -/
theorem emits_confined_bind {safe : E → Prop} {first : EStateM ε σ α}
    {next : α → EStateM ε σ β} {allowed : Except ε β → Prop}
    (firstConfined : Confined log (Only safe) benign first)
    (raises : ∀ exc, benign exc → allowed (.error exc))
    (nextEmits :
      ∀ value, Emits log (next value) fun outcome events =>
        (∀ event ∈ events, safe event) ∧ allowed outcome) :
    Emits log (first >>= next) fun outcome events =>
      (∀ event ∈ events, safe event) ∧ allowed outcome := by
  intro before
  apply ends_bind (firstConfined before)
  · exact fun exc events after confined =>
      ⟨confined.1, raises exc (confined.2 exc rfl)⟩
  · intro value events middle confined
    refine (nextEmits value middle).mono ?_
    intro outcome later after rest
    refine ⟨?_, rest.2⟩
    intro event member
    rcases List.mem_append.mp member with early | late
    · exact confined.1 event early
    · exact rest.1 event late

end Confined

end EventLog
