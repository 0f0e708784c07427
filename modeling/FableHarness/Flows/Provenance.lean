import FableHarness.Core.RoutedTurn
import FableHarness.Flows.Confinement

/-!
# Where the memory in a prompt comes from

A flow recalls once, before it remembers anything, and shows its agents what it
recalled and nothing else.  So whatever a turn shows was in the memory when the
turn began, and whatever is in the memory afterwards was there before or was
remembered by the turn.
-/

namespace FableHarness

open ExceptionState EventLog

variable {σ μ α : Type}

/-! ## Reading a trace -/

/-- The memory contents that an event places in a prompt. -/
def Interaction.shows : Interaction → List String
  | .agentStarted _ _ memory => memory
  | _ => []

def Interaction.remembers : Interaction → List String
  | .remembered contents => contents
  | _ => []

def shownIn (trace : List Interaction) : List String :=
  trace.flatMap Interaction.shows

def rememberedIn (trace : List Interaction) : List String :=
  trace.flatMap Interaction.remembers

theorem shownIn_append (earlier later : List Interaction) :
    shownIn (earlier ++ later) = shownIn earlier ++ shownIn later :=
  List.flatMap_append

theorem rememberedIn_append (earlier later : List Interaction) :
    rememberedIn (earlier ++ later) = rememberedIn earlier ++ rememberedIn later :=
  List.flatMap_append

/-! ## What a memory holds -/

/-- The store returns what it holds, and holds only what it was told to
remember. -/
structure Retains (store : MemoryStore μ) (holds : μ → String → Prop) : Prop where
  recalled :
    ∀ {query scope k before items after},
      (store.recallItems query scope k).run before = .ok items after →
        ∀ item ∈ items, holds before item.content
  recalling :
    ∀ query scope k before content,
      holds (finalState ((store.recallItems query scope k).run before)) content →
        holds before content
  remembering :
    ∀ {items scope before after},
      (store.remember items scope).run before = .ok () after →
        ∀ content, holds after content →
          holds before content ∨ content ∈ items.map MemoryItem.content
  failing :
    ∀ {items scope before exc after},
      (store.remember items scope).run before = .error exc after →
        ∀ content, holds after content → holds before content

variable {holds : μ → String → Prop}

theorem retains_nullMemoryStore : Retains (nullMemoryStore μ) holds where
  recalled run := by
    cases run
    simp
  recalling _ _ _ _ _ held := held
  remembering run _ held := by
    cases run
    exact Or.inl held
  failing run := by cases run

/-! ## Beside the memory -/

/-- Nothing is shown or remembered, and the memory is as before. -/
structure BesideMemory (before : World σ μ) (events : List Interaction)
    (after : World σ μ) : Prop where
  shown : shownIn events = []
  remembered : rememberedIn events = []
  memory : after.memory = before.memory

instance : Composes (BesideMemory : World σ μ → _ → World σ μ → Prop) where
  nil _ := ⟨rfl, rfl, rfl⟩
  append first second := by
    constructor
    · rw [shownIn_append, first.shown, second.shown, List.append_nil]
    · rw [rememberedIn_append, first.remembered, second.remembered,
        List.append_nil]
    · exact second.memory.trans first.memory

/-- Events that neither show nor remember anything. -/
structure Interaction.Forgetful (event : Interaction) : Prop where
  shows : event.shows = []
  remembers : event.remembers = []

theorem allows_besideMemory :
    Allows (BesideMemory : World σ μ → _ → World σ μ → Prop) (fun _ => True)
      Interaction.Forgetful where
  working _ _ _ memory _ _ := ⟨rfl, rfl, memory⟩
  recording event forgetful _ := by
    refine ⟨?_, ?_, rfl⟩
    · simp [shownIn, forgetful.shows]
    · simp [rememberedIn, forgetful.remembers]
  outside _ := trivial

/-! ## With a recalled memory -/

/-- Only `visible` contents are shown, and what the memory holds afterwards it
held before or was told to remember. -/
structure Supplied (holds : μ → String → Prop) (visible : List String)
    (before : World σ μ) (events : List Interaction) (after : World σ μ) :
    Prop where
  shown : ∀ content ∈ shownIn events, content ∈ visible
  stored :
    ∀ content, holds after.memory content →
      holds before.memory content ∨ content ∈ rememberedIn events

instance (visible : List String) :
    Composes (Supplied holds visible : World σ μ → _ → World σ μ → Prop) where
  nil _ := ⟨by simp [shownIn], fun _ => Or.inl⟩
  append first second := by
    constructor
    · intro content member
      rw [shownIn_append, List.mem_append] at member
      rcases member with early | late
      · exact first.shown content early
      · exact second.shown content late
    · intro content held
      rw [rememberedIn_append, List.mem_append]
      rcases second.stored content held with between | late
      · rcases first.stored content between with before | early
        · exact Or.inl before
        · exact Or.inr (Or.inl early)
      · exact Or.inr (Or.inr late)

/-- Events that show `visible` contents only. -/
def Interaction.ShowsOnly (visible : List String) (event : Interaction) : Prop :=
  ∀ content ∈ event.shows, content ∈ visible

theorem showsOnly_of_silent {event : Interaction} (silent : event.shows = [])
    (visible : List String) : event.ShowsOnly visible := by
  simp [Interaction.ShowsOnly, silent]

theorem admitsRuns_showsOnly (visible : List String) (role : AgentRole) :
    Agent.AdmitsRuns (Interaction.ShowsOnly visible) role :=
  ⟨fun _ _ => showsOnly_of_silent rfl visible, showsOnly_of_silent rfl visible,
    fun _ => showsOnly_of_silent rfl visible⟩

theorem started_showsOnly (role : AgentRole) (prompt : String)
    (visible : List String) :
    (Interaction.agentStarted role prompt visible).ShowsOnly visible :=
  fun _ member => member

theorem allows_supplied (visible : List String) :
    Allows (Supplied holds visible : World σ μ → _ → World σ μ → Prop)
      (fun _ => True) (Interaction.ShowsOnly visible) where
  working _ _ _ memory _ _ := by
    refine ⟨by simp [shownIn], fun _ held => Or.inl ?_⟩
    rw [← memory]
    exact held
  recording event shows _ := by
    refine ⟨?_, fun _ => Or.inl⟩
    simpa [shownIn, Interaction.ShowsOnly] using shows
  outside _ := trivial

theorem allowsMemory_supplied {store : MemoryStore μ}
    (retains : Retains store holds) (visible : List String) :
    AllowsMemory (Supplied holds visible : World σ μ → _ → World σ μ → Prop)
      store where
  recalling query scope k world :=
    ⟨by simp [shownIn],
      fun content held =>
        Or.inl (retains.recalling query scope k world.memory content held)⟩
  remembering items scope world after run := by
    refine ⟨by simp [shownIn, Interaction.shows], fun content held => ?_⟩
    simpa [rememberedIn, Interaction.remembers] using
      retains.remembering run content held
  failing items scope world exc after run :=
    ⟨by simp [shownIn],
      fun content held => Or.inl (retains.failing run content held)⟩

/-! ## A whole flow -/

/-- What is shown was in the memory before, and what is in the memory afterwards
was there before or was remembered. -/
structure Sourced (holds : μ → String → Prop) (before : World σ μ)
    (events : List Interaction) (after : World σ μ) : Prop where
  shown : ∀ content ∈ shownIn events, holds before.memory content
  stored :
    ∀ content, holds after.memory content →
      holds before.memory content ∨ content ∈ rememberedIn events

namespace Sourced

theorem of_besideMemory {before after : World σ μ} {events : List Interaction}
    (beside : BesideMemory before events after) :
    Sourced holds before events after := by
  constructor
  · simp [beside.shown]
  · intro content held
    rw [beside.memory] at held
    exact Or.inl held

theorem after_besideMemory {before middle after : World σ μ}
    {earlier later : List Interaction}
    (beside : BesideMemory before earlier middle)
    (sourced : Sourced holds middle later after) :
    Sourced holds before (earlier ++ later) after := by
  constructor
  · intro content member
    rw [shownIn_append, beside.shown, List.nil_append] at member
    rw [← beside.memory]
    exact sourced.shown content member
  · intro content held
    rw [rememberedIn_append, beside.remembered, List.nil_append, ← beside.memory]
    exact sourced.stored content held

theorem before_besideMemory {before middle after : World σ μ}
    {earlier later : List Interaction}
    (sourced : Sourced holds before earlier middle)
    (beside : BesideMemory middle later after) :
    Sourced holds before (earlier ++ later) after := by
  constructor
  · intro content member
    rw [shownIn_append, beside.shown, List.append_nil] at member
    exact sourced.shown content member
  · intro content held
    rw [beside.memory] at held
    rw [rememberedIn_append, beside.remembered, List.append_nil]
    exact sourced.stored content held

theorem of_supplied {before middle after : World σ μ} {visible : List String}
    {events : List Interaction}
    (held : ∀ content ∈ visible, holds before.memory content)
    (kept : ∀ content, holds middle.memory content → holds before.memory content)
    (supplied : Supplied holds visible middle events after) :
    Sourced holds before events after := by
  constructor
  · exact fun content member => held content (supplied.shown content member)
  · intro content holdsAfter
    rcases supplied.stored content holdsAfter with between | remembered
    · exact Or.inl (kept content between)
    · exact Or.inr remembered

end Sourced

section Flows

variable (host : Host σ) {services : HarnessServices σ μ}
  (retains : Retains services.memory holds)
include retains

/-- A recall hands over what the memory holds. -/
theorem Turn.recallContext_ends (ctx : RunContext) (request : String)
    (before : World σ μ) :
    Ends World.trace (Turn.recallContext services ctx request) before
      fun outcome events after =>
        events = [] ∧
          (∀ content, holds after.memory content → holds before.memory content) ∧
          ∀ contents, outcome = .ok contents →
            ∀ content ∈ contents, holds before.memory content := by
  unfold Turn.recallContext
  split
  · have keeps := retains.recalling request ctx.userScope 5 before.memory
    have run :=
      Turn.run_inMemory (services.memory.recallItems request ctx.userScope 5) before
    cases recalled :
        (services.memory.recallItems request ctx.userScope 5).run before.memory with
    | error exc memory =>
        rw [recalled] at run keeps
        refine ends_bind_of_error run (List.append_nil _).symm ?_
        refine ⟨rfl, keeps, ?_⟩
        intro contents equal
        cases equal
    | ok items memory =>
        rw [recalled] at run keeps
        refine ends_bind_of_ok run (List.append_nil _).symm (ends_pure ?_)
        refine ⟨rfl, keeps, ?_⟩
        intro contents equal content member
        cases equal
        obtain ⟨item, present, same⟩ := List.mem_map.mp member
        rw [← same]
        exact retains.recalled recalled item present
  · apply ends_pure
    refine ⟨rfl, fun _ => id, ?_⟩
    intro contents equal
    cases equal
    simp

/-- What follows a recall is sourced if it shows the recalled contents only. -/
theorem sourced_bind_recallContext (ctx : RunContext) (request : String)
    {next : List String → Turn σ μ α}
    (nextSupplied :
      ∀ memory,
        Confined (Supplied holds memory) (fun _ => True) (next memory))
    (before : World σ μ) :
    Ends World.trace
      (do
        let memory ← Turn.recallContext services ctx request
        next memory) before
      fun _ events after => Sourced holds before events after := by
  apply ends_bind (Turn.recallContext_ends retains ctx request before)
  · intro exc events after ⟨silent, kept, _⟩
    rw [silent]
    exact ⟨by simp [shownIn], fun content held => Or.inl (kept content held)⟩
  · intro memory events middle ⟨silent, kept, recalled⟩
    refine (nextSupplied memory middle).mono ?_
    intro outcome later after supplied
    rw [silent, List.nil_append]
    exact .of_supplied (recalled memory rfl) kept supplied.1

theorem SingleAgentFlow.run_sourced (flow : SingleAgentFlow σ)
    (request : String) (ctx : RunContext) (before : World σ μ) :
    Ends World.trace (flow.run host request ctx services) before
      fun _ events after => Sourced holds before events after := by
  unfold SingleAgentFlow.run
  refine
    ends_bind_of_ok (run_resetCounters before) (List.append_nil _).symm ?_
  refine
    (sourced_bind_recallContext retains ctx request ?_
      (resetCounters before)).mono ?_
  · intro memory
    have allows :
        Allows (Supplied holds memory : World σ μ → _ → World σ μ → Prop)
          (fun _ => True) (Interaction.ShowsOnly memory) :=
      allows_supplied memory
    have failures : AdmitsFailures (Interaction.ShowsOnly memory) :=
      ⟨fun _ => showsOnly_of_silent rfl memory,
        fun _ _ => showsOnly_of_silent rfl memory,
        fun _ _ => showsOnly_of_silent rfl memory⟩
    have agentConfined :=
      Agent.confined_run allows (admitsRuns_showsOnly memory .singleAgent) host
        (some services.budget.usageLimits) flow.model
        (confined_tool allows failures (fun _ _ _ _ => trivial) host services
          (grantsFor services.approvalGate))
        (started_showsOnly .singleAgent (prompt request memory) memory)
    apply confined_bind (confined_tryCatch agentConfined ?handler)
    case handler =>
      intro exc
      obtain ⟨raised, equal⟩ := convertUsageLimit_eq_throw exc
      rw [equal]
      exact confined_throw fun _ => trivial
    intro result
    apply
      confined_bind
        (confined_settleBudget allows
          (fun _ _ => ⟨by simp [shownIn], fun _ => Or.inl⟩) (fun _ => trivial) host
          services result.usage)
    intro _
    apply
      confined_bind
        (confined_rememberTurn allows (admitsRuns_showsOnly memory .extraction)
          (fun _ => showsOnly_of_silent rfl memory) host flow ctx
          (allowsMemory_supplied retains memory) request result.output)
    exact fun _ => confined_pure _
  · have reset : BesideMemory before [] (resetCounters before) := ⟨rfl, rfl, rfl⟩
    exact fun _ _ _ sourced => .after_besideMemory reset sourced

theorem OrchestratorFlow.run_sourced (flow : OrchestratorFlow σ)
    (request : String) (ctx : RunContext) (before : World σ μ) :
    Ends World.trace (flow.run host request ctx services) before
      fun _ events after => Sourced holds before events after := by
  unfold OrchestratorFlow.run
  have forgetful : OrchestratorFlow.AdmitsFlow Interaction.Forgetful :=
    ⟨fun _ => ⟨fun _ _ => ⟨rfl, rfl⟩, ⟨rfl, rfl⟩, fun _ => ⟨rfl, rfl⟩⟩,
      fun _ => ⟨rfl, rfl⟩, fun _ _ => ⟨rfl, rfl⟩⟩
  have gatherConfined :=
    confined_gather allows_besideMemory flow
      (confined_work allows_besideMemory forgetful host flow services
        (grantsFor services.approvalGate) request fun _ => ⟨rfl, rfl⟩)
  apply ends_bind (gatherConfined before)
  · exact fun _ _ _ beside => .of_besideMemory beside.1
  · intro gathered events middle beside
    refine
      (sourced_bind_recallContext retains ctx request ?_ middle).mono ?_
    · intro memory
      have allows :
          Allows (Supplied holds memory : World σ μ → _ → World σ μ → Prop)
            (fun _ => True) (Interaction.ShowsOnly memory) :=
        allows_supplied memory
      have admits : OrchestratorFlow.AdmitsFlow (Interaction.ShowsOnly memory) :=
        ⟨admitsRuns_showsOnly memory, fun _ => showsOnly_of_silent rfl memory,
          fun _ _ => showsOnly_of_silent rfl memory⟩
      apply
        confined_bind
          (confined_runAgent allows admits host .synthesis flow.synthesisModel
            (Agent.confined_noTools host) (started_showsOnly .synthesis _ memory))
      intro draft
      apply
        confined_bind
          (confined_review allows admits host flow ctx draft _
            fun prompt => started_showsOnly .critic prompt memory)
      intro synthesis
      apply
        confined_bind
          (confined_rememberTurn allows admits host flow ctx
            (allowsMemory_supplied retains memory) request synthesis.summary
            fun _ => showsOnly_of_silent rfl memory)
      exact fun _ => confined_pure _
    · exact fun _ _ _ sourced => .after_besideMemory beside.1 sourced

/-! ## The turn around the flow -/

namespace AgentLoop

theorem flow_sourced (single : SingleAgentFlow σ)
    (orchestrator : OrchestratorFlow σ) {name : String} {flow : Flow σ μ}
    (found : (harnessFlows host single orchestrator).get? name = some flow)
    (ctx : RunContext) (before : World σ μ) :
    Ends World.trace (flow ctx.request ctx services) before
      fun _ events after => Sourced holds before events after := by
  rcases get?_harnessFlows found with ⟨_, same⟩ | ⟨_, same⟩
  · rw [same]
    exact single.run_sourced host retains ctx.request ctx before
  · rw [same]
    exact orchestrator.run_sourced host retains ctx.request ctx before

omit retains in
/-- The stamps at the end of a turn are beside the memory. -/
theorem stamped_sourced {program : Turn σ μ FlowResult} (ctx : RunContext)
    {before : World σ μ}
    (flowSourced :
      Ends World.trace program before
        fun _ events after => Sourced holds before events after) :
    Ends World.trace
      (do
        let result ← program
        stampResult ctx result
        return result) before
      fun _ events after => Sourced holds before events after := by
  have stamped :
      ∀ result, EventLog.Confined World.trace BesideMemory (fun _ => True)
        (stampResult ctx result : Turn σ μ Unit) :=
    fun result =>
      confined_of_silent (fun _ => rfl) (fun _ => ⟨rfl, rfl, rfl⟩)
        fun _ _ _ => trivial
  apply ends_bind flowSourced
  · exact fun _ _ _ sourced => sourced
  · intro result events after sourced
    apply ends_bind (stamped result after)
    · exact fun _ _ _ still => sourced.before_besideMemory still.1
    · intro _ later final still
      refine ends_pure ?_
      rw [List.append_nil]
      exact sourced.before_besideMemory still.1

theorem runTurn_sourced (single : SingleAgentFlow σ)
    (orchestrator : OrchestratorFlow σ) (ctx : RunContext) (before : World σ μ) :
    Ends World.trace
      ((harness host single orchestrator).runTurn ctx services) before
      fun _ events after => Sourced holds before events after := by
  unfold runTurn
  rcases run_route ctx services before with
    ⟨decision, env, metadata, routed⟩ | ⟨exc, env, metadata, failed⟩
  · refine ends_bind_of_ok routed (List.append_nil _).symm ?_
    let middle : World σ μ := { before with env, metadata }
    have beside : BesideMemory before [] middle := ⟨rfl, rfl, rfl⟩
    cases dispatched : (harness host single orchestrator).dispatch decision with
    | answer result => exact ends_pure (.of_besideMemory beside)
    | flow name flow =>
        have flowSourced :=
          flow_sourced host retains single orchestrator
            (dispatch_eq_flow dispatched) ctx middle
        have converted :
            Ends World.trace (tryCatch (flow ctx.request ctx services) convert)
              middle fun _ events after => Sourced holds middle events after := by
          apply ends_tryCatch flowSourced (fun _ _ _ sourced => sourced)
          intro exc events after sourced
          have conversion :
              EventLog.Confined World.trace BesideMemory _
                (convert exc : Turn σ μ FlowResult) :=
            confined_convert exc
          refine (conversion after).mono ?_
          exact fun _ later final still => sourced.before_besideMemory still.1
        refine (stamped_sourced ctx converted).mono ?_
        exact fun _ _ _ sourced => .after_besideMemory beside sourced
  · exact
      ends_bind_of_error failed (List.append_nil _).symm
        (.of_besideMemory ⟨rfl, rfl, rfl⟩)

/-- What a turn shows and what it leaves in the memory. -/
theorem turn_sourced (single : SingleAgentFlow σ)
    (orchestrator : OrchestratorFlow σ) (ctx : RunContext) (world : World σ μ) :
    let ran := (harness host single orchestrator).turn ctx services world
    Sourced holds world (finalState ran).trace (finalState ran) := by
  obtain ⟨events, appended, sourced⟩ :=
    runTurn_sourced host retains single orchestrator ctx world.untraced
  have trace :
      (finalState
        ((harness host single orchestrator).turn ctx services world)).trace =
        events :=
    appended
  simp only [trace]
  exact ⟨sourced.shown, sourced.stored⟩

end AgentLoop

end Flows

end FableHarness
