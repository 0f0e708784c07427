import FableHarness.Flows.AnsweredRecall
import FableHarness.Flows.MemorySimulation
import FableHarness.Flows.Provenance

/-!
# The memory protocol of a turn

A store that writes down what it is asked before it does it.  It is as good as the
store itself, and its log shows that a turn recalls once and remembers at most once,
after it, or asks for nothing at all.
-/

namespace FableHarness

open ExceptionState EventLog

variable {σ μ α : Type}

/-! ## A store that keeps a log -/

inductive StoreRequest where
  | recallItems (query scope : String) (k : Int)
  | remember (items : List MemoryItem) (scope : String)
  | invalidate (predicate : MemoryPredicate)

/-- The state of a store and its log. -/
abbrev Logged (μ : Type) := μ × List StoreRequest

/-- Write the request down, then serve it. -/
def noting (request : StoreRequest) (program : Py μ α) : Py (Logged μ) α := do
  modify fun noted => (noted.1, noted.2 ++ [request])
  focus Prod.fst (fun memory noted => (memory, noted.2)) id program

/-- The store behind a log, as the counting store of the ablations is behind its
counters. -/
def MemoryStore.logging (store : MemoryStore μ) : MemoryStore (Logged μ) where
  remember items scope :=
    noting (.remember items scope) (store.remember items scope)
  recallItems query scope k :=
    noting (.recallItems query scope k) (store.recallItems query scope k)
  invalidate predicate := noting (.invalidate predicate) (store.invalidate predicate)

theorem run_noting (request : StoreRequest) (program : Py μ α) (noted : Logged μ) :
    (noting request program).run noted =
      resultOf (answer (program.run noted.1))
        (finalState (program.run noted.1), noted.2 ++ [request]) := by
  have focused :
      (noting request program).run noted =
        (focus Prod.fst (fun (memory : μ) (after : Logged μ) => (memory, after.2)) id
          program).run (noted.1, noted.2 ++ [request]) :=
    rfl
  rw [focused, run_focus]
  cases program.run noted.1 with
  | ok value after => rfl
  | error exc after => rfl

theorem lockstep_noting (request : StoreRequest) (program : Py μ α) :
    Lockstep (fun memory (noted : Logged μ) => noted.1 = memory) Eq program
      (noting request program) := by
  rintro _ noted rfl
  rw [run_noting]
  cases program.run noted.1 with
  | ok value after => exact .ok rfl rfl
  | error exc after => exact .error rfl

/-- The log makes no difference. -/
theorem MemoryStore.simulated_logging (store : MemoryStore μ) (scope : String) :
    store.Simulated (fun memory noted => noted.1 = memory) scope store.logging where
  recalling _ _ := lockstep_noting _ _
  remembering _ := lockstep_noting _ _
  invalidating _ _ := lockstep_noting _ _

/-! ## What a turn asks for -/

/-- The requests of a turn in this context. -/
inductive FollowsProtocol (ctx : RunContext) : List StoreRequest → Prop
  /-- It asked for nothing. -/
  | silent : FollowsProtocol ctx []
  | recalled (memoryOn : ctx.ablations.memoryOn = true) :
      FollowsProtocol ctx [.recallItems ctx.request ctx.userScope 5]
  | remembered (memoryOn : ctx.ablations.memoryOn = true) (facts : List MemoryItem)
      (some : facts ≠ []) (ofFlow : facts.all MemoryItem.isOfFlow = true) :
      FollowsProtocol ctx
        [.recallItems ctx.request ctx.userScope 5, .remember facts ctx.userScope]

/-- How the store keeps its log: what it writes down for a request that it gets. -/
structure MemoryStore.Writes (store : MemoryStore (Logged μ))
    (entries : StoreRequest → List StoreRequest) : Prop where
  recalling :
    ∀ query scope k noted,
      (finalState ((store.recallItems query scope k).run noted)).2 =
        noted.2 ++ entries (.recallItems query scope k)
  remembering :
    ∀ items scope noted,
      (finalState ((store.remember items scope).run noted)).2 =
        noted.2 ++ entries (.remember items scope)

theorem MemoryStore.writes_logging (store : MemoryStore μ) :
    store.logging.Writes fun request => [request] where
  recalling query scope k noted := by
    show (finalState ((noting _ _).run noted)).2 = _
    rw [run_noting, finalState_resultOf]
  remembering items scope noted := by
    show (finalState ((noting _ _).run noted)).2 = _
    rw [run_noting, finalState_resultOf]

theorem writes_null : (nullMemoryStore (Logged μ)).Writes fun _ => [] where
  recalling _ _ _ _ := (List.append_nil _).symm
  remembering _ _ _ := (List.append_nil _).symm

/-- The entries for requests that follow the protocol. -/
def LogsProtocol (entries : StoreRequest → List StoreRequest) (ctx : RunContext)
    (asked : List StoreRequest) : Prop :=
  ∃ requests, FollowsProtocol ctx requests ∧ asked = requests.flatMap entries

/-- The log in the memory of a world. -/
def World.requests (world : World σ (Logged μ)) : List StoreRequest :=
  world.memory.2

/-- The program leaves the log of the store alone. -/
abbrev Unasking (program : Turn σ (Logged μ) α) : Prop :=
  Emits World.requests program fun _ asked => asked = []

theorem unasking_of_free {program : Turn σ (Logged μ) α} (free : MemoryFree program) :
    Unasking program := by
  apply emits_of_silent
  · intro world
    exact congrArg Prod.snd (free.memory_eq world)
  · exact fun _ => rfl

theorem unasking_of_besideMemory {program : Turn σ (Logged μ) α}
    (confined : Confined BesideMemory (fun _ => True) program) : Unasking program := by
  apply emits_of_silent
  · intro world
    obtain ⟨events, _, beside, _⟩ := confined world
    exact congrArg Prod.snd beside.memory
  · exact fun _ => rfl

theorem AgentLoop.unasking_convert (exc : TurnExc) :
    Unasking (convert exc : Turn σ (Logged μ) FlowResult) := by
  cases exc with
  | toolError message => exact fun before => ends_throw rfl
  | repeatedFailure message => exact emits_pure rfl
  | budgetExhausted message => exact emits_pure rfl
  | outside raised =>
      cases raised with
      | permissionDenied message => exact emits_pure rfl
      | usageLimitExceeded message => exact fun before => ends_throw rfl
      | other className message => exact fun before => ends_throw rfl

theorem AgentLoop.unasking_stampResult (ctx : RunContext) (result : FlowResult) :
    Unasking (stampResult ctx result : Turn σ (Logged μ) Unit) :=
  emits_of_silent (fun _ => rfl) fun _ => rfl

section Asking

variable {services : HarnessServices σ (Logged μ)}
  {entries : StoreRequest → List StoreRequest}
  (writes : services.memory.Writes entries) (ctx : RunContext)
include writes

theorem recallContext_asks (request : String) :
    Emits World.requests (Turn.recallContext services ctx request)
      fun _ asked =>
        asked =
          if ctx.ablations.memoryOn then
            entries (.recallItems request ctx.userScope 5)
          else
            [] := by
  unfold Turn.recallContext
  by_cases memoryOn : ctx.ablations.memoryOn = true
  · rw [if_pos memoryOn]
    simp only [memoryOn, if_true]
    intro world
    have noted := writes.recalling request ctx.userScope 5 world.memory
    refine ⟨_, ?_, rfl⟩
    rw [Turn.recallContents, EStateM.run_bind, Turn.run_inMemory]
    cases ran :
        (services.memory.recallItems request ctx.userScope 5).run world.memory with
    | ok items memory =>
        rw [ran] at noted
        exact noted
    | error exc memory =>
        rw [ran] at noted
        exact noted
  · rw [if_neg memoryOn]
    apply emits_pure
    rw [if_neg memoryOn]

theorem remember_asks (facts : List MemoryItem) :
    Emits World.requests (Turn.remember services facts ctx.userScope)
      fun _ asked => asked = entries (.remember facts ctx.userScope) := by
  intro world
  have noted := writes.remembering facts ctx.userScope world.memory
  refine ⟨_, ?_, rfl⟩
  rw [Turn.run_remember]
  cases ran :
      (services.memory.remember facts ctx.userScope).run world.memory with
  | ok done memory =>
      rw [ran] at noted
      exact noted
  | error exc memory =>
      rw [ran] at noted
      exact noted

end Asking

/-! ## Flows -/

/-- An extraction that asks for nothing and makes items of a flow. -/
structure Extracts (extract : Turn σ (Logged μ) (List MemoryItem)) : Prop where
  unasking : Unasking extract
  ofFlow :
    ∀ before facts after, extract.run before = .ok facts after →
      facts.all MemoryItem.isOfFlow = true

theorem FactExtractor.extracts (host : Host σ) (extractor : FactExtractor σ)
    {source : String} (request response : String)
    (fromFlow : source = SingleAgentFlow.flowName ∨ source = OrchestratorFlow.flowName) :
    Extracts
      (extractor.extract host request response source :
        Turn σ (Logged μ) (List MemoryItem)) where
  unasking := by
    apply unasking_of_besideMemory
    apply extractor.confined_extract allows_besideMemory
    · exact ⟨fun _ _ => ⟨rfl, rfl⟩, ⟨rfl, rfl⟩, fun _ => ⟨rfl, rfl⟩⟩
    · exact fun _ => ⟨rfl, rfl⟩
  ofFlow _ _ _ extracted := extractor.isOfFlow_of_extract fromFlow extracted

theorem SingleAgentFlow.extracts (host : Host σ) (flow : SingleAgentFlow σ)
    (request output userScope : String) :
    Extracts
      (turnFacts host flow request output userScope :
        Turn σ (Logged μ) (List MemoryItem)) where
  unasking := by
    apply unasking_of_besideMemory
    unfold turnFacts
    cases flow.factExtractor with
    | some extractor =>
        apply extractor.confined_extract allows_besideMemory
        · exact ⟨fun _ _ => ⟨rfl, rfl⟩, ⟨rfl, rfl⟩, fun _ => ⟨rfl, rfl⟩⟩
        · exact fun _ => ⟨rfl, rfl⟩
    | none =>
        apply confined_bind (confined_newMemoryItem allows_besideMemory host _ _ _)
        exact fun _ => confined_pure _
  ofFlow _ _ _ gathered := isOfFlow_of_turnFacts gathered

section Protocol

variable {services : HarnessServices σ (Logged μ)}
  {entries : StoreRequest → List StoreRequest}
  (writes : services.memory.Writes entries) (ctx : RunContext)
include writes

/-- The end of a flow remembers once, if at all. -/
theorem rememberFacts_asks {extraction : Option (Turn σ (Logged μ) (List MemoryItem))}
    (extracts : ∀ extract, extraction = some extract → Extracts extract) :
    Emits World.requests (rememberFacts services ctx extraction)
      fun _ asked =>
        asked = [] ∨ extraction ≠ none ∧ ∃ facts,
          facts ≠ [] ∧ facts.all MemoryItem.isOfFlow = true ∧
            asked = entries (.remember facts ctx.userScope) := by
  cases extraction with
  | none => exact emits_pure (Or.inl rfl)
  | some extract =>
      have own := extracts extract rfl
      intro before
      cases ran : extract.run before with
      | error exc after =>
          obtain ⟨asked, appended, silent⟩ := own.unasking before
          rw [ran] at appended
          refine ends_bind_of_error ran appended (Or.inl silent)
      | ok facts after =>
          obtain ⟨asked, appended, silent⟩ := own.unasking before
          rw [ran] at appended
          refine ends_bind_of_ok ran appended ?_
          rw [silent]
          by_cases some : facts ≠ []
          · rw [if_pos some]
            refine (remember_asks writes ctx facts after).mono ?_
            rintro outcome later _ rfl
            exact
              Or.inr
                ⟨Option.some_ne_none _, facts, some, own.ofFlow _ _ _ ran, rfl⟩
          · rw [if_neg some]
            exact ends_pure (Or.inl rfl)

theorem RecallingFlow.run_asks (flow : RecallingFlow σ (Logged μ))
    (extractor : Option (FactExtractor σ))
    (extracts :
      ∀ response extract,
        flow.extraction extractor ctx ctx.request response = some extract →
          Extracts extract) :
    Emits World.requests (flow.run extractor ctx.request ctx services)
      fun _ asked => LogsProtocol entries ctx asked := by
  let recallRequest : StoreRequest := .recallItems ctx.request ctx.userScope 5
  have recalled :
      LogsProtocol entries ctx
        (if ctx.ablations.memoryOn then entries recallRequest else []) := by
    by_cases memoryOn : ctx.ablations.memoryOn = true
    · rw [if_pos memoryOn]
      exact ⟨_, .recalled memoryOn, (List.flatMap_singleton _ _).symm⟩
    · rw [if_neg memoryOn]
      exact ⟨[], .silent, rfl⟩
  have remembered :
      ∀ response facts, flow.extraction extractor ctx ctx.request response ≠ none →
        facts ≠ [] → facts.all MemoryItem.isOfFlow = true →
          LogsProtocol entries ctx
            ((if ctx.ablations.memoryOn then entries recallRequest else []) ++
              entries (.remember facts ctx.userScope)) := by
    intro response facts extracted some ofFlow
    by_cases memoryOn : ctx.ablations.memoryOn = true
    · rw [if_pos memoryOn]
      exact ⟨_, .remembered memoryOn facts some ofFlow, by simp [recallRequest]⟩
    · have off : ctx.withMemory false = ctx := by
        rw [Bool.not_eq_true] at memoryOn
        unfold RunContext.withMemory
        rw [← memoryOn]
      have absent := flow.extraction_off extractor ctx ctx.request response
      rw [off] at absent
      exact absurd absent extracted
  intro before
  unfold run
  apply ends_bind (unasking_of_free (flow.start_free services ctx.request) before)
  · rintro exc _ _ rfl
    exact ⟨[], .silent, rfl⟩
  rintro started _ middle rfl
  apply ends_bind (recallContext_asks writes ctx ctx.request middle)
  · rintro exc _ _ rfl
    exact recalled
  rintro memory _ answering rfl
  apply
    ends_bind
      (unasking_of_free
        (flow.respond_free services ctx ctx.request started memory) answering)
  · rintro exc _ _ rfl
    rw [List.append_nil]
    exact recalled
  rintro response _ settled rfl
  apply ends_bind (rememberFacts_asks writes ctx (extracts response) settled)
  · rintro exc asked _ (rfl | ⟨extracted, facts, some, ofFlow, rfl⟩)
    · simpa using recalled
    · simpa using remembered response facts extracted some ofFlow
  · rintro _ asked _ (rfl | ⟨extracted, facts, some, ofFlow, rfl⟩)
    · exact ends_pure (by simpa using recalled)
    · exact ends_pure (by simpa using remembered response facts extracted some ofFlow)

theorem SingleAgentFlow.run_asks (host : Host σ) (flow : SingleAgentFlow σ) :
    Emits World.requests (flow.run host ctx.request ctx services)
      fun _ asked => LogsProtocol entries ctx asked := by
  have same := flow.run_recalling (μ := Logged μ) host flow.factExtractor
  have asks :=
    (recalling host flow (Logged μ)).run_asks writes ctx flow.factExtractor
  rw [same] at asks
  apply asks
  intro response extract present
  have own : extraction host flow ctx.request ctx response.output = some extract :=
    present
  unfold extraction at own
  split at own
  · cases own
    exact flow.extracts host _ _ _
  · cases own

theorem OrchestratorFlow.run_asks (host : Host σ) (flow : OrchestratorFlow σ) :
    Emits World.requests (flow.run host ctx.request ctx services)
      fun _ asked => LogsProtocol entries ctx asked := by
  have same := flow.run_recalling (μ := Logged μ) host flow.factExtractor
  have asks :=
    (recalling host flow (Logged μ)).run_asks writes ctx flow.factExtractor
  rw [same] at asks
  apply asks
  intro response extract present
  have own : extraction host flow ctx.request ctx response.summary = some extract :=
    present
  unfold extraction at own
  split at own
  · obtain ⟨extractor, _, rfl⟩ := Option.map_eq_some_iff.mp own
    exact extractor.extracts host _ _ (Or.inr rfl)
  · cases own

/-- A turn follows the protocol, whatever it is routed to and however it ends. -/
theorem AgentLoop.turn_asks (host : Host σ) (single : SingleAgentFlow σ)
    (orchestrator : OrchestratorFlow σ) (world : World σ (Logged μ)) :
    let ran := (harness host single orchestrator).turn ctx services world
    ∃ asked,
      (finalState ran).memory.2 = world.memory.2 ++ asked ∧
        LogsProtocol entries ctx asked := by
  have nothing : LogsProtocol entries ctx [] := ⟨[], .silent, rfl⟩
  have whole :
      Ends World.requests ((harness host single orchestrator).runTurn ctx services)
        world.untraced fun _ asked _ => LogsProtocol entries ctx asked := by
    unfold runTurn
    rcases run_route ctx services world.untraced with
      ⟨decision, env, metadata, routed⟩ | ⟨exc, env, metadata, failed⟩
    · refine ends_bind_of_ok routed (List.append_nil _).symm ?_
      cases dispatched : (harness host single orchestrator).dispatch decision with
      | answer result => exact ends_pure nothing
      | flow name flow =>
          have asks :
              Emits World.requests (flow ctx.request ctx services)
                fun _ asked => LogsProtocol entries ctx asked := by
            rcases get?_harnessFlows (dispatch_eq_flow dispatched) with
              ⟨_, same⟩ | ⟨_, same⟩
            · rw [same]
              exact SingleAgentFlow.run_asks writes ctx host single
            · rw [same]
              exact OrchestratorFlow.run_asks writes ctx host orchestrator
          have caught :
              Emits World.requests (tryCatch (flow ctx.request ctx services) convert)
                fun _ asked => LogsProtocol entries ctx asked := by
            intro before
            apply ends_tryCatch (asks before)
            · exact fun _ _ _ => id
            · intro exc asked after protocol
              refine (unasking_convert exc after).mono ?_
              rintro outcome _ _ rfl
              rw [List.append_nil]
              exact protocol
          apply ends_bind (caught _)
          · exact fun _ _ _ => id
          intro result asked after protocol
          apply ends_bind (unasking_stampResult ctx result after)
          · rintro exc _ _ rfl
            rw [List.append_nil]
            exact protocol
          rintro _ _ _ rfl
          exact ends_pure (by simpa using protocol)
    · exact ends_bind_of_error failed (List.append_nil _).symm nothing
  exact whole

end Protocol

end FableHarness
