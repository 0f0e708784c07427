import FableHarness.Core.Loop
import FableHarness.Library.EventLog

/-!
# What the parts of a turn can change, record and raise

One confinement lemma for each function below the flows.  The lemmas hold of
every relation between worlds that composes and allows what all of this code
does, so that a result about what a turn records, spends or stores only has to
check a few kinds of steps.
-/

namespace FableHarness

open ExceptionState EventLog

variable {σ μ α : Type} {spec : World σ μ → List Interaction → World σ μ → Prop}
  {benign : TurnExc → Prop} {safe : Interaction → Prop}

/-- The program keeps to `spec` and raises only `benign` exceptions. -/
abbrev Confined (spec : World σ μ → List Interaction → World σ μ → Prop)
    (benign : TurnExc → Prop) (program : Turn σ μ α) : Prop :=
  EventLog.Confined World.trace spec benign program

/-- A relation between worlds that allows whatever leaves the trace, the memory and
the ledger alone, and the recording of `safe` events; what outside code raises
is benign. -/
structure Allows (spec : World σ μ → List Interaction → World σ μ → Prop)
    (benign : TurnExc → Prop) (safe : Interaction → Prop) : Prop where
  working :
    ∀ before after, after.trace = before.trace → after.memory = before.memory →
      after.status = before.status → before.clock ≤ after.clock →
        spec before [] after
  recording :
    ∀ event, safe event → ∀ world : World σ μ,
      spec world [event] { world with trace := world.trace ++ [event] }
  outside : ∀ exc, benign (.outside exc)

/-- The relation allows what the two operations on the memory do. -/
structure AllowsMemory (spec : World σ μ → List Interaction → World σ μ → Prop)
    (memory : MemoryStore μ) : Prop where
  recalling :
    ∀ query scope k (world : World σ μ),
      spec world []
        { world with
          memory :=
            finalState ((memory.recallItems query scope k).run world.memory) }
  remembering :
    ∀ items scope (world : World σ μ) after,
      (memory.remember items scope).run world.memory = .ok () after →
        let event : Interaction := .remembered (items.map MemoryItem.content)
        spec world [event]
          { world with memory := after, trace := world.trace ++ [event] }
  failing :
    ∀ items scope (world : World σ μ) exc after,
      (memory.remember items scope).run world.memory = .error exc after →
        spec world [] { world with memory := after }

theorem Allows.raising {tolerated : TurnExc → Prop}
    (allows : Allows spec benign safe) (outside : ∀ exc, tolerated (.outside exc)) :
    Allows spec tolerated safe :=
  ⟨allows.working, allows.recording, outside⟩

/-- The relation that looks at the recorded events only. -/
theorem allows_only (outside : ∀ exc, benign (.outside exc)) :
    Allows (Only safe : World σ μ → List Interaction → World σ μ → Prop) benign
      safe where
  working _ _ _ _ _ _ := by simp [Only]
  recording event isSafe _ := by
    intro other member
    rw [List.mem_singleton.mp member]
    exact isSafe
  outside := outside

theorem allowsMemory_only (remembered : ∀ contents, safe (.remembered contents))
    (memory : MemoryStore μ) :
    AllowsMemory (Only safe : World σ μ → List Interaction → World σ μ → Prop)
      memory where
  recalling _ _ _ _ := by simp [Only]
  remembering _ _ _ _ _ := by
    intro event other member
    rw [List.mem_singleton.mp member]
    exact remembered _
  failing _ _ _ _ _ _ := by simp [Only]

/-! ## Primitives -/

namespace Turn

section Allowed

variable (allows : Allows spec benign safe)
include allows

theorem confined_record {event : Interaction} (isSafe : safe event) :
    Confined spec benign (record event : Turn σ μ Unit) := by
  intro world
  refine ends_of_ok rfl rfl ⟨allows.recording event isSafe world, ?_⟩
  intro exc equal
  cases equal

theorem confined_modifyGet {change : World σ μ → α × World σ μ}
    (works : ∀ world,
      (change world).2.trace = world.trace ∧
        (change world).2.memory = world.memory ∧
        (change world).2.status = world.status ∧
        (change world).2.clock = world.clock) :
    Confined spec benign (modifyGet change : Turn σ μ α) := by
  apply confined_of_silent
  · exact fun world => (works world).1
  · intro world
    obtain ⟨trace, memory, status, clock⟩ := works world
    exact allows.working _ _ trace memory status clock.ge
  · intro world exc equal
    cases equal

theorem confined_outside (program : Py σ α) :
    Confined spec benign (outside program : Turn σ μ α) := by
  apply confined_of_silent
  · intro world
    rw [run_outside]
    cases program.run world.env <;> rfl
  · intro world
    rw [run_outside]
    cases program.run world.env with
    | ok value env => exact allows.working _ _ rfl rfl rfl le_rfl
    | error exc env => exact allows.working _ _ rfl rfl rfl le_rfl
  · intro world exc equal
    rw [run_outside] at equal
    cases outcome : program.run world.env with
    | ok value after =>
        rw [outcome] at equal
        cases equal
    | error raised after =>
        rw [outcome] at equal
        cases equal
        exact allows.outside raised

theorem confined_monotonic (host : Host σ) :
    Confined spec benign (monotonic host : Turn σ μ ℚ) := by
  apply confined_of_silent
  · exact fun _ => rfl
  · intro world
    refine allows.working _ _ rfl rfl rfl ?_
    exact le_add_of_nonneg_right (NNRat.coe_nonneg _)
  · intro world exc equal
    cases equal

variable [Composes spec]

theorem confined_execute (services : HarnessServices σ μ) {call : ToolCall}
    (grants : PermissionGrants σ) (deniedSafe : safe (.callDenied call)) :
    Confined spec benign (execute services call grants) := by
  apply confined_bind (confined_outside allows _)
  intro (verdict, result)
  by_cases denied : verdict = .denied
  · simp only [denied, if_true]
    apply confined_bind (confined_record allows deniedSafe)
    exact fun _ => confined_pure _
  · simp only [denied, if_false]
    exact confined_pure _

section Settling

variable
  (settling : ∀ (world : World σ μ) status, spec world [] { world with status })
include settling

theorem confined_recordUsage (host : Host σ) (services : HarnessServices σ μ)
    (inputTokens outputTokens toolCalls : Nat) :
    Confined spec benign
      (recordUsage host services inputTokens outputTokens toolCalls) := by
  apply confined_bind (confined_monotonic allows host)
  intro now
  apply confined_of_silent (fun _ => rfl) (fun world => settling world _)
  intro world exc equal
  cases equal

theorem confined_checkWallClock (host : Host σ)
    (services : HarnessServices σ μ) :
    Confined spec benign (checkWallClock host services) := by
  apply confined_bind (confined_monotonic allows host)
  intro now
  apply confined_of_silent (fun _ => rfl) (fun world => settling world _)
  intro world exc equal
  cases equal

end Settling

end Allowed

section Memory

variable {services : HarnessServices σ μ}
  (allows : Allows spec benign safe)
  (allowsMemory : AllowsMemory spec services.memory)
include allows allowsMemory

theorem confined_remember (facts : List MemoryItem) (scope : String) :
    Confined spec benign (remember services facts scope) := by
  intro world
  have run := run_inMemory (services.memory.remember facts scope) world
  cases stored : (services.memory.remember facts scope).run world.memory with
  | ok done memory =>
      rw [stored] at run
      refine ends_bind_of_ok run (List.append_nil _).symm ?_
      refine ends_of_ok rfl rfl ?_
      refine ⟨allowsMemory.remembering facts scope world memory stored, ?_⟩
      intro exc equal
      cases equal
  | error raised memory =>
      rw [stored] at run
      refine ends_bind_of_error run (List.append_nil _).symm ?_
      refine ⟨allowsMemory.failing facts scope world raised memory stored, ?_⟩
      intro exc equal
      cases equal
      exact allows.outside raised

variable [Composes spec]

theorem confined_recallContext (ctx : RunContext) (request : String) :
    Confined spec benign (recallContext services ctx request) := by
  unfold recallContext
  split
  · apply confined_bind ?recalling fun _ => confined_pure _
    case recalling =>
      have recalling := allowsMemory.recalling request ctx.userScope 5
      apply confined_of_silent
      · intro world
        rw [run_inMemory]
        cases (services.memory.recallItems request ctx.userScope 5).run
          world.memory <;> rfl
      · intro world
        have recalled := recalling world
        rw [run_inMemory]
        cases run :
            (services.memory.recallItems request ctx.userScope 5).run
              world.memory with
        | ok items memory =>
            rw [run] at recalled
            exact recalled
        | error exc memory =>
            rw [run] at recalled
            exact recalled
      · intro world exc equal
        rw [run_inMemory] at equal
        cases run :
            (services.memory.recallItems request ctx.userScope 5).run
              world.memory with
        | ok items memory =>
            rw [run] at equal
            cases equal
        | error raised memory =>
            rw [run] at equal
            cases equal
            exact allows.outside raised
  · exact confined_pure []

end Memory

end Turn

variable [Composes spec]

/-! ## Agent runs -/

namespace Agent

open Turn

/-- The events that every agent run records of itself, once it is started. -/
structure AdmitsRuns (safe : Interaction → Prop) (role : AgentRole) : Prop where
  responded : ∀ input output, safe (.modelResponded role input output)
  returned : safe (.toolReturned role)
  ended : ∀ time, safe (.agentEnded role time)

variable {role : AgentRole} (allows : Allows spec benign safe)
  (admits : AdmitsRuns safe role)
include allows

theorem confined_raiseIf (failure : Option PyExc) :
    Confined spec benign (raiseIf failure : Turn σ μ Unit) := by
  cases failure with
  | none => exact confined_pure ()
  | some exc => exact confined_throw (allows.outside exc)

include admits

theorem confined_charge (limits : Option UsageLimits) (usage : RunUsage)
    (response : ModelResponse) :
    Confined spec benign
      (charge role limits usage response : Turn σ μ RunUsage) := by
  apply confined_bind (confined_record allows (admits.responded _ _))
  intro _
  apply confined_bind (confined_raiseIf allows _)
  exact fun _ => confined_pure _

theorem confined_callTool (limits : Option UsageLimits)
    {tool : String → Arguments → Turn σ μ ToolReply}
    (toolConfined : ∀ name arguments, Confined spec benign (tool name arguments))
    (usage : RunUsage) (name : String) (arguments : Arguments) :
    Confined spec benign (callTool role limits tool usage name arguments) := by
  apply confined_bind (confined_raiseIf allows _)
  intro _
  apply confined_bind (toolConfined name arguments)
  intro reply
  cases reply with
  | value output =>
      apply confined_bind (confined_record allows admits.returned)
      exact fun _ => confined_pure _
  | retry message =>
      exact confined_pure _

theorem confined_drive (limits : Option UsageLimits)
    {tool : String → Arguments → Turn σ μ ToolReply}
    (toolConfined : ∀ name arguments, Confined spec benign (tool name arguments))
    (behaviour : ModelRun α) :
    ∀ usage, Confined spec benign (drive role limits tool usage behaviour) := by
  induction behaviour with
  | answer response output messages =>
      intro usage
      apply confined_bind (confined_charge allows admits limits usage response)
      exact fun _ => confined_pure _
  | raises exc =>
      intro usage
      exact confined_throw (allows.outside exc)
  | call response name arguments next inductionHypothesis =>
      intro usage
      apply confined_bind (confined_charge allows admits limits usage response)
      intro charged
      apply
        confined_bind
          (confined_callTool allows admits limits toolConfined charged name
            arguments)
      exact fun replied => inductionHypothesis replied.1 replied.2

/-- An agent run after the record of its start. -/
def afterStart (host : Host σ) (role : AgentRole) (limits : Option UsageLimits)
    (model : Model σ α) (tool : String → Arguments → Turn σ μ ToolReply)
    (prompt : String) : Turn σ μ (AgentResult α) := do
  let behaviour ← Turn.outside (model prompt)
  let result ← drive role limits tool {} behaviour
  let time ← Turn.monotonic host
  Turn.record (.agentEnded role time)
  return result

theorem confined_afterStart (host : Host σ) (limits : Option UsageLimits)
    (model : Model σ α) {tool : String → Arguments → Turn σ μ ToolReply}
    (toolConfined : ∀ name arguments, Confined spec benign (tool name arguments))
    (prompt : String) :
    Confined spec benign (afterStart host role limits model tool prompt) := by
  apply confined_bind (confined_outside allows _)
  intro behaviour
  apply
    confined_bind (confined_drive allows admits limits toolConfined behaviour {})
  intro result
  apply confined_bind (confined_monotonic allows host)
  intro time
  apply confined_bind (confined_record allows (admits.ended time))
  exact fun _ => confined_pure _

theorem confined_run (host : Host σ) (limits : Option UsageLimits)
    (model : Model σ α) {tool : String → Arguments → Turn σ μ ToolReply}
    (toolConfined : ∀ name arguments, Confined spec benign (tool name arguments))
    {prompt : String} {memory : List String}
    (startSafe : safe (.agentStarted role prompt memory)) :
    Confined spec benign
      (Agent.run host role limits model tool prompt memory) :=
  confined_bind (confined_record allows startSafe) fun _ =>
    confined_afterStart allows admits host limits model toolConfined prompt

omit allows in
/-- An agent run records its start first, and no other start. -/
theorem run_starts
    (allows : Allows (Only safe : World σ μ → _ → World σ μ → Prop) benign safe)
    (host : Host σ) (limits : Option UsageLimits) (model : Model σ α)
    {tool : String → Arguments → Turn σ μ ToolReply}
    (toolConfined :
      ∀ name arguments, Confined (Only safe) benign (tool name arguments))
    (prompt : String) (memory : List String) (before : World σ μ) :
    Ends World.trace (Agent.run host role limits model tool prompt memory) before
      fun _ events _ =>
        ∃ later, events = .agentStarted role prompt memory :: later ∧
          ∀ event ∈ later, safe event := by
  have started :
      (Turn.record (.agentStarted role prompt memory) : Turn σ μ Unit).run before =
        .ok ()
          { before with
            trace := before.trace ++ [.agentStarted role prompt memory] } :=
    rfl
  have rest :=
    confined_afterStart allows admits host limits model toolConfined prompt
  refine ends_bind_of_ok started rfl ((rest _).mono ?_)
  exact fun _ later _ confined => ⟨later, rfl, confined.1⟩

omit allows admits in
theorem confined_noTools (host : Host σ) (name : String)
    (arguments : Arguments) :
    Confined spec benign (noTools host name arguments : Turn σ μ ToolReply) :=
  confined_pure _

end Agent

/-! ## Extraction -/

open Turn

theorem confined_newMemoryItem (allows : Allows spec benign safe)
    (host : Host σ) (content scope source : String) :
    Confined spec benign
      (newMemoryItem host content scope source : Turn σ μ MemoryItem) := by
  apply confined_bind (confined_outside allows _)
  exact fun _ => confined_pure _

theorem FactExtractor.confined_extract (allows : Allows spec benign safe)
    (admits : Agent.AdmitsRuns safe .extraction) (host : Host σ)
    (extractor : FactExtractor σ) (request response source : String)
    (startSafe : ∀ prompt, safe (.agentStarted .extraction prompt [])) :
    Confined spec benign
      (extractor.extract host request response source :
        Turn σ μ (List MemoryItem)) := by
  apply
    confined_bind
      (Agent.confined_run allows admits host none extractor.model
        (Agent.confined_noTools host) (startSafe _))
  intro result
  exact
    confined_mapM
      (fun fact => confined_newMemoryItem allows host fact.content "" source)
      result.output

/-! ## The single-agent flow -/

namespace SingleAgentFlow

/-- The events of a failed tool call. -/
structure AdmitsFailures (safe : Interaction → Prop) : Prop where
  callDenied : ∀ call, safe (.callDenied call)
  callFailed : ∀ call error, safe (.callFailed call error)
  raisedOnDenial : ∀ call exc, safe (.raisedOnDenial call exc)

section Tool

variable (allows : Allows spec benign safe) (admits : AdmitsFailures safe)
  (failureBenign :
    ∀ raised result exc, failure raised result = some exc → benign exc)
include allows admits failureBenign

theorem confined_answerCall (host : Host σ) (call : ToolCall)
    (verdict : Verdict) (result : ToolResult) :
    Confined spec benign
      (answerCall host call verdict result : Turn σ μ ToolReply) := by
  apply
    confined_bind
      (confined_modifyGet allows fun world => ⟨rfl, rfl, rfl, rfl⟩)
  intro raised
  cases failed : failure raised result with
  | none => exact confined_pure _
  | some exc =>
      have allowed := failureBenign raised result exc failed
      by_cases denied : verdict = .denied
      · simp only [denied, if_true]
        apply
          confined_bind (confined_record allows (admits.raisedOnDenial call exc))
        exact fun _ => confined_throw allowed
      · simp only [denied, if_false]
        exact confined_throw allowed

theorem confined_dispatch (host : Host σ) (services : HarnessServices σ μ)
    (grants : PermissionGrants σ) (name : String) (arguments : Arguments) :
    Confined spec benign (dispatch host services grants name arguments) := by
  apply
    confined_bind
      (confined_modifyGet allows fun world => ⟨rfl, rfl, rfl, rfl⟩)
  intro _
  apply
    confined_bind
      (confined_execute allows services grants (admits.callDenied _))
  intro (verdict, result)
  have answered := confined_answerCall allows admits failureBenign host
  by_cases failed : result.ok = false
  · simp only [failed, if_true]
    apply confined_bind (confined_record allows (admits.callFailed _ _))
    exact fun _ => answered _ verdict result
  · simp only [failed]
    exact answered _ verdict result

theorem confined_tool (host : Host σ) (services : HarnessServices σ μ)
    (grants : PermissionGrants σ) (name : String) (arguments : Arguments) :
    Confined spec benign (tool host services grants name arguments) := by
  unfold tool
  cases wiredCall services name arguments with
  | none => exact confined_pure _
  | some passed =>
      exact
        confined_dispatch allows admits failureBenign host services grants name
          passed

end Tool

omit [Composes spec] in
/-- The handler around the agent run raises, whatever it is given. -/
theorem convertUsageLimit_eq_throw (exc : TurnExc) :
    ∃ raised, (convertUsageLimit exc : Turn σ μ α) = throw raised := by
  cases exc with
  | toolError message => exact ⟨_, rfl⟩
  | repeatedFailure message => exact ⟨_, rfl⟩
  | budgetExhausted message => exact ⟨_, rfl⟩
  | outside raised =>
      cases raised with
      | permissionDenied message => exact ⟨_, rfl⟩
      | usageLimitExceeded message => exact ⟨_, rfl⟩
      | other className message => exact ⟨_, rfl⟩

variable (allows : Allows spec benign safe)
include allows

theorem confined_settleBudget
    (settling : ∀ (world : World σ μ) status, spec world [] { world with status })
    (budgetBenign : ∀ message, benign (.budgetExhausted message))
    (host : Host σ) (services : HarnessServices σ μ) (usage : RunUsage) :
    Confined spec benign (settleBudget host services usage) := by
  apply confined_bind (confined_get)
  intro world
  apply
    confined_bind (confined_recordUsage allows settling host services _ _ _)
  intro _
  apply confined_bind (confined_checkWallClock allows settling host services)
  intro exhausted
  cases exhausted with
  | false => exact confined_pure _
  | true =>
      apply confined_bind (confined_get)
      exact fun _ => confined_throw (budgetBenign _)

theorem confined_rememberTurn (admits : Agent.AdmitsRuns safe .extraction)
    (startSafe : ∀ prompt, safe (.agentStarted .extraction prompt []))
    (host : Host σ) (flow : SingleAgentFlow σ) (ctx : RunContext)
    {services : HarnessServices σ μ}
    (allowsMemory : AllowsMemory spec services.memory)
    (request output : String) :
    Confined spec benign
      (rememberTurn host flow ctx services request output) := by
  have factsConfined :
      Confined spec benign
        (turnFacts host flow request output ctx.userScope :
          Turn σ μ (List MemoryItem)) := by
    unfold turnFacts
    cases flow.factExtractor with
    | some extractor =>
        exact
          extractor.confined_extract allows admits host request output flowName
            startSafe
    | none =>
        apply confined_bind (confined_newMemoryItem allows host _ _ _)
        exact fun _ => confined_pure _
  unfold rememberTurn
  split
  · apply confined_bind factsConfined
    intro facts
    split
    · exact confined_remember allows allowsMemory facts _
    · exact confined_pure _
  · exact confined_pure _

end SingleAgentFlow

/-! ## The orchestrator flow -/

namespace OrchestratorFlow

/-- The events of the orchestrator flow, once its agents are started. -/
structure AdmitsFlow (safe : Interaction → Prop) : Prop where
  runs : ∀ role, Agent.AdmitsRuns safe role
  callDenied : ∀ call, safe (.callDenied call)
  raisedOnDenial :
    ∀ call message,
      safe (.raisedOnDenial call (.outside (.permissionDenied message)))

variable (allows : Allows spec benign safe) (admits : AdmitsFlow safe)
include allows admits

theorem confined_runAgent (host : Host σ) (role : AgentRole) (model : Model σ α)
    {tool : String → Arguments → Turn σ μ ToolReply}
    (toolConfined : ∀ name arguments, Confined spec benign (tool name arguments))
    {prompt : String} {memory : List String}
    (startSafe : safe (.agentStarted role prompt memory)) :
    Confined spec benign (runAgent host role model tool prompt memory) := by
  apply
    confined_bind
      (Agent.confined_run allows (admits.runs role) host none model toolConfined
        startSafe)
  exact fun _ => confined_pure _

omit allows in
theorem runAgent_starts
    (allows : Allows (Only safe : World σ μ → _ → World σ μ → Prop) benign safe)
    (host : Host σ) (role : AgentRole) (model : Model σ α)
    {tool : String → Arguments → Turn σ μ ToolReply}
    (toolConfined :
      ∀ name arguments, Confined (Only safe) benign (tool name arguments))
    (prompt : String) (memory : List String) (before : World σ μ) :
    Ends World.trace (runAgent host role model tool prompt memory) before
      fun _ events _ =>
        ∃ later, events = .agentStarted role prompt memory :: later ∧
          ∀ event ∈ later, safe event := by
  apply
    ends_bind
      (Agent.run_starts (admits.runs role) allows host none model toolConfined
        prompt memory before)
  · exact fun _ _ _ starts => starts
  · intro result events after starts
    refine ends_pure ?_
    rw [List.append_nil]
    exact starts

theorem confined_mcpTool (flow : OrchestratorFlow σ)
    (services : HarnessServices σ μ) (name : String) (arguments : Arguments) :
    Confined spec benign (mcpTool flow services name arguments) := by
  apply confined_attempt_bind (confined_outside allows _)
  intro outcome outcomeBenign
  cases outcome with
  | ok admitted => exact confined_outside allows _
  | error exc =>
      have allowed : benign exc := outcomeBenign exc rfl
      cases exc with
      | toolError message => exact confined_throw allowed
      | repeatedFailure message => exact confined_throw allowed
      | budgetExhausted message => exact confined_throw allowed
      | outside raised =>
          cases raised with
          | usageLimitExceeded message => exact confined_throw allowed
          | other className message => exact confined_throw allowed
          | permissionDenied message =>
              apply confined_bind (confined_record allows (admits.callDenied _))
              intro _
              apply
                confined_bind
                  (confined_record allows (admits.raisedOnDenial _ _))
              exact fun _ => confined_throw allowed

theorem confined_work (host : Host σ) (flow : OrchestratorFlow σ)
    (services : HarnessServices σ μ) (grants : PermissionGrants σ)
    (request : String)
    (startSafe : ∀ prompt, safe (.agentStarted .retrieval prompt []))
    (worker : Worker) :
    Confined spec benign (work host flow services grants request worker) := by
  have toolWorkerConfined :
      ∀ toolName : String,
        Confined spec benign (toolWorker flow services grants toolName) := by
    intro toolName
    apply
      confined_bind
        (confined_execute allows services grants (admits.callDenied _))
    exact fun _ => confined_pure _
  cases worker with
  | account => exact toolWorkerConfined "account_lookup"
  | meeting => exact toolWorkerConfined "meeting_history"
  | retrieval =>
      exact
        confined_runAgent allows admits host .retrieval flow.retrievalModel
          (confined_mcpTool allows admits flow services) (startSafe _)

omit allows admits in
/-- The workers run to their ends, and what they raise is benign. -/
theorem runWorkers_ends {worker : Worker → Turn σ μ String}
    (workerConfined : ∀ next, Confined spec benign (worker next))
    (order : List Worker) (before : World σ μ) :
    Ends World.trace (runWorkers worker order) before
      fun outcome events after =>
        spec before events after ∧
          ∃ outcomes, outcome = .ok outcomes ∧
            ∀ exc, firstFailure outcomes = some exc → benign exc := by
  induction order generalizing before with
  | nil =>
      apply ends_pure
      refine ⟨Composes.nil before, [], rfl, ?_⟩
      intro exc failed
      cases failed
  | cons next rest inductionHypothesis =>
      obtain ⟨events, appended, kept, outcomeBenign⟩ :=
        workerConfined next before
      refine ends_bind_of_ok (run_attempt (worker next) before) appended ?_
      apply ends_bind (inductionHypothesis _)
      · intro exc later after ⟨_, outcomes, returned, _⟩
        cases returned
      · intro outcomes later after ⟨laterKept, same, returned, laterBenign⟩
        cases returned
        refine ends_pure ⟨?_, _, rfl, ?_⟩
        · rw [List.append_nil]
          exact Composes.append kept laterKept
        · intro exc failed
          cases own : answer ((worker next).run before) with
          | ok output =>
              rw [own] at failed
              exact laterBenign exc failed
          | error raised =>
              rw [own] at failed
              cases failed
              exact outcomeBenign exc own

omit admits in
theorem confined_gather (flow : OrchestratorFlow σ)
    {worker : Worker → Turn σ μ String}
    (workerConfined : ∀ next, Confined spec benign (worker next)) :
    Confined spec benign (gather flow worker) := by
  apply confined_bind (confined_outside allows _)
  intro order before
  apply ends_bind (runWorkers_ends workerConfined order.workers before)
  · intro exc events after ⟨_, outcomes, returned, _⟩
    cases returned
  · intro outcomes events after ⟨kept, same, returned, outcomesBenign⟩
    cases returned
    have stillKept : spec before (events ++ []) after := by
      rw [List.append_nil]
      exact kept
    cases failed : firstFailure outcomes with
    | none =>
        refine ends_pure ⟨stillKept, ?_⟩
        intro exc equal
        cases equal
    | some exc =>
        refine ends_throw ⟨stillKept, ?_⟩
        intro other equal
        cases equal
        exact outcomesBenign exc failed

theorem confined_review (host : Host σ) (flow : OrchestratorFlow σ)
    (ctx : RunContext) (draft : SynthesisOutput) (sources : String)
    {memory : List String}
    (startSafe : ∀ prompt, safe (.agentStarted .critic prompt memory)) :
    Confined spec benign
      (review host flow ctx draft sources memory :
        Turn σ μ SynthesisOutput) := by
  unfold review
  split
  · exact
      confined_runAgent allows admits host .critic flow.criticModel
        (Agent.confined_noTools host) (startSafe _)
  · exact confined_pure draft

theorem confined_rememberTurn (host : Host σ) (flow : OrchestratorFlow σ)
    (ctx : RunContext) {services : HarnessServices σ μ}
    (allowsMemory : AllowsMemory spec services.memory)
    (request summary : String)
    (startSafe : ∀ prompt, safe (.agentStarted .extraction prompt [])) :
    Confined spec benign
      (rememberTurn host flow ctx services request summary) := by
  unfold rememberTurn
  split
  · rename_i extractor _ _
    apply
      confined_bind
        (extractor.confined_extract allows (admits.runs .extraction) host request
          summary flowName startSafe)
    intro facts
    split
    · exact confined_remember allows allowsMemory facts _
    · exact confined_pure _
  · exact confined_pure _

/-- The orchestrator flow raises what outside code raises, and nothing else. -/
theorem confined_run (host : Host σ) (flow : OrchestratorFlow σ)
    (request : String) (ctx : RunContext) {services : HarnessServices σ μ}
    (allowsMemory : AllowsMemory spec services.memory)
    (startSafe :
      ∀ role prompt memory, safe (.agentStarted role prompt memory)) :
    Confined spec benign (run host flow request ctx services) := by
  apply
    confined_bind
      (confined_gather allows flow
        (confined_work allows admits host flow services
          (grantsFor services.approvalGate) request
          fun prompt => startSafe .retrieval prompt []))
  intro gathered
  apply
    confined_bind (confined_recallContext allows allowsMemory ctx request)
  intro memory
  apply
    confined_bind
      (confined_runAgent allows admits host .synthesis flow.synthesisModel
        (Agent.confined_noTools host) (startSafe .synthesis _ memory))
  intro draft
  apply
    confined_bind
      (confined_review allows admits host flow ctx draft _
        fun prompt => startSafe .critic prompt memory)
  intro synthesis
  apply
    confined_bind
      (confined_rememberTurn allows admits host flow ctx allowsMemory request
        synthesis.summary fun prompt => startSafe .extraction prompt [])
  exact fun _ => confined_pure _

end OrchestratorFlow

/-! ## The conversion of a flow's exception -/

/-- Raised by outside code, and not as a `PermissionDenied`. -/
def TurnExc.Foreign (exc : TurnExc) : Prop :=
  ∃ raised, exc = .outside raised ∧ raised.isPermissionDenied = false

namespace AgentLoop

/-- `run_turn` converts a `PermissionDenied` of the flow. -/
theorem confined_convert (exc : TurnExc) :
    Confined spec
      (fun raised => (∃ outside, exc = .outside outside) → raised.Foreign)
      (convert exc : Turn σ μ FlowResult) := by
  have harnessOwn :
      ∀ own : TurnExc, (∀ raised, own ≠ .outside raised) →
        (∃ raised, own = .outside raised) → own.Foreign := by
    intro own notOutside ⟨raised, equal⟩
    exact absurd equal (notOutside raised)
  cases exc with
  | toolError message =>
      exact confined_throw (harnessOwn _ fun _ equal => by cases equal)
  | repeatedFailure message => exact confined_pure _
  | budgetExhausted message => exact confined_pure _
  | outside raised =>
      cases raised with
      | permissionDenied message => exact confined_pure _
      | usageLimitExceeded message =>
          exact confined_throw fun _ => ⟨_, rfl, rfl⟩
      | other className message =>
          exact confined_throw fun _ => ⟨_, rfl, rfl⟩

end AgentLoop

end FableHarness
