import FableHarness.Flows.MemoryUse
import FableHarness.Library.Lockstep

/-!
# Turns over two memories

A memory store is simulated by another one, whose state may be of another kind, if
recalls and remembers under the scope of the turn are in lockstep.  Then whole
turns are: they do the same to everything but the memory, and end alike.
-/

namespace FableHarness

open ExceptionState

variable {σ μ ν α β : Type}

/-- The world with another memory. -/
def World.swapMemory (world : World σ μ) (memory : ν) : World σ ν where
  env := world.env
  memory := memory
  clock := world.clock
  status := world.status
  metadata := world.metadata
  detector := world.detector
  callCount := world.callCount
  trace := world.trace

/-- The worlds differ in their memories only, and these are related. -/
inductive World.Paired (linked : μ → ν → Prop) : World σ μ → World σ ν → Prop
  | intro (world : World σ μ) (memory : ν) (related : linked world.memory memory) :
      Paired linked world (world.swapMemory memory)

abbrev Turn.Lockstep (linked : μ → ν → Prop) (program : Turn σ μ α)
    (other : Turn σ ν α) : Prop :=
  ExceptionState.Lockstep (World.Paired linked) Eq program other

/-- Under this scope the operations of the stores are in lockstep. -/
structure MemoryStore.Simulated (linked : μ → ν → Prop) (scope : String)
    (store : MemoryStore μ) (other : MemoryStore ν) : Prop where
  recalling :
    ∀ query k,
      ExceptionState.Lockstep linked Eq (store.recallItems query scope k)
        (other.recallItems query scope k)
  remembering :
    ∀ items,
      ExceptionState.Lockstep linked Eq (store.remember items scope)
        (other.remember items scope)
  invalidating :
    ∀ predicate, predicate.scope = scope →
      ExceptionState.Lockstep linked Eq (store.invalidate predicate)
        (other.invalidate predicate)

theorem simulated_null (linked : μ → ν → Prop) (scope : String) :
    MemoryStore.Simulated linked scope (nullMemoryStore μ) (nullMemoryStore ν) where
  recalling _ _ := lockstep_pure rfl
  remembering _ := lockstep_pure rfl
  invalidating _ _ := lockstep_pure rfl

variable {linked : μ → ν → Prop}

/-! ## Primitives -/

namespace Turn

theorem lockstep_outside (program : Py σ α) :
    Lockstep linked (outside program : Turn σ μ α) (outside program) := by
  apply lockstep_focus _ (lockstep_self program)
  · rintro world _ ⟨memory, related⟩
    rfl
  · rintro world _ ⟨memory, related⟩ env _ rfl
    exact .intro { world with env } memory related

theorem lockstep_inMemory {program : Py μ α} {other : Py ν α}
    (programs : ExceptionState.Lockstep linked Eq program other) :
    Lockstep linked (inMemory program : Turn σ μ α) (inMemory other) := by
  apply lockstep_focus _ programs
  · rintro world _ ⟨memory, related⟩
    exact related
  · rintro world _ ⟨memory, related⟩ part otherPart parts
    exact .intro { world with memory := part } otherPart parts

/-- A step that neither reads nor writes the memory. -/
theorem lockstep_step {step : World σ μ → α × World σ μ}
    {other : World σ ν → α × World σ ν}
    (beside :
      ∀ world memory,
        other (world.swapMemory memory) =
            ((step world).1, (step world).2.swapMemory memory) ∧
          (step world).2.memory = world.memory) :
    Lockstep linked (modifyGet step : Turn σ μ α) (modifyGet other) := by
  apply lockstep_modifyGet
  rintro world _ ⟨memory, related⟩
  obtain ⟨same, kept⟩ := beside world memory
  rw [same]
  refine ⟨rfl, .intro _ memory ?_⟩
  rw [kept]
  exact related

theorem lockstep_record (event : Interaction) :
    Lockstep linked (record event : Turn σ μ Unit) (record event) :=
  lockstep_step fun _ _ => ⟨rfl, rfl⟩

theorem lockstep_monotonic (host : Host σ) :
    Lockstep linked (monotonic host : Turn σ μ ℚ) (monotonic host) := by
  apply lockstep_seq (lockstep_outside _)
  exact fun _ => lockstep_step fun _ _ => ⟨rfl, rfl⟩

theorem lockstep_stamp (key : String) (value : StampValue) :
    Lockstep linked (stamp key value : Turn σ μ Unit) (stamp key value) :=
  lockstep_step fun _ _ => ⟨rfl, rfl⟩

section Services

variable (host : Host σ) (services : HarnessServices σ μ) (memory : MemoryStore ν)

theorem lockstep_recordUsage (inputTokens outputTokens toolCalls : Nat) :
    Lockstep linked (recordUsage host services inputTokens outputTokens toolCalls)
      (recordUsage host (services.swapMemory memory) inputTokens outputTokens
        toolCalls) := by
  apply lockstep_seq (lockstep_monotonic host)
  exact fun _ => lockstep_step fun _ _ => ⟨rfl, rfl⟩

theorem lockstep_checkWallClock :
    Lockstep linked (checkWallClock host services)
      (checkWallClock host (services.swapMemory memory)) := by
  apply lockstep_seq (lockstep_monotonic host)
  exact fun _ => lockstep_step fun _ _ => ⟨rfl, rfl⟩

theorem lockstep_execute (call : ToolCall) (grants : PermissionGrants σ) :
    Lockstep linked (execute services call grants)
      (execute (services.swapMemory memory) call grants) := by
  apply lockstep_seq (lockstep_outside _)
  intro (verdict, result)
  by_cases denied : verdict = .denied
  · simp only [denied, if_true]
    apply lockstep_seq (lockstep_record _)
    exact fun _ => lockstep_pure rfl
  · simp only [denied, if_false]
    exact lockstep_pure rfl

section Memory

variable {services memory} {ctx : RunContext}
  (simulated : services.memory.Simulated linked ctx.userScope memory)
include simulated

theorem lockstep_recallContext (request : String) :
    Lockstep linked (recallContext services ctx request)
      (recallContext (services.swapMemory memory) ctx request) := by
  unfold recallContext
  by_cases memoryOn : ctx.ablations.memoryOn = true
  · rw [if_pos memoryOn, if_pos memoryOn]
    apply lockstep_seq (lockstep_inMemory (simulated.recalling request 5))
    exact fun _ => lockstep_pure rfl
  · rw [if_neg memoryOn, if_neg memoryOn]
    exact lockstep_pure rfl

theorem lockstep_remember (facts : List MemoryItem) :
    Lockstep linked (remember services facts ctx.userScope)
      (remember (services.swapMemory memory) facts ctx.userScope) := by
  apply lockstep_seq (lockstep_inMemory (simulated.remembering facts))
  exact fun _ => lockstep_record _

end Memory

end Services

end Turn

/-! ## Agent runs -/

namespace Agent

variable {role : AgentRole}

theorem lockstep_raiseIf (failure : Option PyExc) :
    Turn.Lockstep linked (raiseIf failure : Turn σ μ Unit) (raiseIf failure) := by
  cases failure with
  | none => exact lockstep_pure rfl
  | some exc => exact lockstep_throw _

theorem lockstep_charge (limits : Option UsageLimits) (usage : RunUsage)
    (response : ModelResponse) :
    Turn.Lockstep linked (charge role limits usage response : Turn σ μ RunUsage)
      (charge role limits usage response) := by
  apply lockstep_seq (Turn.lockstep_record _)
  intro _
  apply lockstep_seq (lockstep_raiseIf _)
  exact fun _ => lockstep_pure rfl

section Tools

variable {tool : String → Arguments → Turn σ μ ToolReply}
  {otherTool : String → Arguments → Turn σ ν ToolReply}
  (tools : ∀ name arguments, Turn.Lockstep linked (tool name arguments)
    (otherTool name arguments))
  (limits : Option UsageLimits)
include tools

theorem lockstep_callTool (usage : RunUsage) (name : String)
    (arguments : Arguments) :
    Turn.Lockstep linked (callTool role limits tool usage name arguments)
      (callTool role limits otherTool usage name arguments) := by
  apply lockstep_seq (lockstep_raiseIf _)
  intro _
  apply lockstep_seq (tools name arguments)
  intro reply
  cases reply with
  | value output =>
      apply lockstep_seq (Turn.lockstep_record _)
      exact fun _ => lockstep_pure rfl
  | retry message => exact lockstep_pure rfl

theorem lockstep_drive (behaviour : ModelRun α) :
    ∀ usage,
      Turn.Lockstep linked (drive role limits tool usage behaviour)
        (drive role limits otherTool usage behaviour) := by
  induction behaviour with
  | answer response output messages =>
      intro usage
      apply lockstep_seq (lockstep_charge limits usage response)
      exact fun _ => lockstep_pure rfl
  | raises exc =>
      intro usage
      exact lockstep_throw _
  | call response name arguments next inductionHypothesis =>
      intro usage
      apply lockstep_seq (lockstep_charge limits usage response)
      intro charged
      apply lockstep_seq (lockstep_callTool tools limits charged name arguments)
      exact fun replied => inductionHypothesis replied.1 replied.2

theorem lockstep_run (host : Host σ) (model : Model σ α) (prompt : String)
    (memory : List String) :
    Turn.Lockstep linked (Agent.run host role limits model tool prompt memory)
      (Agent.run host role limits model otherTool prompt memory) := by
  apply lockstep_seq (Turn.lockstep_record _)
  intro _
  apply lockstep_seq (Turn.lockstep_outside _)
  intro behaviour
  apply lockstep_seq (lockstep_drive tools limits behaviour {})
  intro result
  apply lockstep_seq (Turn.lockstep_monotonic host)
  intro time
  apply lockstep_seq (Turn.lockstep_record _)
  exact fun _ => lockstep_pure rfl

end Tools

theorem lockstep_noTools (host : Host σ) (name : String) (arguments : Arguments) :
    Turn.Lockstep linked (noTools host name arguments : Turn σ μ ToolReply)
      (noTools host name arguments) :=
  lockstep_pure rfl

end Agent

/-! ## Extraction -/

theorem lockstep_newMemoryItem (host : Host σ) (content scope source : String) :
    Turn.Lockstep linked
      (newMemoryItem host content scope source : Turn σ μ MemoryItem)
      (newMemoryItem host content scope source) := by
  apply lockstep_seq (Turn.lockstep_outside _)
  exact fun _ => lockstep_pure rfl

theorem FactExtractor.lockstep_extract (host : Host σ)
    (extractor : FactExtractor σ) (request response source : String) :
    Turn.Lockstep linked
      (extractor.extract host request response source :
        Turn σ μ (List MemoryItem))
      (extractor.extract host request response source) := by
  apply
    lockstep_seq
      (Agent.lockstep_run (Agent.lockstep_noTools host) none host extractor.model _ [])
  intro result
  apply lockstep_mapM
  exact fun fact => lockstep_newMemoryItem host fact.content "" source

section Flows

variable (host : Host σ) {services : HarnessServices σ μ} {memory : MemoryStore ν}
  {ctx : RunContext}
  (simulated : services.memory.Simulated linked ctx.userScope memory)

/-! ## The single-agent flow -/

namespace SingleAgentFlow

theorem lockstep_answerCall (call : ToolCall) (verdict : Verdict)
    (result : ToolResult) :
    Turn.Lockstep linked (answerCall host call verdict result : Turn σ μ ToolReply)
      (answerCall host call verdict result) := by
  apply lockstep_seq (Turn.lockstep_step fun _ _ => ⟨rfl, rfl⟩)
  intro raised
  cases failure raised result with
  | none => exact lockstep_pure rfl
  | some exc =>
      by_cases denied : verdict = .denied
      · simp only [denied, if_true]
        apply lockstep_seq (Turn.lockstep_record _)
        exact fun _ => lockstep_throw _
      · simp only [denied, if_false]
        exact lockstep_throw _

theorem lockstep_dispatch (grants : PermissionGrants σ) (name : String)
    (arguments : Arguments) :
    Turn.Lockstep linked (dispatch host services grants name arguments)
      (dispatch host (services.swapMemory memory) grants name arguments) := by
  apply lockstep_seq (Turn.lockstep_step fun _ _ => ⟨rfl, rfl⟩)
  intro _
  apply lockstep_seq (Turn.lockstep_execute services memory _ grants)
  intro (verdict, result)
  by_cases failed : result.ok = false
  · simp only [failed, if_true]
    apply lockstep_seq (Turn.lockstep_record _)
    exact fun _ => lockstep_answerCall host _ verdict result
  · simp only [failed]
    exact lockstep_answerCall host _ verdict result

theorem lockstep_tool (grants : PermissionGrants σ) (name : String)
    (arguments : Arguments) :
    Turn.Lockstep linked (tool host services grants name arguments)
      (tool host (services.swapMemory memory) grants name arguments) := by
  have same :
      wiredCall (services.swapMemory memory) name arguments =
        wiredCall services name arguments :=
    rfl
  unfold tool
  rw [same]
  cases wiredCall services name arguments with
  | none => exact lockstep_pure rfl
  | some passed => exact lockstep_dispatch host grants name passed

theorem lockstep_convertUsageLimit (exc : TurnExc) :
    Turn.Lockstep linked (convertUsageLimit exc : Turn σ μ α)
      (convertUsageLimit exc) := by
  cases exc with
  | outside raised => cases raised <;> exact lockstep_throw _
  | toolError message => exact lockstep_throw _
  | repeatedFailure message => exact lockstep_throw _
  | budgetExhausted message => exact lockstep_throw _

theorem lockstep_settleBudget (usage : RunUsage) :
    Turn.Lockstep linked (settleBudget host services usage)
      (settleBudget host (services.swapMemory memory) usage) := by
  apply lockstep_bind lockstep_get
  rintro world _ ⟨held, related⟩
  apply lockstep_seq (Turn.lockstep_recordUsage host services memory _ _ _)
  intro _
  apply lockstep_seq (Turn.lockstep_checkWallClock host services memory)
  intro exhausted
  cases exhausted with
  | false => exact lockstep_pure rfl
  | true =>
      apply lockstep_bind lockstep_get
      rintro last _ ⟨held, related⟩
      exact lockstep_throw _

theorem lockstep_turnFacts (flow : SingleAgentFlow σ)
    (request output userScope : String) :
    Turn.Lockstep linked
      (turnFacts host flow request output userScope : Turn σ μ (List MemoryItem))
      (turnFacts host flow request output userScope) := by
  unfold turnFacts
  cases flow.factExtractor with
  | some extractor => exact extractor.lockstep_extract host request output flowName
  | none =>
      apply lockstep_seq (lockstep_newMemoryItem host _ _ _)
      exact fun _ => lockstep_pure rfl

include simulated

theorem lockstep_rememberTurn (flow : SingleAgentFlow σ) (request output : String) :
    Turn.Lockstep linked (rememberTurn host flow ctx services request output)
      (rememberTurn host flow ctx (services.swapMemory memory) request output) := by
  unfold rememberTurn
  split
  · apply lockstep_seq (lockstep_turnFacts host flow request output ctx.userScope)
    intro facts
    split
    · exact Turn.lockstep_remember simulated facts
    · exact lockstep_pure rfl
  · exact lockstep_pure rfl

theorem lockstep_run (flow : SingleAgentFlow σ) (request : String) :
    Turn.Lockstep linked (flow.run host request ctx services)
      (flow.run host request ctx (services.swapMemory memory)) := by
  apply lockstep_seq (Turn.lockstep_step fun _ _ => ⟨rfl, rfl⟩)
  intro _
  apply lockstep_seq (Turn.lockstep_recallContext simulated request)
  intro contents
  have tools :
      ∀ name arguments,
        Turn.Lockstep linked
          (tool host services (grantsFor services.approvalGate) name arguments)
          (tool host (services.swapMemory memory) (grantsFor services.approvalGate)
            name arguments) :=
    lockstep_tool host (grantsFor services.approvalGate)
  apply
    lockstep_seq
      (lockstep_tryCatch
        (Agent.lockstep_run tools (some services.budget.usageLimits) host flow.model
          (prompt request contents) contents)
        lockstep_convertUsageLimit)
  intro result
  apply lockstep_seq (lockstep_settleBudget host result.usage)
  intro _
  apply lockstep_seq (lockstep_rememberTurn host simulated flow request result.output)
  exact fun _ => lockstep_pure rfl

end SingleAgentFlow

/-! ## The orchestrator flow -/

namespace OrchestratorFlow

theorem lockstep_runAgent {tool : String → Arguments → Turn σ μ ToolReply}
    {otherTool : String → Arguments → Turn σ ν ToolReply}
    (tools : ∀ name arguments, Turn.Lockstep linked (tool name arguments)
      (otherTool name arguments))
    (role : AgentRole) (model : Model σ α) (prompt : String)
    (contents : List String) :
    Turn.Lockstep linked (runAgent host role model tool prompt contents)
      (runAgent host role model otherTool prompt contents) := by
  apply lockstep_seq (Agent.lockstep_run tools none host model prompt contents)
  exact fun _ => lockstep_pure rfl

theorem lockstep_mcpTool (flow : OrchestratorFlow σ) (name : String)
    (arguments : Arguments) :
    Turn.Lockstep linked (mcpTool flow services name arguments)
      (mcpTool flow (services.swapMemory memory) name arguments) := by
  apply lockstep_seq (lockstep_attempt (Turn.lockstep_outside _))
  intro outcome
  cases outcome with
  | ok admitted => exact Turn.lockstep_outside _
  | error exc =>
      cases exc with
      | toolError message => exact lockstep_throw _
      | repeatedFailure message => exact lockstep_throw _
      | budgetExhausted message => exact lockstep_throw _
      | outside raised =>
          cases raised with
          | usageLimitExceeded message => exact lockstep_throw _
          | other className message => exact lockstep_throw _
          | permissionDenied message =>
              apply lockstep_seq (Turn.lockstep_record _)
              intro _
              apply lockstep_seq (Turn.lockstep_record _)
              exact fun _ => lockstep_throw _

theorem lockstep_work (flow : OrchestratorFlow σ) (grants : PermissionGrants σ)
    (request : String) (worker : Worker) :
    Turn.Lockstep linked (work host flow services grants request worker)
      (work host flow (services.swapMemory memory) grants request worker) := by
  have toolWorkers :
      ∀ toolName : String,
        Turn.Lockstep linked (toolWorker flow services grants toolName)
          (toolWorker flow (services.swapMemory memory) grants toolName) := by
    intro toolName
    apply lockstep_seq (Turn.lockstep_execute services memory _ grants)
    exact fun _ => lockstep_pure rfl
  cases worker with
  | account => exact toolWorkers "account_lookup"
  | meeting => exact toolWorkers "meeting_history"
  | retrieval =>
      exact
        lockstep_runAgent host (lockstep_mcpTool flow) .retrieval
          flow.retrievalModel _ []

theorem lockstep_runWorkers {worker : Worker → Turn σ μ String}
    {other : Worker → Turn σ ν String}
    (workers : ∀ next, Turn.Lockstep linked (worker next) (other next))
    (order : List Worker) :
    Turn.Lockstep linked (runWorkers worker order) (runWorkers other order) := by
  induction order with
  | nil => exact lockstep_pure rfl
  | cons next rest inductionHypothesis =>
      apply lockstep_seq (lockstep_attempt (workers next))
      intro outcome
      apply lockstep_seq inductionHypothesis
      exact fun _ => lockstep_pure rfl

theorem lockstep_gather (flow : OrchestratorFlow σ)
    {worker : Worker → Turn σ μ String} {other : Worker → Turn σ ν String}
    (workers : ∀ next, Turn.Lockstep linked (worker next) (other next)) :
    Turn.Lockstep linked (gather flow worker) (gather flow other) := by
  apply lockstep_seq (Turn.lockstep_outside _)
  intro order
  apply lockstep_seq (lockstep_runWorkers workers order.workers)
  intro outcomes
  cases firstFailure outcomes with
  | none => exact lockstep_pure rfl
  | some exc => exact lockstep_throw exc

theorem lockstep_review (flow : OrchestratorFlow σ) (ctx : RunContext)
    (draft : SynthesisOutput) (sources : String) (contents : List String) :
    Turn.Lockstep linked
      (review host flow ctx draft sources contents : Turn σ μ SynthesisOutput)
      (review host flow ctx draft sources contents) := by
  unfold review
  split
  · exact
      lockstep_runAgent host (Agent.lockstep_noTools host) .critic flow.criticModel
        _ contents
  · exact lockstep_pure rfl

include simulated

theorem lockstep_rememberTurn (flow : OrchestratorFlow σ)
    (request summary : String) :
    Turn.Lockstep linked (rememberTurn host flow ctx services request summary)
      (rememberTurn host flow ctx (services.swapMemory memory) request summary) := by
  unfold rememberTurn
  split
  · rename_i extractor _ _
    apply lockstep_seq (extractor.lockstep_extract host request summary flowName)
    intro facts
    split
    · exact Turn.lockstep_remember simulated facts
    · exact lockstep_pure rfl
  · exact lockstep_pure rfl

theorem lockstep_run (flow : OrchestratorFlow σ) (request : String) :
    Turn.Lockstep linked (flow.run host request ctx services)
      (flow.run host request ctx (services.swapMemory memory)) := by
  have workers :
      ∀ worker,
        Turn.Lockstep linked
          (work host flow services (grantsFor services.approvalGate) request worker)
          (work host flow (services.swapMemory memory)
            (grantsFor services.approvalGate) request worker) :=
    lockstep_work host flow (grantsFor services.approvalGate) request
  apply lockstep_seq (lockstep_gather flow workers)
  intro gathered
  apply lockstep_seq (Turn.lockstep_recallContext simulated request)
  intro contents
  apply
    lockstep_seq
      (lockstep_runAgent host (Agent.lockstep_noTools host) .synthesis
        flow.synthesisModel _ contents)
  intro draft
  apply lockstep_seq (lockstep_review host flow ctx draft _ contents)
  intro synthesis
  apply
    lockstep_seq
      (lockstep_rememberTurn host simulated flow request synthesis.summary)
  exact fun _ => lockstep_pure rfl

end OrchestratorFlow

/-! ## The turn around the flow -/

namespace AgentLoop

theorem lockstep_route (ctx : RunContext) :
    Turn.Lockstep linked (route ctx services)
      (route ctx (services.swapMemory memory)) := by
  have same : (services.swapMemory memory).router = services.router := rfl
  unfold route
  rw [same]
  cases services.router with
  | none => exact lockstep_pure rfl
  | some router =>
      apply lockstep_seq (Turn.lockstep_outside _)
      intro decision
      apply lockstep_seq (Turn.lockstep_stamp _ _)
      intro _
      apply lockstep_seq (Turn.lockstep_stamp _ _)
      intro _
      apply lockstep_seq (Turn.lockstep_stamp _ _)
      intro _
      apply lockstep_seq (Turn.lockstep_stamp _ _)
      exact fun _ => lockstep_pure rfl

theorem lockstep_convert (exc : TurnExc) :
    Turn.Lockstep linked (convert exc : Turn σ μ FlowResult) (convert exc) := by
  cases exc with
  | toolError message => exact lockstep_throw _
  | repeatedFailure message => exact lockstep_pure rfl
  | budgetExhausted message => exact lockstep_pure rfl
  | outside raised =>
      cases raised with
      | permissionDenied message => exact lockstep_pure rfl
      | usageLimitExceeded message => exact lockstep_throw _
      | other className message => exact lockstep_throw _

theorem lockstep_stampResult (ctx : RunContext) (result : FlowResult) :
    Turn.Lockstep linked (stampResult ctx result : Turn σ μ Unit)
      (stampResult ctx result) := by
  apply lockstep_seq (Turn.lockstep_stamp _ _)
  intro _
  apply lockstep_seq (Turn.lockstep_stamp _ _)
  intro _
  apply lockstep_bind lockstep_get
  rintro world _ ⟨held, related⟩
  apply lockstep_seq (Turn.lockstep_stamp _ _)
  intro _
  apply lockstep_seq (Turn.lockstep_stamp _ _)
  intro _
  apply lockstep_seq (Turn.lockstep_stamp _ _)
  intro _
  apply lockstep_seq (Turn.lockstep_stamp _ _)
  intro _
  apply lockstep_seq (Turn.lockstep_stamp _ _)
  intro _
  exact Turn.lockstep_stamp _ _

include simulated

theorem lockstep_runTarget (single : SingleAgentFlow σ)
    (orchestrator : OrchestratorFlow σ) (target : String) :
    Turn.Lockstep linked
      ((harness host single orchestrator).runTarget ctx services target)
      ((harness host single orchestrator).runTarget ctx
        (services.swapMemory memory) target) := by
  have finishes :
      ∀ {program : Turn σ μ FlowResult} {other : Turn σ ν FlowResult},
        Turn.Lockstep linked program other →
          Turn.Lockstep linked
            (do
              let result ← tryCatch program convert
              stampResult ctx result
              return result)
            (do
              let result ← tryCatch other convert
              stampResult ctx result
              return result) := by
    intro program other programs
    apply lockstep_seq (lockstep_tryCatch programs lockstep_convert)
    intro result
    apply lockstep_seq (lockstep_stampResult ctx result)
    exact fun _ => lockstep_pure rfl
  unfold runTarget harness
  rw [get?_harnessFlows_eq, get?_harnessFlows_eq]
  by_cases isOrchestrator : target = OrchestratorFlow.flowName
  · rw [if_pos isOrchestrator, if_pos isOrchestrator]
    exact finishes (orchestrator.lockstep_run host simulated ctx.request)
  · rw [if_neg isOrchestrator, if_neg isOrchestrator]
    by_cases isSingle : target = SingleAgentFlow.flowName
    · rw [if_pos isSingle, if_pos isSingle]
      exact finishes (single.lockstep_run host simulated ctx.request)
    · rw [if_neg isSingle, if_neg isSingle]
      exact lockstep_pure rfl

theorem lockstep_runTurn (single : SingleAgentFlow σ)
    (orchestrator : OrchestratorFlow σ) :
    Turn.Lockstep linked
      ((harness host single orchestrator).runTurn ctx services)
      ((harness host single orchestrator).runTurn ctx
        (services.swapMemory memory)) := by
  rw [runTurn_eq, runTurn_eq]
  apply lockstep_seq (lockstep_route ctx)
  intro decision
  cases decision with
  | none => exact lockstep_runTarget host simulated single orchestrator _
  | some decision =>
      by_cases direct : decision.mode = .direct
      · simp only [direct, if_true]
        exact lockstep_pure rfl
      · simp only [direct, if_false]
        exact lockstep_runTarget host simulated single orchestrator _

end AgentLoop

end Flows

end FableHarness
