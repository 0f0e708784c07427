import FableHarness.Flows.PostTurn
import FableHarness.Library.Indifference

/-!
# What a turn does without looking at the memory

Everything but the recall and the memory write.  In particular both flows get
from the recalled contents to their answer without touching the memory.
-/

namespace FableHarness

open ExceptionState EventLog

variable {σ μ α : Type}

def World.withMemory (memory : μ) (world : World σ μ) : World σ μ :=
  { world with memory }

/-- The program neither reads nor writes the memory. -/
abbrev MemoryFree (program : Turn σ μ α) : Prop :=
  ∀ memory, Indifferent (World.withMemory memory) program

/-! ## What happens beside the memory -/

theorem memoryFree_bind {β : Type} {first : Turn σ μ α} {next : α → Turn σ μ β}
    (firstFree : MemoryFree first) (nextFree : ∀ value, MemoryFree (next value)) :
    MemoryFree (first >>= next) :=
  fun memory =>
    indifferent_bind (firstFree memory) fun value => nextFree value memory

theorem memoryFree_pure (value : α) : MemoryFree (pure value : Turn σ μ α) :=
  fun _ => indifferent_pure value

theorem memoryFree_throw (exc : TurnExc) :
    MemoryFree (throw exc : Turn σ μ α) :=
  fun _ => indifferent_throw exc

/-- A step that changes other components, and looks at other components. -/
theorem memoryFree_modifyGet {step : World σ μ → α × World σ μ}
    (commutes :
      ∀ memory world,
        step (World.withMemory memory world) =
          ((step world).1, World.withMemory memory (step world).2)) :
    MemoryFree (modifyGet step : Turn σ μ α) :=
  fun memory => indifferent_modifyGet (commutes memory)

namespace Turn

theorem memoryFree_outside (program : Py σ α) :
    MemoryFree (outside program : Turn σ μ α) :=
  fun _ => indifferent_focus program (fun _ => rfl) fun _ _ => rfl

theorem memoryFree_record (event : Interaction) :
    MemoryFree (record event : Turn σ μ Unit) :=
  memoryFree_modifyGet fun _ _ => rfl

theorem memoryFree_monotonic (host : Host σ) :
    MemoryFree (monotonic host : Turn σ μ ℚ) :=
  memoryFree_bind (memoryFree_outside _) fun _ =>
    memoryFree_modifyGet fun _ _ => rfl

theorem memoryFree_execute (services : HarnessServices σ μ) (call : ToolCall)
    (grants : PermissionGrants σ) :
    MemoryFree (execute services call grants) := by
  apply memoryFree_bind (memoryFree_outside _)
  intro (verdict, result)
  by_cases denied : verdict = .denied
  · simp only [denied, if_true]
    exact memoryFree_bind (memoryFree_record _) fun _ => memoryFree_pure _
  · simp only [denied, if_false]
    exact memoryFree_pure _

theorem memoryFree_recordUsage (host : Host σ) (services : HarnessServices σ μ)
    (inputTokens outputTokens toolCalls : Nat) :
    MemoryFree
      (recordUsage host services inputTokens outputTokens toolCalls) :=
  memoryFree_bind (memoryFree_monotonic host) fun _ =>
    memoryFree_modifyGet fun _ _ => rfl

theorem memoryFree_checkWallClock (host : Host σ)
    (services : HarnessServices σ μ) :
    MemoryFree (checkWallClock host services) :=
  memoryFree_bind (memoryFree_monotonic host) fun _ =>
    memoryFree_modifyGet fun _ _ => rfl

end Turn

namespace Agent

open Turn

theorem memoryFree_raiseIf (failure : Option PyExc) :
    MemoryFree (raiseIf failure : Turn σ μ Unit) := by
  cases failure with
  | none => exact memoryFree_pure ()
  | some exc => exact memoryFree_throw _

theorem memoryFree_charge (role : AgentRole) (limits : Option UsageLimits)
    (usage : RunUsage) (response : ModelResponse) :
    MemoryFree (charge role limits usage response : Turn σ μ RunUsage) := by
  apply memoryFree_bind (memoryFree_record _)
  intro _
  apply memoryFree_bind (memoryFree_raiseIf _)
  exact fun _ => memoryFree_pure _

variable {tool : String → Arguments → Turn σ μ ToolReply}
  (toolFree : ∀ name arguments, MemoryFree (tool name arguments))
include toolFree

theorem memoryFree_callTool (role : AgentRole) (limits : Option UsageLimits)
    (usage : RunUsage) (name : String) (arguments : Arguments) :
    MemoryFree (callTool role limits tool usage name arguments) := by
  apply memoryFree_bind (memoryFree_raiseIf _)
  intro _
  apply memoryFree_bind (toolFree name arguments)
  intro reply
  cases reply with
  | value output =>
      exact memoryFree_bind (memoryFree_record _) fun _ => memoryFree_pure _
  | retry message => exact memoryFree_pure _

theorem memoryFree_drive (role : AgentRole) (limits : Option UsageLimits)
    (behaviour : ModelRun α) :
    ∀ usage, MemoryFree (drive role limits tool usage behaviour) := by
  induction behaviour with
  | answer response output messages =>
      intro usage
      exact
        memoryFree_bind (memoryFree_charge role limits usage response) fun _ =>
          memoryFree_pure _
  | raises exc => exact fun _ => memoryFree_throw _
  | call response name arguments next inductionHypothesis =>
      intro usage
      apply memoryFree_bind (memoryFree_charge role limits usage response)
      intro charged
      apply
        memoryFree_bind
          (memoryFree_callTool toolFree role limits charged name arguments)
      exact fun replied => inductionHypothesis replied.1 replied.2

theorem memoryFree_run (host : Host σ) (role : AgentRole)
    (limits : Option UsageLimits) (model : Model σ α) (prompt : String)
    (memory : List String) :
    MemoryFree (Agent.run host role limits model tool prompt memory) := by
  apply memoryFree_bind (memoryFree_record _)
  intro _
  apply memoryFree_bind (memoryFree_outside _)
  intro behaviour
  apply memoryFree_bind (memoryFree_drive toolFree role limits behaviour {})
  intro result
  apply memoryFree_bind (memoryFree_monotonic host)
  intro time
  exact memoryFree_bind (memoryFree_record _) fun _ => memoryFree_pure _

omit toolFree in
theorem memoryFree_noTools (host : Host σ) (name : String)
    (arguments : Arguments) :
    MemoryFree (noTools host name arguments : Turn σ μ ToolReply) :=
  memoryFree_pure _

end Agent

/-! ## The single-agent flow -/

namespace SingleAgentFlow

open Turn

theorem memoryFree_answerCall (host : Host σ) (call : ToolCall)
    (verdict : Verdict) (result : ToolResult) :
    MemoryFree
      (answerCall host call verdict result : Turn σ μ ToolReply) := by
  apply memoryFree_bind (memoryFree_modifyGet fun _ _ => rfl)
  intro raised
  cases failure raised result with
  | none => exact memoryFree_pure _
  | some exc =>
      by_cases denied : verdict = .denied
      · simp only [denied, if_true]
        exact memoryFree_bind (memoryFree_record _) fun _ => memoryFree_throw exc
      · simp only [denied, if_false]
        exact memoryFree_throw exc

theorem memoryFree_dispatch (host : Host σ) (services : HarnessServices σ μ)
    (grants : PermissionGrants σ) (name : String) (arguments : Arguments) :
    MemoryFree (dispatch host services grants name arguments) := by
  apply memoryFree_bind (memoryFree_modifyGet fun _ _ => rfl)
  intro _
  apply memoryFree_bind (memoryFree_execute services _ grants)
  intro (verdict, result)
  by_cases failed : result.ok = false
  · simp only [failed, if_true]
    apply memoryFree_bind (memoryFree_record _)
    exact fun _ => memoryFree_answerCall host _ verdict result
  · simp only [failed]
    exact memoryFree_answerCall host _ verdict result

theorem memoryFree_tool (host : Host σ) (services : HarnessServices σ μ)
    (grants : PermissionGrants σ) (name : String) (arguments : Arguments) :
    MemoryFree (tool host services grants name arguments) := by
  unfold tool
  cases wiredCall services name arguments with
  | none => exact memoryFree_pure _
  | some passed => exact memoryFree_dispatch host services grants name passed

theorem memoryFree_settleBudget (host : Host σ) (services : HarnessServices σ μ)
    (usage : RunUsage) : MemoryFree (settleBudget host services usage) := by
  intro memory
  refine indifferent_get_bind ?counted ?settled
  case counted => exact fun _ => rfl
  intro world
  apply indifferent_bind (memoryFree_recordUsage host services _ _ _ memory)
  intro _
  apply indifferent_bind (memoryFree_checkWallClock host services memory)
  intro exhausted
  cases exhausted with
  | false => exact indifferent_pure _
  | true =>
      refine indifferent_get_bind ?reason ?raised
      case reason => exact fun _ => rfl
      exact fun _ => indifferent_throw _

theorem memoryFree_convertUsageLimit (exc : TurnExc) :
    MemoryFree (convertUsageLimit exc : Turn σ μ α) := by
  obtain ⟨raised, equal⟩ := convertUsageLimit_eq_throw (μ := μ) exc
  rw [equal]
  exact memoryFree_throw raised

/-- The answer to a prompt that is there already. -/
def respondTo (host : Host σ) (flow : SingleAgentFlow σ) (request : String)
    (services : HarnessServices σ μ) (memory : List String) :
    Turn σ μ (AgentResult String) := do
  let result ←
    tryCatch
      (Agent.run host .singleAgent (some services.budget.usageLimits) flow.model
        (tool host services (grantsFor services.approvalGate))
        (prompt request memory) memory)
      convertUsageLimit
  settleBudget host services result.usage
  return result

theorem memoryFree_respondTo (host : Host σ) (flow : SingleAgentFlow σ)
    (request : String) (services : HarnessServices σ μ) (memory : List String) :
    MemoryFree (respondTo host flow request services memory) := by
  apply memoryFree_bind ?caught
  case caught =>
    intro stored
    apply indifferent_tryCatch
    · exact
        Agent.memoryFree_run (memoryFree_tool host services _) host _ _ _ _ _
          stored
    · exact fun exc => memoryFree_convertUsageLimit exc stored
  intro result
  apply memoryFree_bind (memoryFree_settleBudget host services result.usage)
  exact fun _ => memoryFree_pure result

end SingleAgentFlow

/-! ## The orchestrator flow -/

namespace OrchestratorFlow

open Turn

theorem memoryFree_runAgent (host : Host σ) (role : AgentRole) (model : Model σ α)
    {tool : String → Arguments → Turn σ μ ToolReply}
    (toolFree : ∀ name arguments, MemoryFree (tool name arguments))
    (prompt : String) (memory : List String) :
    MemoryFree (runAgent host role model tool prompt memory) := by
  apply
    memoryFree_bind (Agent.memoryFree_run toolFree host role none model prompt memory)
  exact fun _ => memoryFree_pure _

theorem memoryFree_mcpTool (flow : OrchestratorFlow σ)
    (services : HarnessServices σ μ) (name : String) (arguments : Arguments) :
    MemoryFree (mcpTool flow services name arguments) := by
  apply memoryFree_bind fun memory =>
    indifferent_attempt (memoryFree_outside _ memory)
  intro outcome
  cases outcome with
  | ok passed => exact memoryFree_outside _
  | error exc =>
      cases exc with
      | toolError message => exact memoryFree_throw _
      | repeatedFailure message => exact memoryFree_throw _
      | budgetExhausted message => exact memoryFree_throw _
      | outside raised =>
          cases raised with
          | usageLimitExceeded message => exact memoryFree_throw _
          | other className message => exact memoryFree_throw _
          | permissionDenied message =>
              apply memoryFree_bind (memoryFree_record _)
              intro _
              apply memoryFree_bind (memoryFree_record _)
              exact fun _ => memoryFree_throw _

theorem memoryFree_work (host : Host σ) (flow : OrchestratorFlow σ)
    (services : HarnessServices σ μ) (grants : PermissionGrants σ)
    (request : String) (worker : Worker) :
    MemoryFree (work host flow services grants request worker) := by
  have toolWorkerFree :
      ∀ toolName : String, MemoryFree (toolWorker flow services grants toolName) := by
    intro toolName
    apply memoryFree_bind (memoryFree_execute services _ grants)
    exact fun _ => memoryFree_pure _
  cases worker with
  | account => exact toolWorkerFree "account_lookup"
  | meeting => exact toolWorkerFree "meeting_history"
  | retrieval =>
      exact
        memoryFree_runAgent host .retrieval flow.retrievalModel
          (memoryFree_mcpTool flow services) _ []

theorem memoryFree_runWorkers {worker : Worker → Turn σ μ String}
    (workerFree : ∀ next, MemoryFree (worker next)) (order : List Worker) :
    MemoryFree (runWorkers worker order) := by
  induction order with
  | nil => exact memoryFree_pure []
  | cons next rest inductionHypothesis =>
      apply memoryFree_bind fun memory =>
        indifferent_attempt (workerFree next memory)
      intro outcome
      apply memoryFree_bind inductionHypothesis
      exact fun _ => memoryFree_pure _

theorem memoryFree_gather (flow : OrchestratorFlow σ)
    {worker : Worker → Turn σ μ String}
    (workerFree : ∀ next, MemoryFree (worker next)) :
    MemoryFree (gather flow worker) := by
  apply memoryFree_bind (memoryFree_outside _)
  intro order
  apply memoryFree_bind (memoryFree_runWorkers workerFree order.workers)
  intro outcomes
  cases firstFailure outcomes with
  | none => exact memoryFree_pure _
  | some exc => exact memoryFree_throw exc

theorem memoryFree_review (host : Host σ) (flow : OrchestratorFlow σ)
    (ctx : RunContext) (draft : SynthesisOutput) (sources : String)
    (memory : List String) :
    MemoryFree
      (review host flow ctx draft sources memory :
        Turn σ μ SynthesisOutput) := by
  unfold review
  split
  · exact
      memoryFree_runAgent host .critic flow.criticModel
        (Agent.memoryFree_noTools host) _ memory
  · exact memoryFree_pure draft

end OrchestratorFlow

end FableHarness
