import FableHarness.Memory.Extraction

/-!
# The orchestrator flow

Three workers gather sources, a synthesis agent combines them, and a critic
agent, unless it is ablated, reviews the result.
-/

namespace FableHarness

open ExceptionState

inductive Worker where
  | account
  | meeting
  | retrieval
deriving DecidableEq, Repr

/-- An order in which the event loop can finish the workers. -/
structure GatherOrder where
  workers : List Worker
  complete : workers.Perm [.account, .meeting, .retrieval]

structure OrchestratorFlow (σ : Type) where
  retrievalModel : Model σ String
  synthesisModel : Model σ SynthesisOutput
  criticModel : Model σ SynthesisOutput
  /-- The retrieval server behind the MCP client. -/
  server : CallToolFunc σ
  gatherOrder : σ → GatherOrder × σ
  clientKey : String := "client_x"
  factExtractor : Option (FactExtractor σ) := none

namespace OrchestratorFlow

variable {σ μ : Type}

def flowName : String := "orchestrator"

/-- `_run_agent`: no usage limits, and only the output is kept. -/
def runAgent {α : Type} (host : Host σ) (role : AgentRole) (model : Model σ α)
    (tool : String → Arguments → Turn σ μ ToolReply) (prompt : String)
    (memory : List String) : Turn σ μ α := do
  let result ← Agent.run host role none model tool prompt memory
  return result.output

def unavailable (error : Option String) : String :=
  "[unavailable: " ++ error.getD "None" ++ "]"

def workerOutput (result : ToolResult) : String :=
  if result.ok then result.output.getD "None" else unavailable result.error

/-- `_worker` -/
def toolWorker (flow : OrchestratorFlow σ) (services : HarnessServices σ μ)
    (grants : PermissionGrants σ) (toolName : String) : Turn σ μ String := do
  let call : ToolCall :=
    ⟨toolName, [("client", .str flow.clientKey)], flowName⟩
  let (_, result) ← Turn.execute services call grants
  return workerOutput result

def toolset (services : HarnessServices σ μ) : RetrievalToolset σ where
  approvalGate := services.approvalGate
  riskTier := .readOnly
  flow := flowName

/-- The hook in front of the retrieval server; what the gate raises leaves the
agent run. -/
def mcpTool (flow : OrchestratorFlow σ) (services : HarnessServices σ μ)
    (name : String) (arguments : Arguments) : Turn σ μ ToolReply := do
  match ← attempt (Turn.outside ((toolset services).checkCall name arguments)) with
  | .ok () => Turn.outside (flow.server name arguments)
  | .error (.outside (.permissionDenied message)) =>
      let call := (toolset services).toolCall name arguments
      Turn.record (.callDenied call)
      Turn.record
        (.raisedOnDenial call (.outside (.permissionDenied message)))
      throw (.outside (.permissionDenied message))
  | .error exc => throw exc

/-- `_retrieval_worker` -/
def retrievalWorker (host : Host σ) (flow : OrchestratorFlow σ)
    (services : HarnessServices σ μ) (request : String) : Turn σ μ String :=
  runAgent host .retrieval flow.retrievalModel (mcpTool flow services)
    ("Search for product and market context relevant to: " ++ request) []

def work (host : Host σ) (flow : OrchestratorFlow σ)
    (services : HarnessServices σ μ) (grants : PermissionGrants σ)
    (request : String) : Worker → Turn σ μ String
  | .account => toolWorker flow services grants "account_lookup"
  | .meeting => toolWorker flow services grants "meeting_history"
  | .retrieval => retrievalWorker host flow services request

/-- Run workers one after the other; an exception does not stop the others. -/
def runWorkers (worker : Worker → Turn σ μ String) :
    List Worker → Turn σ μ (List (Worker × Except TurnExc String))
  | [] => return []
  | next :: rest => do
      let outcome ← attempt (worker next)
      let outcomes ← runWorkers worker rest
      return (next, outcome) :: outcomes

/-- The exception that reaches the awaiter of `gather`: that of the worker that
failed first. -/
def firstFailure (outcomes : List (Worker × Except TurnExc String)) :
    Option TurnExc :=
  outcomes.findSome? fun outcome =>
    match outcome.2 with
    | .error exc => some exc
    | .ok _ => none

def outputOf (outcomes : List (Worker × Except TurnExc String))
    (worker : Worker) : String :=
  match outcomes.lookup worker with
  | some (.ok output) => output
  | _ => ""

/-- `asyncio.gather` over the three workers.  They share nothing but the
outside world, so they are run one by one in the order in which the event loop
finishes them. -/
def gather (flow : OrchestratorFlow σ) (worker : Worker → Turn σ μ String) :
    Turn σ μ (Worker → String) := do
  let order ← Turn.outside (modifyGet flow.gatherOrder)
  let outcomes ← runWorkers worker order.workers
  match firstFailure outcomes with
  | some exc => throw exc
  | none => return outputOf outcomes

def memoryContext (memory : List String) : String :=
  if memory.isEmpty then
    ""
  else
    "\nRemembered client context: " ++ String.intercalate "; " memory

def sourcesBlock (request : String) (gathered : Worker → String)
    (memory : List String) : String :=
  "Request: " ++ request ++ "\n\nAccount [account]: " ++ gathered .account ++
    "\nMeeting history [meeting]: " ++ gathered .meeting ++
    "\nRetrieved context: " ++ gathered .retrieval ++ memoryContext memory

def criticPrompt (runtime : PyRuntime) (synthesis : SynthesisOutput)
    (sources : String) : String :=
  "Summary: " ++ synthesis.summary ++ "\nCitations: " ++
    runtime.repr (.arr (synthesis.citations.map Json.str)) ++
    "\n\nSources:\n" ++ sources

/-- The critic's version of a draft, unless the critic is ablated. -/
def review (host : Host σ) (flow : OrchestratorFlow σ) (ctx : RunContext)
    (draft : SynthesisOutput) (sources : String) (memory : List String) :
    Turn σ μ SynthesisOutput :=
  if ctx.ablations.criticOn then
    runAgent host .critic flow.criticModel (Agent.noTools host)
      (criticPrompt host.runtime draft sources) memory
  else
    return draft

def rememberTurn (host : Host σ) (flow : OrchestratorFlow σ) (ctx : RunContext)
    (services : HarnessServices σ μ) (request summary : String) :
    Turn σ μ Unit := do
  match ctx.ablations.memoryOn, flow.factExtractor with
  | true, some extractor =>
      let facts ← extractor.extract host request summary flowName
      if facts ≠ [] then
        Turn.remember services facts ctx.userScope
  | _, _ => pure ()

def run (host : Host σ) (flow : OrchestratorFlow σ) : Flow σ μ :=
  fun request ctx services => do
    let grants := grantsFor services.approvalGate
    let gathered ← gather flow (work host flow services grants request)
    let memory ← Turn.recallContext services ctx request
    let sources := sourcesBlock request gathered memory
    let draft ←
      runAgent host .synthesis flow.synthesisModel (Agent.noTools host) sources
        memory
    let synthesis ← review host flow ctx draft sources memory
    rememberTurn host flow ctx services request synthesis.summary
    return {
      output := some (.synthesis synthesis)
      success := true
      stopReason := "success" }

end OrchestratorFlow

end FableHarness
