import FableHarness.Memory.Extraction

/-!
# The single-agent flow

One agent with the tools the registry scopes to this flow, under the budget's
usage limits and the repeated-failure detector.
-/

namespace FableHarness

open ExceptionState

structure SingleAgentFlow (σ : Type) where
  model : Model σ String
  factExtractor : Option (FactExtractor σ) := none

namespace SingleAgentFlow

variable {σ μ : Type}

def flowName : String := "single_agent"

/-- The arguments that a tool function passes on, if `_wire_demo_tool` knows its
name and the model's arguments fit its signature. -/
def wiredArguments (name : String) (arguments : Arguments) : Option Arguments :=
  match name, arguments with
  | "get_current_time", [] => some []
  | "echo", [("text", .str text)] => some [("text", .str text)]
  | _, _ => none

/-- What `_dispatch` raises after a failed result: the detector's exception, or
else the `RuntimeError`. -/
def failure (raised : Option String) (result : ToolResult) : Option TurnExc :=
  match raised, result.error with
  | some message, _ => some (.repeatedFailure message)
  | none, some error => some (.toolError error)
  | none, none => none

/-- The end of `_dispatch`: `detector.record`, and `raise` or `return`. -/
def answerCall (host : Host σ) (call : ToolCall) (verdict : Verdict)
    (result : ToolResult) : Turn σ μ ToolReply := do
  let raised ← modifyGet fun world =>
    let (detector, raised) :=
      world.detector.record host.runtime result call.arguments
    (raised, { world with detector })
  match failure raised result with
  | none => return .value (result.output.getD "None")
  | some exc =>
      if verdict = .denied then
        Turn.record (.raisedOnDenial call exc)
      throw exc

/-- `_dispatch` -/
def dispatch (host : Host σ) (services : HarnessServices σ μ)
    (grants : PermissionGrants σ) (name : String) (arguments : Arguments) :
    Turn σ μ ToolReply := do
  modify fun world => { world with callCount := world.callCount + 1 }
  let call : ToolCall := ⟨name, arguments, flowName⟩
  let (verdict, result) ← Turn.execute services call grants
  if result.ok = false then
    Turn.record (.callFailed call result.error)
  answerCall host call verdict result

/-- What the agent makes of a call by the model: the arguments of a tool function
that was wired for this flow. -/
def wiredCall (services : HarnessServices σ μ) (name : String)
    (arguments : Arguments) : Option Arguments :=
  if (services.tools.scopedFor flowName).any fun spec => spec.name == name then
    wiredArguments name arguments
  else
    none

/-- The tool functions `_wire_demo_tool` puts on the agent. -/
def tool (host : Host σ) (services : HarnessServices σ μ)
    (grants : PermissionGrants σ) (name : String) (arguments : Arguments) :
    Turn σ μ ToolReply :=
  match wiredCall services name arguments with
  | some passed => dispatch host services grants name passed
  | none => return .retry (host.rejection name arguments)

def prompt (request : String) (memory : List String) : String :=
  if memory.isEmpty then
    request
  else
    "Relevant memory:\n" ++
      String.intercalate "\n" (memory.map fun content => "- " ++ content) ++
      "\n\nRequest: " ++ request

/-- `except UsageLimitExceeded` -/
def convertUsageLimit {α : Type} : TurnExc → Turn σ μ α
  | .outside (.usageLimitExceeded message) => throw (.budgetExhausted message)
  | exc => throw exc

/-- `record_usage` and `check_wall_clock` after the agent run. -/
def settleBudget (host : Host σ) (services : HarnessServices σ μ)
    (usage : RunUsage) : Turn σ μ Unit := do
  let callCount := (← get).callCount
  Turn.recordUsage host services usage.inputTokens usage.outputTokens
    (if usage.toolCalls = 0 then callCount else usage.toolCalls)
  if ← Turn.checkWallClock host services then
    let status := (← get).status
    throw (.budgetExhausted (textOr status.exhaustedReason "wall_clock_exceeded"))

/-- The facts of a turn: the extractor's, or the whole exchange as one item. -/
def turnFacts (host : Host σ) (flow : SingleAgentFlow σ)
    (request output userScope : String) : Turn σ μ (List MemoryItem) :=
  match flow.factExtractor with
  | some extractor => extractor.extract host request output flowName
  | none => do
      let item ←
        newMemoryItem host ("Q: " ++ request ++ "\nA: " ++ output) userScope
          flowName
      return [item]

def rememberTurn (host : Host σ) (flow : SingleAgentFlow σ) (ctx : RunContext)
    (services : HarnessServices σ μ) (request output : String) :
    Turn σ μ Unit := do
  if ctx.ablations.memoryOn && output != "" then
    let facts ← turnFacts host flow request output ctx.userScope
    if facts ≠ [] then
      Turn.remember services facts ctx.userScope

/-- A fresh detector and call count. -/
def resetCounters (world : World σ μ) : World σ μ :=
  { world with detector := {}, callCount := 0 }

def run (host : Host σ) (flow : SingleAgentFlow σ) : Flow σ μ :=
  fun request ctx services => do
    modify resetCounters
    let grants := grantsFor services.approvalGate
    let memory ← Turn.recallContext services ctx request
    let result ←
      tryCatch
        (Agent.run host .singleAgent (some services.budget.usageLimits)
          flow.model (tool host services grants) (prompt request memory) memory)
        convertUsageLimit
    settleBudget host services result.usage
    rememberTurn host flow ctx services request result.output
    return {
      output := some (.text result.output)
      success := true
      stopReason := "success"
      transcript := result.messages }

/-! ## Turns that are answered -/

variable {host : Host σ} {flow : SingleAgentFlow σ} {ctx : RunContext}
  {services : HarnessServices σ μ} {request : String}

theorem rememberTurn_of_silent :
    rememberTurn host flow ctx services request "" = pure () := by
  simp [rememberTurn]

theorem run_rememberTurn_of_extracted {extractor : FactExtractor σ}
    {output : String} {facts : List MemoryItem} {before after : World σ μ}
    (extracts : flow.factExtractor = some extractor)
    (memoryOn : ctx.ablations.memoryOn = true) (said : output ≠ "")
    (extracted :
      (extractor.extract host request output flowName).run before =
        .ok facts after) :
    (rememberTurn host flow ctx services request output).run before =
      (if facts ≠ [] then
        Turn.remember services facts ctx.userScope
      else
        pure ()).run after := by
  have wanted : (ctx.ablations.memoryOn && output != "") = true := by
    simp [memoryOn, said]
  rw [rememberTurn, if_pos wanted]
  simp only [turnFacts, extracts, EStateM.run_bind, extracted]

theorem run_resetCounters (before : World σ μ) :
    (modify resetCounters : Turn σ μ PUnit).run before =
      .ok () (resetCounters before) :=
  rfl

/-- An answer within the budget is the result, if it can be remembered. -/
theorem run_of_answered {memory : List String}
    {before recalled answered settled : World σ μ} {result : AgentResult String}
    (recalls :
      (Turn.recallContext services ctx request).run (resetCounters before) =
        .ok memory recalled)
    (answers :
      (Agent.run host .singleAgent (some services.budget.usageLimits) flow.model
          (tool host services (grantsFor services.approvalGate))
          (prompt request memory) memory).run recalled =
        .ok result answered)
    (settles :
      (settleBudget host services result.usage).run answered = .ok () settled) :
    (flow.run host request ctx services).run before =
      match
        (rememberTurn host flow ctx services request result.output).run settled with
      | .ok () after =>
          .ok ⟨some (.text result.output), true, "success", result.messages⟩ after
      | .error exc after => .error exc after := by
  have caught :
      (tryCatch
          (Agent.run host .singleAgent (some services.budget.usageLimits)
            flow.model (tool host services (grantsFor services.approvalGate))
            (prompt request memory) memory)
          convertUsageLimit).run recalled =
        .ok result answered := by
    rw [run_tryCatch, answers]
  unfold run
  simp only [EStateM.run_bind, run_resetCounters, recalls, caught, settles]
  cases
      (rememberTurn host flow ctx services request result.output).run settled <;>
    rfl

end SingleAgentFlow

end FableHarness
