import Mathlib.Data.NNRat.Defs
import FableHarness.Core.Budgets
import FableHarness.Core.FailureDetector
import FableHarness.Memory.Store
import FableHarness.Routing.Router

/-!
# The state of a turn

Everything the code of a turn can change, the exceptions it can raise, and the
services it is handed.  The trace is kept for the reader: no program reads it.
-/

namespace FableHarness

open ExceptionState

/-- What propagates inside a turn.  Outside code raises a `PyExc`; the other
three are raised by the harness alone. -/
inductive TurnExc where
  | outside (exc : PyExc)
  /-- The `RuntimeError` by which a tool function reports a failed result. -/
  | toolError (message : String)
  | repeatedFailure (message : String)
  | budgetExhausted (message : String)
deriving DecidableEq, Repr

def TurnExc.message : TurnExc → String
  | .outside exc => exc.message
  | .toolError message => message
  | .repeatedFailure message => message
  | .budgetExhausted message => message

/-- The agent runs a turn can make. -/
inductive AgentRole where
  | singleAgent
  | retrieval
  | synthesis
  | critic
  | extraction
deriving DecidableEq, Repr

/-- What happened during a turn. -/
inductive Interaction where
  /-- An agent run began, with the memory contents placed in its prompt. -/
  | agentStarted (role : AgentRole) (prompt : String) (memory : List String)
  | modelResponded (role : AgentRole) (inputTokens outputTokens : Nat)
  | toolReturned (role : AgentRole)
  | agentEnded (role : AgentRole) (time : ℚ)
  /-- The registry served a tool call of the single agent with a failure. -/
  | callFailed (call : ToolCall) (error : Option String)
  /-- The approval gate denied a call. -/
  | callDenied (call : ToolCall)
  /-- A tool function raised because of a denial. -/
  | raisedOnDenial (call : ToolCall) (exc : TurnExc)
  | remembered (contents : List String)

structure World (σ μ : Type) where
  /-- The state of all outside code. -/
  env : σ
  /-- The state of the memory backend. -/
  memory : μ
  /-- The monotonic clock, in seconds. -/
  clock : ℚ
  /-- The ledger of the budget tracker. -/
  status : BudgetStatus := {}
  metadata : Metadata := ∅
  detector : RepeatedFailureDetector := {}
  callCount : Nat := 0
  trace : List Interaction := []

abbrev Turn (σ μ : Type) := EStateM TurnExc (World σ μ)

/-- The outside code a turn relies on besides models, tools and stores. -/
structure Host (σ : Type) where
  runtime : PyRuntime
  /-- How much time has passed when the clock is read next. -/
  elapse : σ → ℚ≥0 × σ
  uuid4 : σ → Uuid × σ
  /-- What a model is told about a call of an unknown tool or with arguments
  that do not fit the tool's signature. -/
  rejection : String → Arguments → String

structure HarnessServices (σ μ : Type) where
  tools : InMemoryToolRegistry σ
  memory : MemoryStore μ
  budget : BudgetTracker
  router : Option (Router σ) := none
  approvalGate : Option (ApprovalGate σ) := none

structure SynthesisOutput where
  summary : String
  citations : List String

/-- The `output` of a flow. -/
inductive FlowOutput where
  | text (value : String)
  | synthesis (value : SynthesisOutput)

structure FlowResult where
  output : Option FlowOutput
  success : Bool
  stopReason : String
  transcript : List Json := []

abbrev Flow (σ μ : Type) :=
  String → RunContext → HarnessServices σ μ → Turn σ μ FlowResult

/-- The grants both flows build from `services.approval_gate`. -/
def grantsFor {σ : Type} : Option (ApprovalGate σ) → PermissionGrants σ
  | some gate => ⟨gate⟩
  | none => {}

namespace Turn

variable {σ μ : Type}

/-- Run outside code. -/
def outside {α : Type} (program : Py σ α) : Turn σ μ α :=
  focus World.env (fun env world => { world with env }) .outside program

/-- Run an operation of the memory backend. -/
def inMemory {α : Type} (program : Py μ α) : Turn σ μ α :=
  focus World.memory (fun memory world => { world with memory }) .outside program

def record (event : Interaction) : Turn σ μ Unit :=
  modify fun world => { world with trace := world.trace ++ [event] }

/-- `time.monotonic()` -/
def monotonic (host : Host σ) : Turn σ μ ℚ := do
  let elapsed ← outside (modifyGet host.elapse)
  modifyGet fun world =>
    let now := world.clock + (elapsed : ℚ)
    (now, { world with clock := now })

/-- `services.budget.record_usage` -/
def recordUsage (host : Host σ) (services : HarnessServices σ μ)
    (inputTokens outputTokens toolCalls : Nat) : Turn σ μ Unit := do
  let now ← monotonic host
  modify fun world =>
    { world with
      status :=
        services.budget.recordUsage host.runtime inputTokens outputTokens toolCalls
          now world.status }

/-- `services.budget.check_wall_clock` -/
def checkWallClock (host : Host σ) (services : HarnessServices σ μ) :
    Turn σ μ Bool := do
  let now ← monotonic host
  modifyGet fun world =>
    let status := services.budget.checkWallClock host.runtime now world.status
    (status.exhausted, { world with status })

/-- `RunContext.stamp` -/
def stamp (key : String) (value : StampValue) : Turn σ μ Unit :=
  modify fun world => { world with metadata := world.metadata.set key value }

/-- `services.tools.execute(call, grants)` -/
def execute (services : HarnessServices σ μ) (call : ToolCall)
    (grants : PermissionGrants σ) : Turn σ μ (Verdict × ToolResult) := do
  let (verdict, result) ← outside (services.tools.executeObserved call grants)
  if verdict = .denied then
    record (.callDenied call)
  return (verdict, result)

/-- `services.memory.recall(request, scope, k=5)`, reduced to the contents. -/
def recallContents (services : HarnessServices σ μ) (request scope : String) :
    Turn σ μ (List String) := do
  let items ← inMemory (services.memory.recallItems request scope 5)
  return items.map MemoryItem.content

/-- The memory both flows put in their prompts; an ablated memory is empty. -/
def recallContext (services : HarnessServices σ μ) (ctx : RunContext)
    (request : String) : Turn σ μ (List String) :=
  if ctx.ablations.memoryOn then
    recallContents services request ctx.userScope
  else
    return []

def remember (services : HarnessServices σ μ) (facts : List MemoryItem)
    (scope : String) : Turn σ μ Unit := do
  inMemory (services.memory.remember facts scope)
  record (.remembered (facts.map MemoryItem.content))

/-! ## Frames -/

theorem run_outside {α : Type} (program : Py σ α) (world : World σ μ) :
    (outside program : Turn σ μ α).run world =
      match program.run world.env with
      | .ok value env => .ok value { world with env }
      | .error exc env => .error (.outside exc) { world with env } := by
  rw [outside, run_focus]
  cases program.run world.env <;> rfl

theorem run_inMemory {α : Type} (program : Py μ α) (world : World σ μ) :
    (inMemory program : Turn σ μ α).run world =
      match program.run world.memory with
      | .ok value memory => .ok value { world with memory }
      | .error exc memory => .error (.outside exc) { world with memory } := by
  rw [inMemory, run_focus]
  cases program.run world.memory <;> rfl

theorem run_monotonic (host : Host σ) (world : World σ μ) :
    (monotonic host : Turn σ μ ℚ).run world =
      let (elapsed, env) := host.elapse world.env
      .ok (world.clock + (elapsed : ℚ))
        { world with env, clock := world.clock + (elapsed : ℚ) } :=
  rfl

theorem run_recallContext_of_ok {services : HarnessServices σ μ}
    {ctx : RunContext} {request : String} {items : List MemoryItem}
    (world : World σ μ) {memory : μ} (memoryOn : ctx.ablations.memoryOn = true)
    (recalled :
      (services.memory.recallItems request ctx.userScope 5).run world.memory =
        .ok items memory) :
    (recallContext services ctx request).run world =
      .ok (items.map MemoryItem.content) { world with memory } := by
  rw [recallContext, if_pos memoryOn, recallContents, EStateM.run_bind,
    run_inMemory, recalled]
  rfl

theorem run_remember (services : HarnessServices σ μ) (facts : List MemoryItem)
    (scope : String) (world : World σ μ) :
    (remember services facts scope).run world =
      match (services.memory.remember facts scope).run world.memory with
      | .ok () memory =>
          .ok ()
            { world with
              memory
              trace :=
                world.trace ++ [.remembered (facts.map MemoryItem.content)] }
      | .error exc memory => .error (.outside exc) { world with memory } := by
  rw [remember, EStateM.run_bind, run_inMemory]
  cases (services.memory.remember facts scope).run world.memory <;> rfl

/-- Recalling changes the state of the memory backend only. -/
theorem run_recallContext (services : HarnessServices σ μ) (ctx : RunContext)
    (request : String) (world : World σ μ) :
    (∃ contents memory,
      (recallContext services ctx request).run world =
        .ok contents { world with memory }) ∨
      ∃ exc memory,
        (recallContext services ctx request).run world =
          .error (.outside exc) { world with memory } := by
  unfold recallContext
  split
  · rw [recallContents, EStateM.run_bind, run_inMemory]
    cases (services.memory.recallItems request ctx.userScope 5).run
        world.memory with
    | ok items memory => exact Or.inl ⟨_, memory, rfl⟩
    | error exc memory => exact Or.inr ⟨exc, memory, rfl⟩
  · exact Or.inl ⟨[], world.memory, rfl⟩

end Turn

end FableHarness
