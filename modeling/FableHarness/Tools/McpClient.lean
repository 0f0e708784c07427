import FableHarness.Tools.Registry

/-!
# Tools behind an MCP server

Every call that an agent makes to the server passes a hook first, which asks
the approval gate, if there is one, before it forwards the call.
-/

namespace FableHarness

open ExceptionState

/-- What a tool hands back to the model: a value, or a message that asks it to
try again. -/
inductive ToolReply where
  | value (output : String)
  | retry (message : String)
deriving DecidableEq, Repr

/-- The server's side of a call. -/
abbrev CallToolFunc (σ : Type) := String → Arguments → Py σ ToolReply

/-- The arguments of `build_retrieval_toolset`, which its hook closes over. -/
structure RetrievalToolset (σ : Type) where
  approvalGate : Option (ApprovalGate σ) := none
  riskTier : RiskTier := .readOnly
  flow : String := "orchestrator"

/-- How far a call got inside the hook. -/
inductive McpVerdict where
  | refused
  | forwarded
deriving DecidableEq, Repr

namespace RetrievalToolset

variable {σ : Type}

def toolCall (toolset : RetrievalToolset σ) (name : String)
    (toolArgs : Arguments) : ToolCall :=
  ⟨name, toolArgs, toolset.flow⟩

/-- The part of the hook before `call_tool`. -/
def checkCall (toolset : RetrievalToolset σ) (name : String)
    (toolArgs : Arguments) : Py σ Unit :=
  match toolset.approvalGate with
  | none => pure ()
  | some gate => gate.check (toolset.toolCall name toolArgs) toolset.riskTier

/-- `process_tool_call` together with how far the call got. -/
def processToolCallObserved (toolset : RetrievalToolset σ)
    (callTool : CallToolFunc σ) (name : String) (toolArgs : Arguments) :
    Py σ (McpVerdict × Except PyExc ToolReply) := do
  match ← attempt (toolset.checkCall name toolArgs) with
  | .error exc => pure (.refused, .error exc)
  | .ok () =>
      let reply ← attempt (callTool name toolArgs)
      pure (.forwarded, reply)

def processToolCall (toolset : RetrievalToolset σ)
    (callTool : CallToolFunc σ) (name : String) (toolArgs : Arguments) :
    Py σ ToolReply := do
  toolset.checkCall name toolArgs
  callTool name toolArgs

/-- The observation does not change what the agent gets. -/
theorem processToolCall_eq (toolset : RetrievalToolset σ)
    (callTool : CallToolFunc σ) (name : String) (toolArgs : Arguments)
    (env : σ) :
    (toolset.processToolCall callTool name toolArgs).run env =
      match (toolset.processToolCallObserved callTool name toolArgs).run env with
      | .ok (_, .ok reply) after => .ok reply after
      | .ok (_, .error exc) after => .error exc after
      | .error exc after => .error exc after := by
  simp only [processToolCall, processToolCallObserved, EStateM.run_bind,
    run_attempt]
  cases (toolset.checkCall name toolArgs).run env with
  | error exc after =>
      rfl
  | ok admitted after =>
      simp only [answer_ok, finalState_ok, EStateM.run_bind, run_attempt]
      cases (callTool name toolArgs).run after <;> rfl

end RetrievalToolset

end FableHarness
