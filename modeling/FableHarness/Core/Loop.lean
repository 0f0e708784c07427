import FableHarness.Flows.SingleAgent
import FableHarness.Flows.Orchestrator

/-!
# The agent loop

Routes a request, runs the flow it is routed to, and turns the exceptions the
harness owns into a `FlowResult`.
-/

namespace FableHarness

open ExceptionState

structure AgentLoop (σ μ : Type) where
  flows : OrderedDict String (Flow σ μ)

/-- The flow table of the command line. -/
def harnessFlows {σ μ : Type} (host : Host σ) (single : SingleAgentFlow σ)
    (orchestrator : OrchestratorFlow σ) : OrderedDict String (Flow σ μ) :=
  .ofList [
    (SingleAgentFlow.flowName, single.run host),
    (OrchestratorFlow.flowName, orchestrator.run host)]

namespace AgentLoop

variable {σ μ : Type}

/-- `services.router.route` and the stamps of its decision. -/
def route (ctx : RunContext) (services : HarnessServices σ μ) :
    Turn σ μ (Option RouteDecision) := do
  match services.router with
  | none => return none
  | some router =>
      let decision ← Turn.outside (router ctx.request ctx)
      Turn.stamp "harness.route.mode" (.text decision.mode.value)
      Turn.stamp "harness.route.target" (.text decision.target)
      Turn.stamp "harness.route.confidence" (.number decision.confidence)
      Turn.stamp "harness.route.tier" (.int decision.tier)
      return some decision

def directAnswer (decision : RouteDecision) : FlowResult where
  output := some (.text decision.target)
  success := true
  stopReason := "direct_answer"

def unknownFlow (target : String) : FlowResult where
  output := none
  success := false
  stopReason := "unknown_flow:" ++ target

/-- What a routing decision asks for. -/
inductive Dispatch (σ μ : Type) where
  | answer (result : FlowResult)
  | flow (target : String) (flow : Flow σ μ)

def dispatch (loop : AgentLoop σ μ) (decision : Option RouteDecision) :
    Dispatch σ μ :=
  let byTarget (target : String) : Dispatch σ μ :=
    match loop.flows.get? target with
    | some flow => .flow target flow
    | none => .answer (unknownFlow target)
  match decision with
  | none => byTarget "single_agent"
  | some decision =>
      if decision.mode = .direct then
        .answer (directAnswer decision)
      else
        byTarget decision.target

/-- The `except` clauses of `run_turn`. -/
def convert : TurnExc → Turn σ μ FlowResult
  | .repeatedFailure message =>
      return ⟨some (.text message), false, "repeated_failure", []⟩
  | .budgetExhausted message =>
      return ⟨some (.text message), false, "budget_exhausted", []⟩
  | .outside (.permissionDenied message) =>
      return ⟨some (.text message), false, "permission_denied", []⟩
  | exc => throw exc

/-- The stamps at the end of a turn. -/
def stampResult (ctx : RunContext) (result : FlowResult) : Turn σ μ Unit := do
  Turn.stamp "harness.flow.stop_reason" (.text result.stopReason)
  Turn.stamp "harness.flow.success" (.flag result.success)
  let status := (← get).status
  Turn.stamp "harness.budget.tokens_used" (.int status.tokensUsed)
  Turn.stamp "harness.budget.tool_calls_used" (.int status.toolCallsUsed)
  Turn.stamp "harness.budget.cost_usd" (.number (roundTo 6 status.costUsd))
  Turn.stamp "harness.ablation.memory_on" (.flag ctx.ablations.memoryOn)
  Turn.stamp "harness.ablation.critic_on" (.flag ctx.ablations.criticOn)
  Turn.stamp "harness.ablation.router_tier" (.int ctx.ablations.routerTier)

def runTurn (loop : AgentLoop σ μ) (ctx : RunContext)
    (services : HarnessServices σ μ) : Turn σ μ FlowResult := do
  let decision ← route ctx services
  match loop.dispatch decision with
  | .answer result => return result
  | .flow _ flow =>
      let result ← tryCatch (flow ctx.request ctx services) convert
      stampResult ctx result
      return result

end AgentLoop

end FableHarness
