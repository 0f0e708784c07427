import FableHarness.Core.RoutedTurn

/-!
# Code that a turn cannot reach

The code of a turn puts four names into its calls, and a call goes on only where
the matrix allows its tier or a callback can be asked.  A turn comes to the same
whatever else stands behind the registry, and whatever the server would do on a call
that is never forwarded to it.
-/

namespace FableHarness

open ExceptionState

variable {σ μ : Type}

/-- The tool names that the code of a turn can call. -/
def calledNames : List String :=
  ["get_current_time", "echo", "account_lookup", "meeting_history"]

namespace ApprovalGate

/-- The gate lets some calls of this tier pass, as far as it knows itself. -/
def mayPass (gate : ApprovalGate σ) (tier : RiskTier) : Bool :=
  match gate.matrix.policyFor tier with
  | .autoAllow => true
  | .deny => false
  | .requireApproval => gate.onApprovalNeeded.isSome

theorem check_of_closed {gate : ApprovalGate σ} {tier : RiskTier}
    (closed : gate.mayPass tier = false) (call : ToolCall) :
    ∃ message, gate.check call tier = throw (.permissionDenied message) := by
  unfold mayPass at closed
  cases policy : gate.matrix.policyFor tier with
  | autoAllow =>
      rw [policy] at closed
      cases closed
  | deny => exact ⟨_, check_of_deny policy⟩
  | requireApproval =>
      rw [policy] at closed
      have absent : gate.onApprovalNeeded = none :=
        Option.not_isSome_iff_eq_none.mp (Bool.not_eq_true _ ▸ closed)
      exact ⟨_, check_of_no_callback policy absent⟩

end ApprovalGate

namespace InMemoryToolRegistry

/-- A call can reach the handler under this name. -/
def reachable (gate : ApprovalGate σ) (name : String) (spec : ToolSpec σ) : Bool :=
  calledNames.contains name && gate.mayPass spec.riskTier

/-- The registry with other handlers where no call can reach them. -/
def replaceUnreachable (gate : ApprovalGate σ)
    (other : String → ToolSpec σ → Handler σ) (registry : InMemoryToolRegistry σ) :
    InMemoryToolRegistry σ where
  tools :=
    registry.tools.mapValues fun name spec =>
      if reachable gate name spec then
        spec
      else
        { spec with handler := other name spec }

variable (gate : ApprovalGate σ) (other : String → ToolSpec σ → Handler σ)
  (registry : InMemoryToolRegistry σ)

/-- A flow is offered tools of the same names. -/
theorem any_scopedFor_replaceUnreachable (flow name : String) :
    (((registry.replaceUnreachable gate other).scopedFor flow).any
        fun spec => spec.name == name) =
      (registry.scopedFor flow).any fun spec => spec.name == name := by
  unfold scopedFor OrderedDict.values replaceUnreachable OrderedDict.mapValues
  rw [List.map_map, List.any_filter, List.any_filter, List.any_map, List.any_map]
  congr 1
  funext entry
  simp only [Function.comp_apply]
  split <;> rfl

/-- A call by one of the names comes to the same. -/
theorem executeObserved_replaceUnreachable {call : ToolCall}
    (called : call.toolName ∈ calledNames) :
    (registry.replaceUnreachable gate other).executeObserved call ⟨gate⟩ =
      registry.executeObserved call ⟨gate⟩ := by
  have found :
      (registry.replaceUnreachable gate other).tools.get? call.toolName =
        (registry.tools.get? call.toolName).map fun spec =>
          if reachable gate call.toolName spec then
            spec
          else
            { spec with handler := other call.toolName spec } :=
    OrderedDict.get?_mapValues _ _ _
  unfold executeObserved
  rw [found]
  cases registry.tools.get? call.toolName with
  | none => rfl
  | some spec =>
      by_cases passes : gate.mayPass spec.riskTier = true
      · have reached : reachable gate call.toolName spec = true := by
          rw [reachable, passes, List.contains_iff_mem.mpr called]
          rfl
        simp only [Option.map_some, reached, if_true]
      · have closed : gate.mayPass spec.riskTier = false :=
          Bool.not_eq_true _ ▸ passes
        have unreached : reachable gate call.toolName spec = false := by
          rw [reachable, closed, Bool.and_false]
        obtain ⟨message, refused⟩ := gate.check_of_closed closed call
        simp only [Option.map_some, unreached, Bool.false_eq_true, if_false, refused]
        rfl

end InMemoryToolRegistry

namespace HarnessServices

def gate (services : HarnessServices σ μ) : ApprovalGate σ :=
  (grantsFor services.approvalGate).gate

/-- The services with other handlers where no call of a turn can reach them. -/
def replaceUnreachable (other : String → ToolSpec σ → Handler σ)
    (services : HarnessServices σ μ) : HarnessServices σ μ :=
  { services with
    tools := services.tools.replaceUnreachable services.gate other }

/-- A call of the retrieval agent can reach the server. -/
def serverReachable (services : HarnessServices σ μ) : Bool :=
  match services.approvalGate with
  | none => true
  | some gate => gate.mayPass .readOnly

end HarnessServices

section Flows

variable (host : Host σ) (services : HarnessServices σ μ)
  (other : String → ToolSpec σ → Handler σ)

theorem Turn.execute_replaceUnreachable {call : ToolCall}
    (called : call.toolName ∈ calledNames) :
    (Turn.execute (services.replaceUnreachable other) call
        (grantsFor services.approvalGate) : Turn σ μ _) =
      Turn.execute services call (grantsFor services.approvalGate) := by
  have same :
      (services.tools.replaceUnreachable services.gate other).executeObserved call
          (grantsFor services.approvalGate) =
        services.tools.executeObserved call (grantsFor services.approvalGate) :=
    services.tools.executeObserved_replaceUnreachable services.gate other called
  unfold Turn.execute
  rw [show (services.replaceUnreachable other).tools =
    services.tools.replaceUnreachable services.gate other from rfl, same]

namespace SingleAgentFlow

theorem mem_calledNames_of_wired {name : String} {arguments passed : Arguments}
    (wired : wiredArguments name arguments = some passed) : name ∈ calledNames := by
  unfold wiredArguments at wired
  split at wired
  · decide
  · decide
  · cases wired

theorem tool_replaceUnreachable :
    tool host (services.replaceUnreachable other)
        (grantsFor services.approvalGate) =
      tool host services (grantsFor services.approvalGate) := by
  funext name arguments
  have offered :
      wiredCall (services.replaceUnreachable other) name arguments =
        wiredCall services name arguments := by
    unfold wiredCall HarnessServices.replaceUnreachable
    rw [InMemoryToolRegistry.any_scopedFor_replaceUnreachable]
  unfold tool
  rw [offered]
  cases wired : wiredCall services name arguments with
  | none => rfl
  | some passed =>
      have called : name ∈ calledNames := by
        unfold wiredCall at wired
        split at wired
        · exact mem_calledNames_of_wired wired
        · cases wired
      simp only [dispatch]
      rw [Turn.execute_replaceUnreachable services other called]

theorem run_replaceUnreachable (flow : SingleAgentFlow σ) (request : String)
    (ctx : RunContext) :
    flow.run host request ctx (services.replaceUnreachable other) =
      flow.run host request ctx services := by
  have sameTool := tool_replaceUnreachable host services other
  unfold run
  simp only [show (services.replaceUnreachable other).approvalGate =
    services.approvalGate from rfl, sameTool]
  rfl

end SingleAgentFlow

namespace OrchestratorFlow

/-- The flow with another server where no call of a turn can reach it. -/
def replaceUnreachable (server : CallToolFunc σ) (flow : OrchestratorFlow σ) :
    OrchestratorFlow σ :=
  if services.serverReachable then flow else { flow with server := server }

variable (flow : OrchestratorFlow σ) (server : CallToolFunc σ)

theorem mcpTool_replaceUnreachable :
    mcpTool (flow.replaceUnreachable services server)
        (services.replaceUnreachable other) =
      mcpTool flow services := by
  funext name arguments
  by_cases reached : services.serverReachable = true
  · rw [replaceUnreachable, if_pos reached]
    rfl
  · rw [replaceUnreachable, if_neg reached]
    unfold HarnessServices.serverReachable at reached
    cases gated : services.approvalGate with
    | none =>
        rw [gated] at reached
        exact absurd rfl reached
    | some gate =>
        rw [gated] at reached
        have closed : gate.mayPass .readOnly = false := Bool.not_eq_true _ ▸ reached
        obtain ⟨message, refused⟩ :=
          gate.check_of_closed closed ((toolset services).toolCall name arguments)
        have checked :
            (toolset services).checkCall name arguments =
              throw (.permissionDenied message) := by
          unfold RetrievalToolset.checkCall toolset
          rw [gated]
          exact refused
        unfold mcpTool
        rw [show toolset (services.replaceUnreachable other) = toolset services
          from rfl, checked]
        rfl

theorem work_replaceUnreachable (request : String) :
    work host (flow.replaceUnreachable services server)
        (services.replaceUnreachable other) (grantsFor services.approvalGate)
        request =
      work host flow services (grantsFor services.approvalGate) request := by
  have sameKey :
      (flow.replaceUnreachable services server).clientKey = flow.clientKey := by
    unfold replaceUnreachable
    split <;> rfl
  have sameModel :
      (flow.replaceUnreachable services server).retrievalModel =
        flow.retrievalModel := by
    unfold replaceUnreachable
    split <;> rfl
  funext worker
  cases worker with
  | account =>
      simp only [work, toolWorker, sameKey]
      have called : "account_lookup" ∈ calledNames := by decide
      rw [Turn.execute_replaceUnreachable services other called]
  | meeting =>
      simp only [work, toolWorker, sameKey]
      have called : "meeting_history" ∈ calledNames := by decide
      rw [Turn.execute_replaceUnreachable services other called]
  | retrieval =>
      simp only [work, retrievalWorker, sameModel]
      rw [mcpTool_replaceUnreachable]

theorem run_replaceUnreachable (request : String) (ctx : RunContext) :
    (flow.replaceUnreachable services server).run host request ctx
        (services.replaceUnreachable other) =
      flow.run host request ctx services := by
  have sameWork := work_replaceUnreachable host services other flow server request
  unfold run
  simp only [show (services.replaceUnreachable other).approvalGate =
    services.approvalGate from rfl, sameWork]
  unfold replaceUnreachable
  split <;> rfl

end OrchestratorFlow

end Flows

namespace AgentLoop

theorem get?_harnessFlows_eq (host : Host σ) (single : SingleAgentFlow σ)
    (orchestrator : OrchestratorFlow σ) (target : String) :
    (harnessFlows host single orchestrator : OrderedDict String (Flow σ μ)).get?
        target =
      if target = OrchestratorFlow.flowName then
        some (orchestrator.run host)
      else if target = SingleAgentFlow.flowName then
        some (single.run host)
      else
        none := by
  show (((∅ : OrderedDict String (Flow σ μ)).set SingleAgentFlow.flowName
      (single.run host)).set OrchestratorFlow.flowName
      (orchestrator.run host)).get? target = _
  rw [OrderedDict.get?_set, OrderedDict.get?_set, OrderedDict.get?_empty]

/-- What a turn does once it is routed to a target. -/
def runTarget (loop : AgentLoop σ μ) (ctx : RunContext)
    (services : HarnessServices σ μ) (target : String) : Turn σ μ FlowResult :=
  match
    (loop.flows.get? target).map fun flow => flow ctx.request ctx services
  with
  | none => return unknownFlow target
  | some program => do
      let result ← tryCatch program convert
      stampResult ctx result
      return result

theorem runTurn_eq (loop : AgentLoop σ μ) (ctx : RunContext)
    (services : HarnessServices σ μ) :
    loop.runTurn ctx services = (do
      let decision ← route ctx services
      match decision with
      | none => loop.runTarget ctx services "single_agent"
      | some decision =>
          if decision.mode = .direct then
            return directAnswer decision
          else
            loop.runTarget ctx services decision.target) := by
  unfold runTurn
  congr 1
  funext decision
  cases decision with
  | none =>
      simp only [dispatch, runTarget]
      cases loop.flows.get? "single_agent" <;> rfl
  | some decision =>
      by_cases direct : decision.mode = .direct
      · simp only [dispatch, direct, if_true]
      · simp only [dispatch, runTarget, direct, if_false]
        cases loop.flows.get? decision.target <;> rfl

/-- A turn depends on the router and on what the flow it is dispatched to does. -/
theorem runTurn_congr {first second : AgentLoop σ μ} {ctx : RunContext}
    {firstServices secondServices : HarnessServices σ μ}
    (sameRouter : firstServices.router = secondServices.router)
    (sameRun :
      ∀ target,
        (first.flows.get? target).map
            (fun flow => flow ctx.request ctx firstServices) =
          (second.flows.get? target).map
            fun flow => flow ctx.request ctx secondServices) :
    first.runTurn ctx firstServices = second.runTurn ctx secondServices := by
  have sameRoute :
      (route ctx firstServices : Turn σ μ _) = route ctx secondServices := by
    unfold route
    rw [sameRouter]
  have sameTarget :
      first.runTarget ctx firstServices = second.runTarget ctx secondServices := by
    funext target
    unfold runTarget
    rw [sameRun]
  rw [runTurn_eq, runTurn_eq, sameRoute, sameTarget]

/-- A turn does the same to the world and ends in the same way, whatever the
handlers do that are not called by one of the four names or whose tier the gate
cannot let pass, and whatever the server does on a forwarded call behind a gate
that cannot let such calls pass. -/
theorem turn_ignores_unreachable (host : Host σ) (single : SingleAgentFlow σ)
    (orchestrator : OrchestratorFlow σ) (ctx : RunContext)
    (services : HarnessServices σ μ) (other : String → ToolSpec σ → Handler σ)
    (server : CallToolFunc σ) :
    (harness host single
        (orchestrator.replaceUnreachable services server)).runTurn ctx
        (services.replaceUnreachable other) =
      (harness host single orchestrator).runTurn ctx services := by
  have sameSingle := single.run_replaceUnreachable host services other ctx.request ctx
  have sameOrchestrator :=
    orchestrator.run_replaceUnreachable host services other server ctx.request ctx
  have sameRouter : (services.replaceUnreachable other).router = services.router :=
    rfl
  apply runTurn_congr sameRouter
  intro target
  show ((harnessFlows host single _).get? target).map _ =
    ((harnessFlows host single orchestrator).get? target).map _
  rw [get?_harnessFlows_eq, get?_harnessFlows_eq]
  by_cases isOrchestrator : target = OrchestratorFlow.flowName
  · rw [if_pos isOrchestrator, if_pos isOrchestrator]
    exact congrArg some sameOrchestrator
  · rw [if_neg isOrchestrator, if_neg isOrchestrator]
    by_cases isSingle : target = SingleAgentFlow.flowName
    · rw [if_pos isSingle]
      exact congrArg some sameSingle
    · rw [if_neg isSingle]
      rfl

end AgentLoop

end FableHarness
