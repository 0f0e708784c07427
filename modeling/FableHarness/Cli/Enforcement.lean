import Mathlib.Data.List.Forall2
import FableHarness.Cli.RunLedger
import FableHarness.Config.RiskMatrix

/-!
# What the command line enforces

A turn asks its approval gate for nothing but verdicts, and the gate of the
command line has the same verdicts whatever its matrix makes subject to approval.
-/

namespace FableHarness

open ExceptionState

variable {σ μ : Type}

/-! ## Turns under gates of equal verdicts -/

/-- The gates come to the same on every call. -/
def ApprovalGate.SameVerdicts (first second : ApprovalGate σ) : Prop :=
  ∀ call tier, first.check call tier = second.check call tier

/-- The services with another gate. -/
def HarnessServices.withGate (services : HarnessServices σ μ)
    (gate : ApprovalGate σ) : HarnessServices σ μ :=
  { services with approvalGate := some gate }

section Verdicts

variable {first second : ApprovalGate σ} (same : first.SameVerdicts second)
  (host : Host σ) (services : HarnessServices σ μ)
include same

theorem InMemoryToolRegistry.executeObserved_congr
    (registry : InMemoryToolRegistry σ) (call : ToolCall) :
    registry.executeObserved call ⟨first⟩ = registry.executeObserved call ⟨second⟩ := by
  unfold executeObserved
  simp only [same call]

theorem Turn.execute_congr (call : ToolCall) :
    (Turn.execute (services.withGate first) call ⟨first⟩ : Turn σ μ _) =
      Turn.execute (services.withGate second) call ⟨second⟩ := by
  unfold Turn.execute
  rw [show (services.withGate first).tools = services.tools from rfl,
    show (services.withGate second).tools = services.tools from rfl,
    services.tools.executeObserved_congr same call]

theorem SingleAgentFlow.tool_congr :
    tool host (services.withGate first) ⟨first⟩ =
      tool host (services.withGate second) ⟨second⟩ := by
  funext name arguments
  have offered :
      wiredCall (services.withGate first) name arguments =
        wiredCall (services.withGate second) name arguments :=
    rfl
  unfold tool
  rw [offered]
  cases wiredCall (services.withGate second) name arguments with
  | none => rfl
  | some passed =>
      simp only [dispatch]
      rw [Turn.execute_congr same services]

theorem SingleAgentFlow.run_congr (flow : SingleAgentFlow σ) (request : String)
    (ctx : RunContext) :
    flow.run host request ctx (services.withGate first) =
      flow.run host request ctx (services.withGate second) := by
  have sameTool := tool_congr same host services
  unfold run
  simp only [HarnessServices.withGate, grantsFor] at sameTool ⊢
  simp only [sameTool]
  rfl

theorem OrchestratorFlow.mcpTool_congr (flow : OrchestratorFlow σ) :
    mcpTool flow (services.withGate first) =
      mcpTool flow (services.withGate second) := by
  funext name arguments
  have checked :
      (toolset (services.withGate first)).checkCall name arguments =
        (toolset (services.withGate second)).checkCall name arguments :=
    same _ _
  unfold mcpTool
  rw [checked]
  rfl

theorem OrchestratorFlow.run_congr (flow : OrchestratorFlow σ) (request : String)
    (ctx : RunContext) :
    flow.run host request ctx (services.withGate first) =
      flow.run host request ctx (services.withGate second) := by
  have sameWork :
      work host flow (services.withGate first) ⟨first⟩ request =
        work host flow (services.withGate second) ⟨second⟩ request := by
    funext worker
    cases worker with
    | account | meeting =>
        simp only [work, toolWorker]
        rw [Turn.execute_congr same services]
    | retrieval =>
        simp only [work, retrievalWorker]
        rw [mcpTool_congr same services]
  unfold run
  simp only [HarnessServices.withGate, grantsFor] at sameWork ⊢
  simp only [sameWork]
  rfl

/-- A turn is the same under gates of equal verdicts. -/
theorem AgentLoop.runTurn_withGate (single : SingleAgentFlow σ)
    (orchestrator : OrchestratorFlow σ) (ctx : RunContext) :
    (harness host single orchestrator).runTurn ctx (services.withGate first) =
      (harness host single orchestrator).runTurn ctx (services.withGate second) := by
  have sameRouter :
      (services.withGate first).router = (services.withGate second).router :=
    rfl
  apply runTurn_congr sameRouter
  intro target
  show ((harnessFlows host single orchestrator).get? target).map _ =
    ((harnessFlows host single orchestrator).get? target).map _
  rw [get?_harnessFlows_eq]
  by_cases isOrchestrator : target = OrchestratorFlow.flowName
  · rw [if_pos isOrchestrator]
    exact congrArg some (orchestrator.run_congr same host services ctx.request ctx)
  · rw [if_neg isOrchestrator]
    by_cases isSingle : target = SingleAgentFlow.flowName
    · rw [if_pos isSingle]
      exact congrArg some (single.run_congr same host services ctx.request ctx)
    · rw [if_neg isSingle]
      rfl

end Verdicts

/-! ## The gate of the command line -/

/-- A callback that approves everything leaves only the denials. -/
theorem ApprovalGate.check_autoApprove (matrix : PermissionMatrix) (call : ToolCall)
    (tier : RiskTier) :
    (⟨matrix, some autoApprove⟩ : ApprovalGate σ).check call tier =
      if matrix.policyFor tier = .deny then
        throw (notAllowed call tier)
      else
        pure () := by
  cases policy : matrix.policyFor tier with
  | autoAllow => exact check_of_autoAllow policy
  | deny => exact check_of_deny policy
  | requireApproval =>
      rw [check_of_callback policy rfl]
      rfl

theorem ApprovalGate.sameVerdicts_autoApprove {first second : PermissionMatrix}
    (sameDenials :
      ∀ tier, first.policyFor tier = .deny ↔ second.policyFor tier = .deny) :
    (⟨first, some autoApprove⟩ : ApprovalGate σ).SameVerdicts
      ⟨second, some autoApprove⟩ := by
  intro call tier
  rw [check_autoApprove, check_autoApprove, if_congr (sameDenials tier) rfl rfl]

/-! ## Invocations -/

namespace Invocation

open Cli

/-- The invocation under this matrix, in place of what the configuration says. -/
def withMatrix (invocation : Invocation σ μ)
    (matrix : Except PyExc PermissionMatrix) : Invocation σ μ :=
  { invocation with
    install :=
      { invocation.install with
        config := { invocation.install.config with permissionMatrix := matrix } } }

/-- The invocation with this `risk_matrix` in `harness.yaml`. -/
def withRiskMatrix (invocation : Invocation σ μ)
    (riskMatrix : OrderedDict String String) : Invocation σ μ :=
  invocation.withMatrix
    (permissionMatrix invocation.install.host.runtime riskMatrix)

/-- `_run`, with the gate as a parameter. -/
def runUnder (invocation : Invocation σ μ) (gate : ApprovalGate σ) : Cli σ μ Unit := do
  let install := invocation.install
  outside install.setup
  let (memory, closeMemory) ← connectMemory install
  let sessions ← connectSessions install
  onTables
    ((sessionStoreOf sessions).ensureSession invocation.ctx.sessionId
      invocation.ctx.userScope invocation.ctx.orgScope)
  let budget ← raiseError (install.config.budgetFor "default")
  let start ← monotonic install.host
  let router ← outside (install.buildRouter invocation.useTestModel)
  let services : HarnessServices σ μ := {
    tools := install.tools
    memory := memory
    budget :=
      { budget := budget
        modelId := install.settings.modelId
        pricing := install.config.pricing
        start := start }
    router := some router }
  let outcome ←
    attempt (runTurn invocation.loop invocation.ctx (services.withGate gate))
  invocation.settle ⟨services, closeMemory, sessions⟩ outcome

theorem run_withMatrix_eq (invocation : Invocation σ μ) (matrix : PermissionMatrix) :
    (invocation.withMatrix (.ok matrix)).run =
      invocation.runUnder ⟨matrix, some autoApprove⟩ := by
  unfold run prepare buildServices runUnder
  simp only [bind_assoc, pure_bind]
  rfl

/-- Of the matrix, an invocation depends on the denials only. -/
theorem run_withMatrix_congr (invocation : Invocation σ μ)
    {first second : PermissionMatrix}
    (sameDenials :
      ∀ tier, first.policyFor tier = .deny ↔ second.policyFor tier = .deny) :
    (invocation.withMatrix (.ok first)).run =
      (invocation.withMatrix (.ok second)).run := by
  have sameTurn : ∀ services : HarnessServices σ μ,
      runTurn invocation.loop invocation.ctx
          (services.withGate ⟨first, some autoApprove⟩) =
        runTurn invocation.loop invocation.ctx
          (services.withGate ⟨second, some autoApprove⟩) := by
    intro services
    have same :=
      AgentLoop.runTurn_withGate
        (ApprovalGate.sameVerdicts_autoApprove sameDenials) invocation.install.host
        services invocation.single invocation.orchestrator invocation.ctx
    unfold runTurn AgentLoop.turn loop
    rw [same]
  rw [run_withMatrix_eq, run_withMatrix_eq]
  unfold runUnder
  simp only [sameTurn]

/-- The invocations are the same up to risk matrices that are readable and deny the
same tiers. -/
structure DeniesAlike (first second : Invocation σ μ) : Prop where
  alike :
    ∃ (invocation : Invocation σ μ) (riskMatrix other : OrderedDict String String),
      first = invocation.withRiskMatrix riskMatrix ∧
        second = invocation.withRiskMatrix other ∧
          ReadableRiskMatrix riskMatrix ∧ ReadableRiskMatrix other ∧
            ∀ tier : RiskTier,
              riskMatrix.get? tier.value = some "deny" ↔
                other.get? tier.value = some "deny"

theorem DeniesAlike.sameRun {first second : Invocation σ μ}
    (denies : DeniesAlike first second) : first.run = second.run := by
  obtain ⟨invocation, riskMatrix, other, rfl, rfl, readable, otherReadable, same⟩ :=
    denies.alike
  let runtime := invocation.install.host.runtime
  obtain ⟨matrix, read⟩ := exists_permissionMatrix runtime readable
  obtain ⟨otherMatrix, otherRead⟩ := exists_permissionMatrix runtime otherReadable
  unfold withRiskMatrix
  rw [read, otherRead]
  apply run_withMatrix_congr
  intro tier
  rw [policyFor_eq_deny_iff read, policyFor_eq_deny_iff otherRead, same]

end Invocation

/-- Of the risk matrices of any sequence of invocations nothing counts but which
tiers they deny: approval is required of no tier. -/
theorem cli_enforces_denials_only {first second : List (Invocation σ μ)}
    (denies : List.Forall₂ Invocation.DeniesAlike first second)
    (machine : Machine σ μ) : machine.run first = machine.run second := by
  induction denies generalizing machine with
  | nil => rfl
  | @cons left right _ _ head _ inductionHypothesis =>
      have sameStep : machine.step left = machine.step right := by
        unfold Machine.step
        rw [head.sameRun]
      rw [Machine.run_cons, Machine.run_cons, sameStep]
      exact inductionHypothesis _

/-! ## The matrix that is shipped -/

namespace Terminal

def shippedMatrix : OrderedDict String String :=
  .ofList [
    ("read_only", "auto_allow"),
    ("writes_internal", "auto_allow"),
    ("financial", "require_approval"),
    ("destructive", "require_approval")]

/-- Nothing is subject to approval. -/
def lenientMatrix : OrderedDict String String :=
  .ofList [
    ("read_only", "auto_allow"),
    ("writes_internal", "auto_allow"),
    ("financial", "auto_allow"),
    ("destructive", "auto_allow")]

theorem readable_of_values {riskMatrix : OrderedDict String String}
    (known :
      ∀ text ∈ riskMatrix.entries,
        text.1 ∈ RiskTier.members.map RiskTier.value ∧
          text.2 ∈ Policy.members.map Policy.value) :
    ReadableRiskMatrix riskMatrix := by
  intro text member
  obtain ⟨named, ruled⟩ := known text member
  obtain ⟨tier, _, tierText⟩ := List.mem_map.mp named
  obtain ⟨policy, _, policyText⟩ := List.mem_map.mp ruled
  exact ⟨⟨tier, tierText⟩, policy, policyText⟩

end Terminal

/-- The shipped matrix requires no approval that the command line would not give. -/
theorem shipped_matrix_is_lenient :
    let invocation := Terminal.invocation Terminal.answering
    (Machine.start () () 0).run [invocation.withRiskMatrix Terminal.shippedMatrix] =
      (Machine.start () () 0).run
        [invocation.withRiskMatrix Terminal.lenientMatrix] := by
  intro invocation
  apply cli_enforces_denials_only
  refine .cons ⟨invocation, Terminal.shippedMatrix, Terminal.lenientMatrix, rfl, rfl, ?_⟩
    .nil
  have shipped : ReadableRiskMatrix Terminal.shippedMatrix :=
    Terminal.readable_of_values (by decide)
  have lenient : ReadableRiskMatrix Terminal.lenientMatrix :=
    Terminal.readable_of_values (by decide)
  refine ⟨shipped, lenient, ?_⟩
  intro tier
  cases tier <;> decide

end FableHarness
