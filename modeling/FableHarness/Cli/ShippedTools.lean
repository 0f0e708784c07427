import FableHarness.Cli.Enforcement
import FableHarness.Flows.ServedTools
import FableHarness.Tools.DemoTools

/-!
# The command line with its own tools

With the tools of `_build_registry` the risk matrix alone decides what a turn gets
from them: the record of the client or the denial of its tier, and never a failure.
-/

namespace FableHarness

open ExceptionState

variable {σ μ : Type}

/-- The matrix denies no tier of the demo tools. -/
structure PermissionMatrix.AdmitsDemoTools (matrix : PermissionMatrix) : Prop where
  readOnly : matrix.policyFor .readOnly ≠ .deny
  financial : matrix.policyFor .financial ≠ .deny

namespace OrchestratorFlow

/-- The source that a lookup of the client yields: its record, or the denial. -/
def sourceOf (matrix : PermissionMatrix) (toolName client : String)
    (tier : RiskTier) (record : String) : String :=
  if matrix.policyFor tier = .deny then
    unavailable <| some <|
      (ApprovalGate.notAllowed
        ⟨toolName, [("client", .str client)], flowName⟩ tier).message
  else
    record

/-- The sources of a client under a matrix; the retrieved context is free. -/
def IsSource (matrix : PermissionMatrix) (client : String) :
    Worker → String → Prop
  | .account, source =>
      source =
        sourceOf matrix "account_lookup" client .financial
          (DemoTools.accountRecord client)
  | .meeting, source =>
      source =
        sourceOf matrix "meeting_history" client .readOnly
          (DemoTools.meetingRecord client)
  | .retrieval, _ => True

end OrchestratorFlow

/-! ## Calls under the approving gate -/

namespace InMemoryToolRegistry

variable {registry : InMemoryToolRegistry σ} {call : ToolCall} {tier : RiskTier}
  {isOutput : String → Prop} {matrix : PermissionMatrix}

theorem answers_of_admitted (serves : registry.Serves call tier isOutput)
    (admitted : matrix.policyFor tier ≠ .deny) :
    registry.Answers ⟨⟨matrix, some autoApprove⟩⟩ call fun verdict result =>
      verdict = .entered ∧ result.ok = true ∧ ∃ output,
        result.output = some output ∧ isOutput output := by
  obtain ⟨spec, found, rfl, accepts, returns⟩ := serves
  intro env
  obtain ⟨output, after, ran, holds⟩ := returns env
  refine ⟨.entered, succeeded spec output, after, ?_, rfl, rfl, output, rfl, holds⟩
  have bound : spec.handler.bindError call.arguments = none := accepts
  unfold executeObserved
  simp only [found, ApprovalGate.check_autoApprove, if_neg admitted,
    EStateM.run_bind, run_attempt]
  show (enterHandler spec call.arguments).run env = _
  unfold enterHandler
  simp only [bound, EStateM.run_bind, run_attempt, ran]
  rfl

theorem answers_of_denied (serves : registry.Serves call tier isOutput)
    (denied : matrix.policyFor tier = .deny) :
    registry.Answers ⟨⟨matrix, some autoApprove⟩⟩ call fun _ result =>
      result.ok = false ∧
        result.error = some (ApprovalGate.notAllowed call tier).message := by
  obtain ⟨spec, found, rfl, _, _⟩ := serves
  intro env
  refine ⟨.denied, failed spec (ApprovalGate.notAllowed call spec.riskTier).message,
    env, ?_, rfl, rfl⟩
  unfold executeObserved
  simp only [found, ApprovalGate.check_autoApprove, if_pos denied,
    EStateM.run_bind, run_attempt]
  rfl

end InMemoryToolRegistry

open InMemoryToolRegistry

/-- A lookup comes back with the source of the client, and undenied if its tier is. -/
theorem OrchestratorFlow.answers_lookup {registry : InMemoryToolRegistry σ}
    (matrix : PermissionMatrix) {toolName client record : String} {tier : RiskTier}
    (serves :
      registry.Serves ⟨toolName, [("client", .str client)], flowName⟩ tier
        (· = record)) :
    registry.Answers ⟨⟨matrix, some autoApprove⟩⟩
      ⟨toolName, [("client", .str client)], flowName⟩ fun verdict result =>
        workerOutput result = sourceOf matrix toolName client tier record ∧
          (matrix.policyFor tier ≠ .deny → verdict ≠ .denied) := by
  by_cases denied : matrix.policyFor tier = .deny
  · intro env
    obtain ⟨verdict, result, after, ran, failed, error⟩ :=
      answers_of_denied serves denied env
    refine ⟨verdict, result, after, ran, ?_, fun admitted => absurd denied admitted⟩
    simp [workerOutput, sourceOf, failed, error, denied]
  · intro env
    obtain ⟨_, result, after, ran, rfl, ok, output, returned, rfl⟩ :=
      answers_of_admitted serves denied env
    refine ⟨.entered, result, after, ran, ?_, fun _ => by decide⟩
    simp [workerOutput, sourceOf, ok, returned, denied]

/-- What the tool functions of the single agent pass on is served. -/
theorem DemoTools.serves_wired (host : DemoHost σ) (flow : String) {name : String}
    {arguments passed : Arguments}
    (wired : SingleAgentFlow.wiredArguments name arguments = some passed) :
    (buildRegistry host).Serves ⟨name, passed, flow⟩ .readOnly fun _ => True := by
  unfold SingleAgentFlow.wiredArguments at wired
  split at wired
  · cases wired
    exact serves_getCurrentTime host flow
  · cases wired
    rename_i text
    obtain ⟨spec, found, tier, accepts, returns⟩ := serves_echo host flow text
    refine ⟨spec, found, tier, accepts, ?_⟩
    intro env
    obtain ⟨output, after, ran, _⟩ := returns env
    exact ⟨output, after, ran, trivial⟩
  · cases wired

theorem toolsAnswer_of_shipped {services : HarnessServices σ μ}
    {host : DemoHost σ} {matrix : PermissionMatrix}
    (orchestrator : OrchestratorFlow σ)
    (tools : services.tools = DemoTools.buildRegistry host)
    (gate : services.approvalGate = some ⟨matrix, some autoApprove⟩) :
    ToolsAnswer services orchestrator matrix.AdmitsDemoTools
      (OrchestratorFlow.IsSource matrix orchestrator.clientKey) where
  account := by
    intro env
    obtain ⟨verdict, result, after, ran, source, undenied⟩ :=
      OrchestratorFlow.answers_lookup matrix
        (DemoTools.serves_accountLookup host OrchestratorFlow.flowName
          orchestrator.clientKey) env
    rw [tools, gate]
    exact ⟨verdict, result, after, ran, source, fun admits => undenied admits.financial⟩
  meeting := by
    intro env
    obtain ⟨verdict, result, after, ran, source, undenied⟩ :=
      OrchestratorFlow.answers_lookup matrix
        (DemoTools.serves_meetingHistory host OrchestratorFlow.flowName
          orchestrator.clientKey) env
    rw [tools, gate]
    exact ⟨verdict, result, after, ran, source, fun admits => undenied admits.readOnly⟩
  retrieved _ := trivial
  wired := by
    intro admits name arguments passed wired env
    obtain ⟨verdict, result, after, ran, _, ok, _⟩ :=
      answers_of_admitted
        (DemoTools.serves_wired host SingleAgentFlow.flowName wired) admits.readOnly env
    rw [tools, gate]
    exact ⟨verdict, result, after, ran, ok⟩
  searched := by
    intro admits name arguments
    unfold RetrievalToolset.checkCall OrchestratorFlow.toolset
    rw [gate]
    simp only [ApprovalGate.check_autoApprove, if_neg admits.readOnly]

/-! ## Invocations -/

namespace Invocation

/-- The tools and the gate that a prepared turn uses. -/
theorem gate_of_prepare {invocation : Invocation σ μ} {prepared : Prepared σ μ}
    {before after : Machine σ μ}
    (run : invocation.prepare.run before = .ok prepared after) :
    prepared.services.tools = invocation.install.tools ∧
      ∃ matrix,
        invocation.install.config.permissionMatrix = .ok matrix ∧
          prepared.services.approvalGate = some ⟨matrix, some autoApprove⟩ := by
  unfold prepare at run
  obtain ⟨_, _, _, run⟩ := run_bind_eq_ok.mp run
  obtain ⟨_, _, _, run⟩ := run_bind_eq_ok.mp run
  obtain ⟨_, _, _, run⟩ := run_bind_eq_ok.mp run
  obtain ⟨_, _, _, run⟩ := run_bind_eq_ok.mp run
  obtain ⟨services, _, built, run⟩ := run_bind_eq_ok.mp run
  cases run
  unfold buildServices at built
  obtain ⟨budget, _, _, built⟩ := run_bind_eq_ok.mp built
  obtain ⟨start, _, _, built⟩ := run_bind_eq_ok.mp built
  obtain ⟨router, _, _, built⟩ := run_bind_eq_ok.mp built
  obtain ⟨matrix, _, read, built⟩ := run_bind_eq_ok.mp built
  cases built
  cases known : invocation.install.config.permissionMatrix with
  | error exc =>
      rw [known] at read
      cases read
  | ok own =>
      rw [known] at read
      cases read
      exact ⟨rfl, _, rfl, rfl⟩

end Invocation

/-- A turn under this matrix: synthesis and critic were given the sources of the
client, and if the matrix admits the demo tools, no call of a tool was denied or
failed, and only what outside code raised can have left the turn. -/
structure TurnEntry.GroundedUnder (invocation : Invocation σ μ)
    (matrix : PermissionMatrix) (entry : TurnEntry) : Prop where
  sources :
    ∀ event ∈ entry.trace,
      event.Grounded invocation.install.host.runtime invocation.request
        (OrchestratorFlow.IsSource matrix "client_x")
  quiet : matrix.AdmitsDemoTools → ∀ event ∈ entry.trace, event.Quiet
  raises : matrix.AdmitsDemoTools → SingleAgentFlow.OutsideOnly entry.outcome

theorem Invocation.turn_grounded {invocation : Invocation σ μ} {host : DemoHost σ}
    (shipped : invocation.install.tools = DemoTools.buildRegistry host)
    (machine : Machine σ μ) :
    ∃ added,
      (machine.step invocation).turns = machine.turns ++ added ∧
        ∀ entry ∈ added, ∃ matrix,
          invocation.install.config.permissionMatrix = .ok matrix ∧
            entry.GroundedUnder invocation matrix := by
  cases invocation.stage machine with
  | unstarted _ turns _ => exact ⟨[], by rw [turns, List.append_nil], by simp⟩
  | turned prepared ready prepares _ _ turns _ _ =>
      obtain ⟨tools, matrix, read, gate⟩ := gate_of_prepare prepares
      have answers :=
        toolsAnswer_of_shipped invocation.orchestrator (tools.trans shipped) gate
      obtain ⟨accounted, outside⟩ :=
        AgentLoop.turn_accounted answers invocation.install.host invocation.single
          invocation.ctx ready.world
      refine ⟨[_], turns, ?_⟩
      intro entry member
      rw [List.mem_singleton.mp member]
      refine ⟨matrix, read, ?_, ?_, outside⟩
      · exact fun event present => (accounted event present).grounded
      · exact fun admits event present => (accounted event present).quiet admits

/-- Over every sequence of invocations with the shipped tools, every turn is grounded
under the risk matrix of its invocation. -/
theorem cli_turns_grounded (machine : Machine σ μ)
    (hostOf : Invocation σ μ → DemoHost σ) (invocations : List (Invocation σ μ))
    (shipped :
      ∀ invocation ∈ invocations,
        invocation.install.tools = DemoTools.buildRegistry (hostOf invocation)) :
    ∃ additions,
      List.Forall₂
          (fun (invocation : Invocation σ μ) (added : List TurnEntry) =>
            ∀ entry ∈ added, ∃ matrix,
              invocation.install.config.permissionMatrix = .ok matrix ∧
                entry.GroundedUnder invocation matrix)
          invocations additions ∧
        (machine.run invocations).turns = machine.turns ++ additions.flatten := by
  induction invocations generalizing machine with
  | nil => exact ⟨[], .nil, (List.append_nil _).symm⟩
  | cons invocation rest inductionHypothesis =>
      obtain ⟨added, turns, grounded⟩ :=
        Invocation.turn_grounded (shipped invocation List.mem_cons_self) machine
      obtain ⟨additions, later, laterTurns⟩ :=
        inductionHypothesis (machine.step invocation)
          fun other member => shipped other (List.mem_cons_of_mem _ member)
      refine ⟨added :: additions, .cons grounded later, ?_⟩
      rw [Machine.run_cons, laterTurns, turns, List.append_assoc]
      rfl

/-! ## A meeting to prepare -/

namespace Terminal

/-- An invocation with the shipped tools that is routed to the orchestrator. -/
def meeting (matrix : PermissionMatrix) : Invocation Unit Unit where
  install :=
    { install answering with
      config := { (install answering).config with permissionMatrix := .ok matrix }
      tools := DemoTools.buildRegistry DemoTools.demoHost
      buildRouter := fun _ => pure (staticRouter .flow OrchestratorFlow.flowName) }
  request := "prep me for my meeting with client X"

end Terminal

/-- A meeting under the shipped matrix, and one without access to accounts. -/
theorem meetings_grounded :
    let denying : PermissionMatrix := ⟨.ofList [(.financial, .deny)]⟩
    let invocations := [Terminal.meeting {}, Terminal.meeting denying]
    let machine : Machine Unit Unit := Machine.start () () 0
    ∃ additions,
      List.Forall₂
          (fun (invocation : Invocation Unit Unit) (added : List TurnEntry) =>
            ∀ entry ∈ added, ∃ matrix,
              invocation.install.config.permissionMatrix = .ok matrix ∧
                entry.GroundedUnder invocation matrix)
          invocations additions ∧
        (machine.run invocations).turns = machine.turns ++ additions.flatten := by
  intro denying invocations machine
  apply cli_turns_grounded machine (fun _ => DemoTools.demoHost) invocations
  intro invocation member
  rcases List.mem_cons.mp member with rfl | last
  · rfl
  · rw [List.mem_singleton.mp last]
    rfl

end FableHarness
