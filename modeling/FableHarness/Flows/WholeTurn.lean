import FableHarness.Core.RoutedTurn
import FableHarness.Flows.Confinement

/-!
# Confinement of a whole turn

A relation that allows every kind of step that the code of a turn takes relates
the worlds before and after a turn, whatever it is routed to and however it ends.
-/

namespace FableHarness

open ExceptionState EventLog

variable {σ μ : Type} {spec : World σ μ → List Interaction → World σ μ → Prop}

/-- Any event but the report of a remember. -/
def Interaction.IsWork : Interaction → Prop
  | .remembered _ => False
  | _ => True

/-- The relation allows every kind of step. -/
structure AllowsTurn (spec : World σ μ → List Interaction → World σ μ → Prop)
    (memory : MemoryStore μ) : Prop where
  steps : Allows spec (fun _ => True) Interaction.IsWork
  memory : AllowsMemory spec memory
  settling : ∀ (world : World σ μ) status, spec world [] { world with status }

/-! ## The flows and what is around them -/

section Parts

variable [Composes spec] {benign : TurnExc → Prop} {safe : Interaction → Prop}
  (allows : Allows spec benign safe) (host : Host σ)
  (services : HarnessServices σ μ) (ctx : RunContext)
include allows

omit allows in
theorem SingleAgentFlow.confined_convertUsageLimit {α : Type}
    (budgetBenign : ∀ message, benign (.budgetExhausted message)) (exc : TurnExc) :
    Confined spec (fun raised => benign exc → benign raised)
      (convertUsageLimit exc : Turn σ μ α) := by
  cases exc with
  | toolError message => exact confined_throw id
  | repeatedFailure message => exact confined_throw id
  | budgetExhausted message => exact confined_throw id
  | outside raised =>
      cases raised with
      | permissionDenied message => exact confined_throw id
      | usageLimitExceeded message => exact confined_throw fun _ => budgetBenign _
      | other className message => exact confined_throw id

/-- The flow keeps to a relation if its tools do. -/
theorem SingleAgentFlow.confined_run_of_tool
    (allowsMemory : AllowsMemory spec services.memory)
    (settling : ∀ (world : World σ μ) status, spec world [] { world with status })
    (budgetBenign : ∀ message, benign (.budgetExhausted message))
    (runs : ∀ role, Agent.AdmitsRuns safe role)
    (startSafe :
      ∀ prompt memory, safe (.agentStarted .singleAgent prompt memory))
    (extractionSafe : ∀ prompt, safe (.agentStarted .extraction prompt []))
    (toolConfined :
      ∀ name arguments,
        Confined spec benign
          (tool host services (grantsFor services.approvalGate) name arguments))
    (flow : SingleAgentFlow σ) (request : String) :
    Confined spec benign (flow.run host request ctx services) := by
  have resets : Confined spec benign (modify resetCounters : Turn σ μ PUnit) := by
    apply Turn.confined_modifyGet allows
    exact fun _ => ⟨rfl, rfl, rfl, rfl⟩
  apply confined_bind resets
  intro _
  apply
    confined_bind (Turn.confined_recallContext allows allowsMemory ctx request)
  intro memory
  have agentRuns :=
    Agent.confined_run allows (runs .singleAgent) host
      (some services.budget.usageLimits) flow.model toolConfined
      (startSafe (prompt request memory) memory)
  apply
    confined_bind
      (confined_tryCatch agentRuns (confined_convertUsageLimit budgetBenign))
  intro result
  apply
    confined_bind
      (confined_settleBudget allows settling budgetBenign host services
        result.usage)
  intro _
  apply
    confined_bind
      (confined_rememberTurn allows (runs .extraction) extractionSafe host flow ctx
        allowsMemory request result.output)
  exact fun _ => confined_pure _

/-- The turn keeps to a relation if both flows do. -/
theorem AgentLoop.confined_runTurn_of_flows {tolerated : TurnExc → Prop}
    (outsideTolerated : ∀ exc, tolerated (.outside exc))
    (converts :
      ∀ exc, Confined spec (fun raised => benign exc → tolerated raised)
        (convert exc : Turn σ μ FlowResult))
    {single : SingleAgentFlow σ} {orchestrator : OrchestratorFlow σ}
    (singleRuns : Confined spec benign (single.run host ctx.request ctx services))
    (orchestratorRuns :
      Confined spec benign (orchestrator.run host ctx.request ctx services)) :
    Confined spec tolerated
      ((harness host single orchestrator).runTurn ctx services) := by
  have routes : Confined spec tolerated (route ctx services : Turn σ μ _) := by
    have works :
        ∀ world : World σ μ, ∀ env metadata,
          spec world [] { world with env, metadata } :=
      fun _ _ _ => allows.working _ _ rfl rfl rfl le_rfl
    intro world
    rcases run_route ctx services world with
      ⟨decision, env, metadata, routed⟩ | ⟨raised, env, metadata, failed⟩
    · refine ends_of_ok routed (List.append_nil _).symm ⟨works _ _ _, ?_⟩
      intro exc equal
      cases equal
    · refine ends_of_error failed (List.append_nil _).symm ⟨works _ _ _, ?_⟩
      intro exc equal
      cases equal
      exact outsideTolerated raised
  have stamps :
      ∀ result, Confined spec tolerated (stampResult ctx result : Turn σ μ Unit) := by
    intro result
    apply confined_of_silent (fun _ => rfl)
    · exact fun world => allows.working _ _ rfl rfl rfl le_rfl
    · intro world exc equal
      cases equal
  unfold runTurn
  apply confined_bind routes
  intro decision
  cases dispatched : (harness host single orchestrator).dispatch decision with
  | answer result => exact confined_pure result
  | flow name flow =>
      have runs : Confined spec benign (flow ctx.request ctx services) := by
        rcases get?_harnessFlows (dispatch_eq_flow dispatched) with
          ⟨_, same⟩ | ⟨_, same⟩
        · rw [same]
          exact singleRuns
        · rw [same]
          exact orchestratorRuns
      apply confined_bind (confined_tryCatch runs converts)
      intro result
      apply confined_bind (stamps result)
      exact fun _ => confined_pure result

end Parts

/-! ## Relations that allow every kind of step -/

section Flows

variable [Composes spec] (host : Host σ) {services : HarnessServices σ μ}
  (allows : AllowsTurn spec services.memory)
include allows

theorem SingleAgentFlow.confined_whole (flow : SingleAgentFlow σ) (request : String)
    (ctx : RunContext) :
    Confined spec (fun _ => True) (flow.run host request ctx services) := by
  have failures : AdmitsFailures Interaction.IsWork :=
    ⟨fun _ => trivial, fun _ _ => trivial, fun _ _ => trivial⟩
  apply confined_run_of_tool allows.steps host services ctx allows.memory
    allows.settling
  · exact fun _ => trivial
  · exact fun _ => ⟨fun _ _ => trivial, trivial, fun _ => trivial⟩
  · exact fun _ _ => trivial
  · exact fun _ => trivial
  · exact
      confined_tool allows.steps failures (fun _ _ _ _ => trivial) host services
        (grantsFor services.approvalGate)

theorem OrchestratorFlow.confined_whole (flow : OrchestratorFlow σ)
    (request : String) (ctx : RunContext) :
    Confined spec (fun _ => True) (flow.run host request ctx services) := by
  have admits : AdmitsFlow Interaction.IsWork :=
    ⟨fun _ => ⟨fun _ _ => trivial, trivial, fun _ => trivial⟩, fun _ => trivial,
      fun _ _ => trivial⟩
  exact
    confined_run allows.steps admits host flow request ctx allows.memory
      fun _ _ _ => trivial

namespace AgentLoop

theorem confined_runTurn (single : SingleAgentFlow σ)
    (orchestrator : OrchestratorFlow σ) (ctx : RunContext) :
    Confined spec (fun _ => True)
      ((harness host single orchestrator).runTurn ctx services) := by
  apply confined_runTurn_of_flows allows.steps host services ctx (fun _ => trivial)
  · exact fun exc =>
      (confined_convert exc).mono (fun _ _ _ => id) fun _ _ _ => trivial
  · exact single.confined_whole host allows ctx.request ctx
  · exact orchestrator.confined_whole host allows ctx.request ctx

/-- What a turn does to the world, and what it records meanwhile. -/
theorem turn_keeps (single : SingleAgentFlow σ)
    (orchestrator : OrchestratorFlow σ) (ctx : RunContext) (world : World σ μ) :
    let ran := (harness host single orchestrator).turn ctx services world
    spec world.untraced (finalState ran).trace (finalState ran) := by
  obtain ⟨events, appended, kept, _⟩ :=
    confined_runTurn host allows single orchestrator ctx world.untraced
  have trace :
      (finalState
        ((harness host single orchestrator).turn ctx services world)).trace =
        events :=
    appended
  simp only [trace]
  exact kept

end AgentLoop

end Flows

end FableHarness
