import FableHarness.Core.RoutedTurn
import FableHarness.Flows.Spending

/-!
# The budget as a ceiling

The single-agent flow hands the usage limits to its agent and polls the tracker
afterwards, so a success is within the budget.  The orchestrator does neither,
and a budget bounds its turns only if nothing could exceed it.
-/

namespace FableHarness

open ExceptionState EventLog

variable {σ μ : Type}

/-! ## The tracker inside a turn -/

theorem recordUsage_returns (host : Host σ) (services : HarnessServices σ μ)
    (inputTokens outputTokens toolCalls : Nat) :
    Returns World.trace
      (Turn.recordUsage host services inputTokens outputTokens toolCalls)
      fun before _ events after =>
        events = [] ∧ before.clock ≤ after.clock ∧
          after.status.costUsd =
            before.status.costUsd +
              services.budget.cost inputTokens outputTokens := by
  apply returns_of_silent (fun _ => rfl)
  intro before value after equal
  cases equal
  refine ⟨rfl, ?_, BudgetTracker.costUsd_recordUsage _ _ _ _⟩
  exact le_add_of_nonneg_right (NNRat.coe_nonneg _)

theorem checkWallClock_returns (host : Host σ) (services : HarnessServices σ μ) :
    Returns World.trace (Turn.checkWallClock host services)
      fun before exhausted events _ =>
        events = [] ∧
          (exhausted = false →
            ∃ polled, before.clock ≤ polled ∧
              services.budget.Within (polled - services.budget.start)
                before.status.costUsd) := by
  apply returns_of_silent (fun _ => rfl)
  intro before value after equal
  cases equal
  refine ⟨rfl, ?_⟩
  intro unexhausted
  refine ⟨_, ?_, BudgetTracker.within_of_checkWallClock unexhausted⟩
  exact le_add_of_nonneg_right (NNRat.coe_nonneg _)

namespace SingleAgentFlow

/-! ## The single-agent flow -/

/-- What is known once the tracker has been polled. -/
structure Polled (tracker : BudgetTracker) (usage : RunUsage)
    (before : World σ μ) (events : List Interaction) : Prop where
  silent : events = []
  within :
    ∃ polled, before.clock ≤ polled ∧
      tracker.Within (polled - tracker.start)
        (before.status.costUsd +
          tracker.cost usage.inputTokens usage.outputTokens)

theorem settleBudget_returns (host : Host σ) (services : HarnessServices σ μ)
    (usage : RunUsage) :
    Returns World.trace (settleBudget host services usage)
      fun before _ events _ => Polled services.budget usage before events := by
  apply returns_bind returns_get
  intro world
  apply returns_bind (recordUsage_returns host services _ _ _)
  intro _
  apply returns_bind (checkWallClock_returns host services)
  intro exhausted
  cases exhausted with
  | true =>
      apply returns_bind returns_get
      exact fun _ => returns_throw _
  | false =>
      apply returns_pure
      intro last recorded polling ⟨pollSilent, poll⟩ first recording
        ⟨recordSilent, later, cost⟩ before getting ⟨_, getSilent, same⟩
      obtain ⟨polled, laterStill, within⟩ := poll rfl
      rw [cost] at within
      cases same
      constructor
      · rw [pollSilent, recordSilent, getSilent]
        rfl
      · exact ⟨polled, later.trans laterStill, within⟩

/-- A run under the tracker's usage limits, polled afterwards by the tracker, is
within the budget. -/
theorem withinBudget_of_spent {tracker : BudgetTracker} {usage : RunUsage}
    {before middle : World σ μ} {events later : List Interaction}
    (spent :
      Agent.Spent (some tracker.usageLimits) usage before events middle)
    (poll : Polled tracker usage middle later) (fresh : before.status = {}) :
    WithinBudget tracker events := by
  obtain ⟨polled, after, within⟩ := poll.within
  have nothingYet : middle.status.costUsd = 0 := by
    rw [spent.status, fresh]
  rw [nothingYet, zero_add, spent.input, spent.output] at within
  constructor
  · intro limit present
    have used := spent.tokensWithin limit present
    rw [RunUsage.totalTokens, spent.input, spent.output] at used
    rw [totalOf_totalTokens]
    exact used
  · intro limit present
    rw [← spent.toolCalls]
    exact spent.callsWithin limit present
  · exact within.cost
  · intro limit present time last
    obtain ⟨ended, same, beforeMiddle⟩ := spent.ended
    cases same.symm.trans last
    calc
      time - tracker.start ≤ polled - tracker.start :=
        sub_le_sub_right (beforeMiddle.trans after) _
      _ ≤ limit := within.wallClock limit present

theorem convertUsageLimit_raises (exc : TurnExc) :
    Returns World.trace
      (convertUsageLimit exc : Turn σ μ (AgentResult String))
      fun _ _ _ _ => False := by
  obtain ⟨raised, equal⟩ := convertUsageLimit_eq_throw exc
  rw [equal]
  exact returns_throw raised

/-- A success of the single-agent flow is within the budget. -/
theorem run_returns (host : Host σ) (flow : SingleAgentFlow σ) (ctx : RunContext)
    (services : HarnessServices σ μ) (request : String) :
    Returns World.trace (run host flow request ctx services)
      fun before _ events _ =>
        before.status = {} → WithinBudget services.budget events := by
  have allowsMemory :
      AllowsMemory (Spendless : World σ μ → _ → World σ μ → Prop)
        services.memory :=
    allowsMemory_spendless services.memory
  have resets :
      Confined Spendless (fun _ => True)
        (modify resetCounters : Turn σ μ PUnit) :=
    Turn.confined_modifyGet allows_spendless fun _ => ⟨rfl, rfl, rfl, rfl⟩
  apply returns_bind resets.returns
  intro _
  apply
    returns_bind
      (Turn.confined_recallContext allows_spendless allowsMemory ctx
        request).returns
  intro memory
  apply
    returns_bind
      (returns_tryCatch
        (Agent.run_returns (by decide) (some services.budget.usageLimits)
          (spendsNothing_tool host services (grantsFor services.approvalGate))
          host flow.model (prompt request memory) memory)
        convertUsageLimit_raises)
  intro result
  apply returns_bind (settleBudget_returns host services result.usage)
  intro _
  apply
    returns_bind
      (spendsNothing_rememberTurn host flow ctx services request
        result.output).returns
  intro _
  apply returns_pure
  intro last remembering remembered rememberUncounted settling settled poll running
    events spent recalling recalled recallSpends starting started startSpends fresh
  have ahead : Spendless starting (started ++ recalled) running :=
    startSpends.append recallSpends
  have within : WithinBudget services.budget events :=
    withinBudget_of_spent spent poll (ahead.keeps.status.trans fresh)
  rw [poll.silent, List.nil_append, List.append_nil, ← List.append_assoc]
  exact within.surround ahead.uncounted rememberUncounted.uncounted

end SingleAgentFlow

/-! ## The ceiling -/

/-- The budget of the tracker is a ceiling for a flow: whatever the models, the
tools and the rest of the outside world do, every success of a turn that runs
the flow under this tracker, while it is fresh, is within the budget. -/
def KeepsCeiling (tracker : BudgetTracker) (target : String) : Prop :=
  ∀ (σ μ : Type) (host : Host σ) (single : SingleAgentFlow σ)
    (orchestrator : OrchestratorFlow σ) (ctx : RunContext)
    (services : HarnessServices σ μ) (world : World σ μ) (result : FlowResult),
    services.budget = tracker →
    world.status = {} →
    tracker.start ≤ world.clock →
    (AgentLoop.harness host single orchestrator).target ctx services world =
        some target →
    answer
        ((AgentLoop.harness host single orchestrator).turn ctx services world) =
      .ok result →
    result.success = true →
    WithinBudget tracker
      (finalState
        ((AgentLoop.harness host single orchestrator).turn ctx services
          world)).trace

/-- No spending exceeds the budget. -/
structure Unexceedable (tracker : BudgetTracker) : Prop where
  tokens : tracker.budget.maxTotalTokens = none
  toolCalls : tracker.budget.maxToolCalls = none
  wallClock : tracker.budget.maxWallClockSeconds = none
  cost :
    ∀ limit, tracker.budget.maxCostUsd = some limit →
      ∀ inputTokens outputTokens, tracker.cost inputTokens outputTokens ≤ limit

theorem withinBudget_of_unexceedable {tracker : BudgetTracker}
    (unexceedable : Unexceedable tracker) (trace : List Interaction) :
    WithinBudget tracker trace := by
  constructor
  · simp [unexceedable.tokens]
  · simp [unexceedable.toolCalls]
  · exact fun limit present => unexceedable.cost limit present _ _
  · simp [unexceedable.wallClock]

/-- What `run_turn` makes of an exception is no success. -/
theorem convert_fails (exc : TurnExc) :
    Returns World.trace (AgentLoop.convert exc : Turn σ μ FlowResult)
      fun _ result _ _ => result.success = false := by
  cases exc with
  | toolError message => exact returns_throw _
  | repeatedFailure message => exact returns_pure fun _ => rfl
  | budgetExhausted message => exact returns_pure fun _ => rfl
  | outside raised =>
      cases raised with
      | permissionDenied message => exact returns_pure fun _ => rfl
      | usageLimitExceeded message => exact returns_throw _
      | other className message => exact returns_throw _

theorem convertedRun_returns (host : Host σ) (single : SingleAgentFlow σ)
    (ctx : RunContext) (services : HarnessServices σ μ) (request : String) :
    Returns World.trace
      (tryCatch (single.run host request ctx services) AgentLoop.convert)
      fun before result events _ =>
        before.status = {} → result.success = true →
          WithinBudget services.budget events := by
  intro before
  apply ends_tryCatch (single.run_returns host ctx services request before)
  · exact fun result events after within value equal fresh _ =>
      within value equal fresh
  · intro exc events after _
    refine (convert_fails exc after).mono ?_
    intro outcome later final fails result equal _ success
    rw [fails result equal] at success
    cases success

theorem keepsCeiling_single (tracker : BudgetTracker) :
    KeepsCeiling tracker SingleAgentFlow.flowName := by
  intro σ μ host single orchestrator ctx services world result budget fresh _
    targeted returned success
  obtain ⟨flow, decision, env, metadata, found, _, turnEnds⟩ :=
    AgentLoop.exists_routed targeted
  rcases AgentLoop.get?_harnessFlows found with ⟨_, same⟩ | ⟨different, _⟩
  · have ends :=
      turnEnds
        (fun outcome events =>
          ∀ result, outcome = .ok result → result.success = true →
            WithinBudget services.budget events)
    rw [same] at ends
    rw [← budget]
    refine ends ?_ result returned success
    refine
      (convertedRun_returns host single ctx services ctx.request _).mono ?_
    exact fun outcome events _ within value equal =>
      within value equal fresh
  · exact absurd different (by decide)

end FableHarness
