import FableHarness.Core.OutcomeStamps
import FableHarness.Flows.Spending

/-!
# The ledger at the end of a turn

The single-agent flow records its usage once the agent run has returned.  A run
that raises is not recorded, so whether the ledger agrees with the outcome is a
question of how the run can raise.
-/

namespace FableHarness

open ExceptionState EventLog

variable {σ μ : Type}

/-! ## Agreement -/

/-- The stop reason that `run_turn` gives an exception, if it catches it. -/
def TurnExc.stopReason : TurnExc → Option String
  | .repeatedFailure _ => some "repeated_failure"
  | .budgetExhausted _ => some "budget_exhausted"
  | .outside (.permissionDenied _) => some "permission_denied"
  | _ => none

/-- The ledger agrees with the trace, and the stop reason with the ledger. -/
structure Accords (stopReason : String) (after : World σ μ) : Prop where
  tokens : after.status.tokensUsed = totalOf RunUsage.totalTokens after.trace
  exhausted : stopReason = "budget_exhausted" ↔ after.status.exhausted = true

/-- However the flow ended, what `run_turn` returns for it accords. -/
def EndsInAccord : EStateM.Result TurnExc (World σ μ) FlowResult → Prop
  | .ok result after => Accords result.stopReason after
  | .error exc after =>
      ∀ reason, exc.stopReason = some reason → Accords reason after

/-- An empty ledger accords with a turn that consumed nothing and stopped for
another reason. -/
theorem accords_of_fresh {reason : String} {after : World σ μ}
    (fresh : after.status = {}) :
    Accords reason after ↔
      totalOf RunUsage.totalTokens after.trace = 0 ∧
        reason ≠ "budget_exhausted" := by
  constructor
  · intro accords
    have tokens := accords.tokens
    have exhausted := accords.exhausted
    rw [fresh] at tokens exhausted
    exact ⟨tokens.symm, fun same => by cases exhausted.mp same⟩
  · intro ⟨unspent, other⟩
    constructor
    · rw [fresh, unspent]
    · rw [fresh]
      exact ⟨fun same => absurd same other, fun same => by cases same⟩

theorem run_convert_eq_ok_iff {exc : TurnExc} {before after : World σ μ}
    {result : FlowResult} :
    (AgentLoop.convert exc).run before = .ok result after ↔
      exc.stopReason = some result.stopReason ∧ after = before ∧
        result = ⟨some (.text exc.message), false, result.stopReason, []⟩ := by
  have returns (reason message : String) :
      (pure ⟨some (.text message), false, reason, []⟩ :
          Turn σ μ FlowResult).run before = .ok result after ↔
        some reason = some result.stopReason ∧ after = before ∧
          result = ⟨some (.text message), false, result.stopReason, []⟩ := by
    constructor
    · intro same
      cases same
      exact ⟨rfl, rfl, rfl⟩
    · rintro ⟨reasoned, rfl, same⟩
      rw [same, ← Option.some.inj reasoned]
      rfl
  cases exc with
  | toolError message => simp [AgentLoop.convert, TurnExc.stopReason]
  | repeatedFailure message => exact returns "repeated_failure" message
  | budgetExhausted message => exact returns "budget_exhausted" message
  | outside raised =>
      cases raised with
      | permissionDenied message => exact returns "permission_denied" message
      | usageLimitExceeded message =>
          simp [AgentLoop.convert, TurnExc.stopReason]
      | other className message =>
          simp [AgentLoop.convert, TurnExc.stopReason]

theorem endsInAccord_iff {program : Turn σ μ FlowResult} {before : World σ μ} :
    EndsInAccord (program.run before) ↔
      ∀ result after,
        (tryCatch program AgentLoop.convert).run before = .ok result after →
          Accords result.stopReason after := by
  rw [run_tryCatch]
  cases program.run before with
  | ok returned last =>
      constructor
      · intro accords result after same
        cases same
        exact accords
      · exact fun accords => accords returned last rfl
  | error exc last =>
      constructor
      · intro accords result after converted
        obtain ⟨reasoned, rfl, _⟩ := run_convert_eq_ok_iff.mp converted
        exact accords _ reasoned
      · intro accords reason reasoned
        exact
          accords ⟨some (.text exc.message), false, reason, []⟩ last
            (run_convert_eq_ok_iff.mpr ⟨reasoned, rfl, rfl⟩)

/-! ## Programs that leave the ledger alone -/

/-- The ledger is kept, whatever is recorded. -/
def KeepsStatus (before : World σ μ) (_ : List Interaction)
    (after : World σ μ) : Prop :=
  after.status = before.status

instance : Composes (KeepsStatus : World σ μ → _ → World σ μ → Prop) where
  nil _ := rfl
  append first second := second.trans first

theorem allows_keepsStatus {benign : TurnExc → Prop}
    (outside : ∀ exc, benign (.outside exc)) :
    Allows (KeepsStatus : World σ μ → _ → World σ μ → Prop) benign
      fun _ => True where
  working _ _ _ _ status _ := status
  recording _ _ _ := rfl
  outside := outside

namespace SingleAgentFlow

variable {host : Host σ} {flow : SingleAgentFlow σ} {request : String}
  {ctx : RunContext} {services : HarnessServices σ μ} {memory : List String}

/-- The main agent run, on the memory it was given. -/
def mainRun (host : Host σ) (flow : SingleAgentFlow σ) (request : String)
    (services : HarnessServices σ μ) (memory : List String) :
    Turn σ μ (AgentResult String) :=
  Agent.run host .singleAgent (some services.budget.usageLimits) flow.model
    (tool host services (grantsFor services.approvalGate))
    (prompt request memory) memory

/-- What follows the main agent run. -/
def conclude (host : Host σ) (flow : SingleAgentFlow σ) (request : String)
    (ctx : RunContext) (services : HarnessServices σ μ)
    (result : AgentResult String) : Turn σ μ FlowResult := do
  settleBudget host services result.usage
  rememberTurn host flow ctx services request result.output
  return ⟨some (.text result.output), true, "success", result.messages⟩

theorem run_eq_conclude :
    flow.run host request ctx services =
      (modify resetCounters >>= fun _ =>
        Turn.recallContext services ctx request >>= fun memory =>
          tryCatch (mainRun host flow request services memory)
              convertUsageLimit >>=
            conclude host flow request ctx services) :=
  rfl

/-- A main agent run leaves the ledger alone and raises nothing of the budget's. -/
theorem confined_mainRun (host : Host σ) (flow : SingleAgentFlow σ)
    (request : String) (services : HarnessServices σ μ) (memory : List String) :
    Confined KeepsStatus (fun exc => ∀ message, exc ≠ .budgetExhausted message)
      (mainRun host flow request services memory) := by
  have allows :
      Allows (KeepsStatus : World σ μ → _ → World σ μ → Prop)
        (fun exc => ∀ message, exc ≠ .budgetExhausted message) fun _ => True :=
    allows_keepsStatus fun _ _ same => by cases same
  have failureBenign :
      ∀ raised result exc, failure raised result = some exc →
        ∀ message, exc ≠ .budgetExhausted message := by
    intro raised result exc failed message same
    subst same
    unfold failure at failed
    split at failed <;> cases failed
  exact
    Agent.confined_run allows ⟨fun _ _ => trivial, trivial, fun _ => trivial⟩ host
      _ flow.model
      (confined_tool allows
        ⟨fun _ => trivial, fun _ _ => trivial, fun _ _ => trivial⟩ failureBenign
        host services _)
      trivial

/-- A finished main agent run reports what it has consumed. -/
theorem consumed_of_mainRun {before answered : World σ μ}
    {result : AgentResult String}
    (ran : (mainRun host flow request services memory).run before =
      .ok result answered) :
    answered.status = before.status ∧
      totalOf RunUsage.totalTokens answered.trace =
        totalOf RunUsage.totalTokens before.trace + result.usage.totalTokens := by
  have counted : AgentRole.singleAgent ≠ .extraction := by decide
  obtain ⟨events, appended, spends⟩ :=
    Agent.run_returns counted (some services.budget.usageLimits)
      (spendsNothing_tool host services (grantsFor services.approvalGate)) host
      flow.model (prompt request memory) memory before
  unfold mainRun at ran
  rw [ran] at appended spends
  have spent := spends result rfl
  refine ⟨spent.status, ?_⟩
  have grown : answered.trace = before.trace ++ events := appended
  rw [grown, totalOf_append, totalOf_totalTokens events, ← spent.input,
    ← spent.output]
  rfl

/-! ## Runs that return -/

/-- The ledger once the usage is recorded and the tracker is polled. -/
structure UsageRecorded (usage : RunUsage) (before after : World σ μ) : Prop where
  trace : after.trace = before.trace
  tokens :
    after.status.tokensUsed = before.status.tokensUsed + usage.totalTokens

/-- The poll decides whether the flow goes on. -/
theorem run_settleBudget (host : Host σ) (services : HarnessServices σ μ)
    (usage : RunUsage) (before : World σ μ) :
    ∃ after, UsageRecorded usage before after ∧
      ((after.status.exhausted = false ∧
          (settleBudget host services usage).run before = .ok () after) ∨
        (after.status.exhausted = true ∧
          ∃ message,
            (settleBudget host services usage).run before =
              .error (.budgetExhausted message) after)) := by
  let calls :=
    if usage.toolCalls = 0 then before.callCount else usage.toolCalls
  let recorded :=
    finalState
      ((Turn.recordUsage host services usage.inputTokens usage.outputTokens
        calls).run before)
  let polled :=
    finalState ((Turn.checkWallClock host services).run recorded)
  have whole :
      (settleBudget host services usage).run before =
        (if polled.status.exhausted = true then
          throw (.budgetExhausted
            (textOr polled.status.exhaustedReason "wall_clock_exceeded"))
        else
          pure () : Turn σ μ Unit).run polled := by
    show
      (if polled.status.exhausted = true then
          (do
            let status := (← get).status
            throw (.budgetExhausted
              (textOr status.exhaustedReason "wall_clock_exceeded")))
        else
          pure () : Turn σ μ Unit).run polled = _
    by_cases exhausted : polled.status.exhausted = true
    · rw [if_pos exhausted, if_pos exhausted]
      rfl
    · rw [if_neg exhausted, if_neg exhausted]
  refine ⟨polled, ⟨rfl, ?_⟩, ?_⟩
  · exact
      (BudgetTracker.tokensUsed_checkWallClock _).trans
        (BudgetTracker.tokensUsed_recordUsage _ _ _ _)
  · rw [whole]
    cases polled.status.exhausted with
    | false => exact Or.inl ⟨rfl, rfl⟩
    | true => exact Or.inr ⟨rfl, _, rfl⟩

theorem stopReason_outside {raised : PyExc} {reason : String}
    (caught : (TurnExc.outside raised).stopReason = some reason) :
    reason ≠ "budget_exhausted" := by
  cases raised with
  | permissionDenied message =>
      cases caught
      decide
  | usageLimitExceeded message => cases caught
  | other className message => cases caught

/-- Once the main agent run has returned, the ledger is right however the flow
ends. -/
theorem endsInAccord_conclude {result : AgentResult String}
    {answered : World σ μ} (fresh : answered.status = {})
    (consumed :
      totalOf RunUsage.totalTokens answered.trace = result.usage.totalTokens) :
    EndsInAccord
      ((conclude host flow request ctx services result).run answered) := by
  obtain ⟨settled, accounted, ends⟩ :=
    run_settleBudget host services result.usage answered
  have tokens :
      settled.status.tokensUsed = totalOf RunUsage.totalTokens settled.trace := by
    rw [accounted.tokens, accounted.trace, consumed, fresh]
    exact Nat.zero_add _
  unfold conclude
  rw [EStateM.run_bind]
  rcases ends with ⟨within, returned⟩ | ⟨exhausted, message, raised⟩
  · obtain ⟨events, appended, spendless, outsideOnly⟩ :=
      spendsNothing_rememberTurn host flow ctx services request result.output
      settled
    rw [returned]
    simp only [EStateM.run_bind]
    have accords :
        ∀ (after : World σ μ) (reason : String),
          after.trace = settled.trace ++ events →
          after.status = settled.status → reason ≠ "budget_exhausted" →
            Accords reason after := by
      intro after reason grown kept other
      constructor
      · rw [kept, grown, totalOf_append,
          totalOf_of_uncounted rfl spendless.uncounted]
        exact tokens
      · rw [kept, within]
        simp [other]
    cases remembered :
        (rememberTurn host flow ctx services request result.output).run
          settled with
    | ok done after =>
        rw [remembered] at appended spendless
        exact accords after "success" appended spendless.keeps.status (by decide)
    | error exc after =>
        rw [remembered] at appended spendless outsideOnly
        obtain ⟨raised, rfl⟩ := outsideOnly exc rfl
        intro reason caught
        exact
          accords after reason appended spendless.keeps.status
            (stopReason_outside caught)
  · rw [raised]
    intro reason caught
    cases caught
    exact ⟨tokens, by simp [exhausted]⟩

/-! ## Runs that raise -/

/-- What is raised out of the flow for an exception of the main agent run. -/
def escaped : TurnExc → TurnExc
  | .outside (.usageLimitExceeded message) => .budgetExhausted message
  | exc => exc

theorem run_convertUsageLimit (exc : TurnExc) (failed : World σ μ) :
    (convertUsageLimit exc : Turn σ μ (AgentResult String)).run failed =
      .error (escaped exc) failed := by
  cases exc with
  | toolError message => rfl
  | repeatedFailure message => rfl
  | budgetExhausted message => rfl
  | outside raised => cases raised <;> rfl

section Runs

variable {before recalled : World σ μ}

theorem run_of_unrecalled {exc : TurnExc} {failed : World σ μ}
    (raises :
      (Turn.recallContext services ctx request).run (resetCounters before) =
        .error exc failed) :
    (flow.run host request ctx services).run before = .error exc failed := by
  simp only [run_eq_conclude, EStateM.run_bind, run_resetCounters, raises]

variable
  (recalls :
    (Turn.recallContext services ctx request).run (resetCounters before) =
      .ok memory recalled)
include recalls

theorem run_of_recalled :
    (flow.run host request ctx services).run before =
      (tryCatch (mainRun host flow request services memory) convertUsageLimit >>=
        conclude host flow request ctx services).run recalled := by
  rw [run_eq_conclude, EStateM.run_bind, run_resetCounters]
  show
    (Turn.recallContext services ctx request >>= fun contents =>
        tryCatch (mainRun host flow request services contents)
            convertUsageLimit >>=
          conclude host flow request ctx services).run (resetCounters before) = _
  rw [EStateM.run_bind, recalls]

theorem run_of_mainRun {result : AgentResult String} {answered : World σ μ}
    (ran :
      (mainRun host flow request services memory).run recalled =
        .ok result answered) :
    (flow.run host request ctx services).run before =
      (conclude host flow request ctx services result).run answered := by
  rw [run_of_recalled recalls, EStateM.run_bind, run_tryCatch, ran]

theorem run_of_mainRun_raised {exc : TurnExc} {failed : World σ μ}
    (raises :
      (mainRun host flow request services memory).run recalled =
        .error exc failed) :
    (flow.run host request ctx services).run before =
      .error (escaped exc) failed := by
  rw [run_of_recalled recalls, EStateM.run_bind, run_tryCatch, raises]
  simp only [run_convertUsageLimit]

end Runs

/-- An exception of the main agent run after which an empty ledger is right. -/
structure OwesNothing (exc : TurnExc) (failed : World σ μ) : Prop where
  withinLimits : ∀ message, exc ≠ .outside (.usageLimitExceeded message)
  unspent :
    ∀ reason, exc.stopReason = some reason →
      totalOf RunUsage.totalTokens failed.trace = 0

theorem endsInAccord_escaped_iff {exc : TurnExc} {failed : World σ μ}
    (fresh : failed.status = {})
    (foreign : ∀ message, exc ≠ .budgetExhausted message) :
    EndsInAccord (.error (escaped exc) failed) ↔ OwesNothing exc failed := by
  constructor
  · intro accords
    have withinLimits :
        ∀ message, exc ≠ .outside (.usageLimitExceeded message) := by
      intro message same
      subst same
      exact ((accords_of_fresh fresh).mp (accords "budget_exhausted" rfl)).2 rfl
    refine ⟨withinLimits, ?_⟩
    intro reason caught
    have same : escaped exc = exc := by
      cases exc with
      | outside raised =>
          cases raised with
          | usageLimitExceeded message => exact absurd rfl (withinLimits message)
          | _ => rfl
      | _ => rfl
    rw [← same] at caught
    exact ((accords_of_fresh fresh).mp (accords reason caught)).1
  · intro owes reason caught
    rw [accords_of_fresh fresh]
    cases exc with
    | toolError message => cases caught
    | budgetExhausted message => exact absurd rfl (foreign message)
    | repeatedFailure message =>
        cases caught
        exact ⟨owes.unspent _ rfl, by decide⟩
    | outside raised =>
        cases raised with
        | usageLimitExceeded message =>
            exact absurd rfl (owes.withinLimits message)
        | permissionDenied message =>
            exact ⟨owes.unspent reason caught, stopReason_outside caught⟩
        | other className message => cases caught

end SingleAgentFlow

/-! ## Turns -/

namespace AgentLoop

/-- Whenever the turn returns, the ledger holds what the trace counts, which are
the tokens of the main agent run, and the stop reason agrees with it. -/
def LedgerAgrees (loop : AgentLoop σ μ) (ctx : RunContext)
    (services : HarnessServices σ μ) (world : World σ μ) : Prop :=
  ∀ result after,
    loop.turn ctx services world = .ok result after →
      after.metadata.get? "harness.budget.tokens_used" =
          some (.int (totalOf RunUsage.totalTokens after.trace)) ∧
        (result.stopReason = "budget_exhausted" ↔ after.status.exhausted = true)

/-- If the main agent run of the turn raises, it has not run into a usage limit,
and it has consumed nothing if `run_turn` catches what it raises. -/
def RaisesUnspent (host : Host σ) (single : SingleAgentFlow σ) (ctx : RunContext)
    (services : HarnessServices σ μ) (world : World σ μ) : Prop :=
  ∀ decision routed memory recalled exc failed,
    (route ctx services).run world.untraced = .ok decision routed →
    (Turn.recallContext services ctx ctx.request).run
        (SingleAgentFlow.resetCounters routed) = .ok memory recalled →
    (single.mainRun host ctx.request services memory).run recalled =
        .error exc failed →
    SingleAgentFlow.OwesNothing exc failed

variable {host : Host σ} {single : SingleAgentFlow σ}
  {orchestrator : OrchestratorFlow σ} {ctx : RunContext}
  {services : HarnessServices σ μ} {world routed : World σ μ}
  {decision : Option RouteDecision}

/-- A turn agrees with its ledger if its flow ends in accord. -/
theorem ledgerAgrees_iff_endsInAccord {loop : AgentLoop σ μ} {name : String}
    {flow : Flow σ μ}
    (routes : (route ctx services).run world.untraced = .ok decision routed)
    (dispatched : loop.dispatch decision = .flow name flow) :
    loop.LedgerAgrees ctx services world ↔
      EndsInAccord ((flow ctx.request ctx services).run routed) := by
  have stamped :
      ∀ result (middle : World σ μ),
        (middle.metadata.setAll (outcomeStamps ctx result middle.status)).get?
            "harness.budget.tokens_used" =
          some (.int middle.status.tokensUsed) := by
    intro result middle
    have member :
        ("harness.budget.tokens_used", StampValue.int middle.status.tokensUsed) ∈
          outcomeStamps ctx result middle.status := by
      simp [outcomeStamps]
    exact
      OrderedDict.get?_setAll_of_mem
        (nodup_outcomeStamps ctx result middle.status) member
  rw [endsInAccord_iff]
  constructor
  · intro agrees result middle ran
    obtain ⟨tokens, exhausted⟩ :=
      agrees result _ ((turn_eq_ok_iff routes dispatched).mpr ⟨middle, ran, rfl⟩)
    rw [stamped] at tokens
    exact ⟨Int.ofNat.inj (StampValue.int.inj (Option.some.inj tokens)), exhausted⟩
  · intro accords result after returned
    obtain ⟨middle, ran, rfl⟩ := (turn_eq_ok_iff routes dispatched).mp returned
    have accord := accords result middle ran
    refine ⟨?_, accord.exhausted⟩
    rw [stamped, accord.tokens]

/-- A turn has one main agent run at most, the one on the memory it recalls. -/
theorem raisesUnspent_iff {memory : List String} {recalled : World σ μ}
    (routes : (route ctx services).run world.untraced = .ok decision routed)
    (recalls :
      (Turn.recallContext services ctx ctx.request).run
          (SingleAgentFlow.resetCounters routed) = .ok memory recalled) :
    RaisesUnspent host single ctx services world ↔
      ∀ exc failed,
        (single.mainRun host ctx.request services memory).run recalled =
            .error exc failed →
          SingleAgentFlow.OwesNothing exc failed := by
  constructor
  · intro unspent exc failed raises
    exact unspent _ _ _ _ _ _ routes recalls raises
  · intro unspent _ _ _ _ exc failed again recalledAgain raises
    cases routes.symm.trans again
    cases recalls.symm.trans recalledAgain
    exact unspent exc failed raises

/-- A turn whose recall raises has no main agent run. -/
theorem raisesUnspent_of_unrecalled {exc : TurnExc} {failed : World σ μ}
    (routes : (route ctx services).run world.untraced = .ok decision routed)
    (raises :
      (Turn.recallContext services ctx ctx.request).run
          (SingleAgentFlow.resetCounters routed) = .error exc failed) :
    RaisesUnspent host single ctx services world := by
  intro _ _ _ _ _ _ again recalls _
  cases routes.symm.trans again
  cases raises.symm.trans recalls

/-- The flow ends in accord with a fresh ledger exactly if its main agent run
leaves nothing to be recorded when it raises. -/
theorem endsInAccord_single_iff (fresh : routed.status = {})
    (untraced : routed.trace = [])
    (routes : (route ctx services).run world.untraced = .ok decision routed) :
    EndsInAccord ((single.run host ctx.request ctx services).run routed) ↔
      RaisesUnspent host single ctx services world := by
  rcases Turn.run_recallContext services ctx ctx.request
      (SingleAgentFlow.resetCounters routed) with
    ⟨contents, memory, recalls⟩ | ⟨raised, memory, raises⟩
  · rw [raisesUnspent_iff routes recalls]
    cases ran :
        (single.mainRun host ctx.request services contents).run
          { SingleAgentFlow.resetCounters routed with memory } with
    | ok result answered =>
        obtain ⟨kept, consumed⟩ := SingleAgentFlow.consumed_of_mainRun ran
        have nothingYet :
            totalOf RunUsage.totalTokens
              (SingleAgentFlow.resetCounters routed).trace = 0 := by
          show totalOf RunUsage.totalTokens routed.trace = 0
          rw [untraced]
          rfl
        rw [nothingYet, Nat.zero_add] at consumed
        rw [SingleAgentFlow.run_of_mainRun recalls ran]
        refine iff_of_true ?_ ?_
        · exact
            SingleAgentFlow.endsInAccord_conclude (kept.trans fresh) consumed
        · intro exc failed raises
          cases raises
    | error exc failed =>
        obtain ⟨_, _, kept, foreign⟩ :=
          SingleAgentFlow.confined_mainRun host single ctx.request services
            contents { SingleAgentFlow.resetCounters routed with memory }
        rw [ran] at kept foreign
        have freshStill : failed.status = {} := Eq.trans kept fresh
        rw [SingleAgentFlow.run_of_mainRun_raised recalls ran,
          SingleAgentFlow.endsInAccord_escaped_iff freshStill (foreign exc rfl)]
        constructor
        · intro owes other after raises
          cases raises
          exact owes
        · exact fun unspent => unspent exc failed rfl
  · refine iff_of_true ?_ (raisesUnspent_of_unrecalled routes raises)
    rw [SingleAgentFlow.run_of_unrecalled raises]
    intro reason caught
    have unspent : totalOf RunUsage.totalTokens routed.trace = 0 := by
      rw [untraced]
      rfl
    have freshStill :
        ({ SingleAgentFlow.resetCounters routed with memory } :
          World σ μ).status = {} := fresh
    exact
      (accords_of_fresh freshStill).mpr
        ⟨unspent, SingleAgentFlow.stopReason_outside caught⟩

/-- With a fresh tracker, the ledger of a single-agent turn agrees with the
outcome exactly if the main agent run leaves nothing to be recorded when it
raises. -/
theorem ledgerAgrees_iff (host : Host σ) (single : SingleAgentFlow σ)
    (orchestrator : OrchestratorFlow σ) (ctx : RunContext)
    (services : HarnessServices σ μ) (world : World σ μ)
    (targeted :
      (harness host single orchestrator).target ctx services world =
        some SingleAgentFlow.flowName)
    (fresh : world.status = {}) :
    (harness host single orchestrator).LedgerAgrees ctx services world ↔
      RaisesUnspent host single ctx services world := by
  obtain ⟨decision, env, metadata, flow, routes, dispatched⟩ :=
    exists_dispatched targeted
  rcases get?_harnessFlows (dispatch_eq_flow dispatched) with
    ⟨_, rfl⟩ | ⟨different, _⟩
  · rw [ledgerAgrees_iff_endsInAccord routes dispatched]
    exact endsInAccord_single_iff fresh rfl routes
  · exact absurd different (by decide)

end AgentLoop

/-! ## A budget of ten tokens -/

namespace TenTokens

/-- The model spends `response` on its answer. -/
def single (response : ModelResponse) : SingleAgentFlow Unit where
  model _ := pure (.answer response "done" [])

def services : HarnessServices Unit Unit where
  tools := {}
  memory := nullMemoryStore Unit
  budget := { budget := { maxTotalTokens := some 10 }, modelId := "model", start := 0 }

def loop (response : ModelResponse) : AgentLoop Unit Unit :=
  .harness Idle.host (single response) Idle.orchestrator

end TenTokens

/-- Seven tokens are within the budget, and on the ledger. -/
theorem seven_tokens_on_the_ledger :
    (TenTokens.loop ⟨3, 4⟩).LedgerAgrees Idle.ctx TenTokens.services Idle.world := by
  refine
    (AgentLoop.ledgerAgrees_iff Idle.host (TenTokens.single ⟨3, 4⟩)
      Idle.orchestrator Idle.ctx TenTokens.services Idle.world rfl rfl).mpr ?_
  intro decision routed memory recalled exc failed routes recalls raises
  cases routes
  cases recalls
  cases raises

/-- Eleven tokens exhaust the budget, and none of them is on the ledger. -/
theorem eleven_tokens_off_the_ledger :
    ¬ ∀ (host : Host Unit) (single : SingleAgentFlow Unit)
        (orchestrator : OrchestratorFlow Unit) (ctx : RunContext)
        (services : HarnessServices Unit Unit) (world : World Unit Unit),
      (AgentLoop.harness host single orchestrator).target ctx services world =
          some SingleAgentFlow.flowName →
        world.status = {} →
          (AgentLoop.harness host single orchestrator).LedgerAgrees ctx services
            world := by
  intro agrees
  obtain ⟨tokens, _⟩ :=
    agrees Idle.host (TenTokens.single ⟨5, 6⟩) Idle.orchestrator Idle.ctx
      TenTokens.services Idle.world rfl rfl _ _ rfl
  cases tokens

end FableHarness
