import FableHarness.Core.StickyExhaustion
import FableHarness.Flows.DispatchCount

/-!
# What a turn puts on the ledger

Only the single-agent flow records usage, once, when its main agent run has
ended.  Whatever happens before or after, or in the orchestrator, leaves the
ledger of the tracker alone.
-/

namespace FableHarness

open ExceptionState EventLog

variable {σ μ : Type}

/-- The main agent run of the single-agent flow has ended. -/
def Interaction.endsMain : Interaction → Bool
  | .agentEnded .singleAgent _ => true
  | _ => false

/-- The trace contains the end of a main agent run. -/
def mainEnded (trace : List Interaction) : Bool := trace.any Interaction.endsMain

theorem mainEnded_append (earlier later : List Interaction) :
    mainEnded (earlier ++ later) = (mainEnded earlier || mainEnded later) :=
  List.any_append

theorem mainEnded_eq_false {trace : List Interaction}
    (running : ∀ event ∈ trace, event.endsMain = false) : mainEnded trace = false := by
  rw [mainEnded, List.any_eq_false]
  intro event member
  rw [running event member]
  exact Bool.false_ne_true

/-- An event that is not counted does not end a main agent run. -/
theorem Interaction.Uncounted.running {event : Interaction}
    (uncounted : event.Uncounted) : event.endsMain = false := by
  cases event with
  | agentEnded role time =>
      cases role with
      | extraction => rfl
      | singleAgent | retrieval | synthesis | critic =>
          cases uncounted.endTime
  | agentStarted | modelResponded | toolReturned | callFailed | callDenied
  | raisedOnDenial | remembered => rfl

/-- What the usage of a trace does to the ledger. -/
structure ChargedRun (tracker : BudgetTracker) (before : BudgetStatus)
    (trace : List Interaction) (after : BudgetStatus) : Prop where
  tokens : after.tokensUsed = before.tokensUsed + totalOf RunUsage.totalTokens trace
  cost :
    after.costUsd =
      before.costUsd +
        tracker.cost (totalOf RunUsage.inputTokens trace)
          (totalOf RunUsage.outputTokens trace)
  /-- The calls of the turn replace those of the turns before. -/
  toolCalls : after.toolCallsUsed = totalOf RunUsage.toolCalls trace
  sticky :
    ∀ reason, before.exhaustedReason = some reason →
      after.exhaustedReason = some reason

/-- The ledger is charged for a trace with the end of a main agent run, and for no
other. -/
structure Ledgered (tracker : BudgetTracker) (before : BudgetStatus)
    (trace : List Interaction) (after : BudgetStatus) : Prop where
  kept : mainEnded trace = false → after = before
  charged : mainEnded trace = true → ChargedRun tracker before trace after

theorem ledgered_of_running {tracker : BudgetTracker} {status : BudgetStatus}
    {trace : List Interaction}
    (running : ∀ event ∈ trace, event.endsMain = false) :
    Ledgered tracker status trace status where
  kept _ := rfl
  charged ended := by
    rw [mainEnded_eq_false running] at ended
    cases ended

theorem Ledgered.sticky {tracker : BudgetTracker} {before after : BudgetStatus}
    {trace : List Interaction} (ledgered : Ledgered tracker before trace after)
    {reason : String} (exhausted : before.exhaustedReason = some reason) :
    after.exhaustedReason = some reason := by
  cases ended : mainEnded trace with
  | false =>
      rw [ledgered.kept ended]
      exact exhausted
  | true => exact (ledgered.charged ended).sticky reason exhausted

/-! ## The tracker -/

namespace BudgetTracker

variable {runtime : PyRuntime} {tracker : BudgetTracker} {status : BudgetStatus}

/-- The status after `record_usage` at one time and `check_wall_clock` at another. -/
def settled (runtime : PyRuntime) (tracker : BudgetTracker) (usage : RunUsage)
    (calls : Nat) (recorded polled : ℚ) (status : BudgetStatus) : BudgetStatus :=
  tracker.checkWallClock runtime polled
    (tracker.recordUsage runtime usage.inputTokens usage.outputTokens calls recorded
      status)

variable {usage : RunUsage} {calls : Nat} {recorded polled : ℚ}

theorem tokensUsed_settled :
    (settled runtime tracker usage calls recorded polled status).tokensUsed =
      status.tokensUsed + usage.totalTokens := by
  rw [settled, tokensUsed_checkWallClock, tokensUsed_recordUsage]
  rfl

theorem costUsd_settled :
    (settled runtime tracker usage calls recorded polled status).costUsd =
      status.costUsd + tracker.cost usage.inputTokens usage.outputTokens := by
  simp [settled, checkWallClock, refreshWallClock]

theorem toolCallsUsed_settled :
    (settled runtime tracker usage calls recorded polled status).toolCallsUsed =
      calls := by
  simp [settled, checkWallClock, refreshWallClock]

theorem exhaustedReason_settled {reason : String}
    (exhausted : status.exhaustedReason = some reason) :
    (settled runtime tracker usage calls recorded polled status).exhaustedReason =
      some reason := by
  have keeps :
      ∀ {checked : BudgetStatus}, checked.exhaustedReason = some reason →
        (checkExhaustion runtime tracker checked).exhaustedReason = some reason := by
    intro checked stored
    rw [exhaustedReason_checkExhaustion_of_some stored]
    exact stored
  exact keeps (keeps exhausted)

end BudgetTracker

/-! ## The main agent run -/

namespace Agent

/-- An event before the end of the main agent run. -/
abbrev Running (event : Interaction) : Prop := event.endsMain = false

variable {α : Type} {role : AgentRole} {limits : Option UsageLimits}

theorem running_allows :
    Allows (Only Running : World σ μ → _ → World σ μ → Prop) (fun _ => True)
      Running :=
  allows_only fun _ => trivial

theorem confined_running_drive {tool : String → Arguments → Turn σ μ ToolReply}
    (toolConfined :
      ∀ name arguments,
        Confined (Only Running) (fun _ => True) (tool name arguments))
    (behaviour : ModelRun α) :
    ∀ usage,
      Confined (Only Running) (fun _ => True)
        (drive role limits tool usage behaviour) := by
  have charges : ∀ usage response,
      Confined (Only Running) (fun _ => True)
        (charge role limits usage response : Turn σ μ RunUsage) := by
    intro usage response
    apply confined_bind (Turn.confined_record running_allows rfl)
    intro _
    apply confined_bind (confined_raiseIf running_allows _)
    exact fun _ => confined_pure _
  induction behaviour with
  | answer response output messages =>
      intro usage
      apply confined_bind (charges usage response)
      exact fun _ => confined_pure _
  | raises exc => exact fun _ => confined_throw trivial
  | call response name arguments next inductionHypothesis =>
      intro usage
      apply confined_bind (charges usage response)
      intro charged
      have calls :
          Confined (Only Running) (fun _ => True)
            (callTool role limits tool charged name arguments) := by
        apply confined_bind (confined_raiseIf running_allows _)
        intro _
        apply confined_bind (toolConfined name arguments)
        intro reply
        cases reply with
        | value output =>
            apply confined_bind (Turn.confined_record running_allows rfl)
            exact fun _ => confined_pure _
        | retry message => exact confined_pure _
      apply confined_bind calls
      exact fun replied => inductionHypothesis replied.1 replied.2

/-- A run that returns has ended; one that raises was still running. -/
structure EndsOrRaises (outcome : Except TurnExc α) (events : List Interaction) :
    Prop where
  ended : ∀ result, outcome = .ok result → mainEnded events = true
  running : ∀ exc, outcome = .error exc → ∀ event ∈ events, Running event

theorem EndsOrRaises.of_error {exc : TurnExc} {events : List Interaction}
    (running : ∀ event ∈ events, Running event) :
    EndsOrRaises (.error exc : Except TurnExc α) events :=
  ⟨fun _ equal => (by cases equal), fun _ _ => running⟩

theorem run_endsMain {tool : String → Arguments → Turn σ μ ToolReply}
    (toolConfined :
      ∀ name arguments,
        Confined (Only Running) (fun _ => True) (tool name arguments))
    (host : Host σ) (model : Model σ α) (prompt : String) (memory : List String)
    (before : World σ μ) :
    Ends World.trace
      (Agent.run host .singleAgent limits model tool prompt memory) before
      fun outcome events _ => EndsOrRaises outcome events := by
  unfold Agent.run
  apply ends_bind (Turn.confined_record running_allows rfl before)
  · intro exc events after confined
    exact .of_error confined.1
  · intro _ started middle begins
    apply ends_bind (Turn.confined_outside running_allows (model prompt) middle)
    · intro exc events after confined
      refine .of_error fun event member => ?_
      rcases List.mem_append.mp member with early | late
      · exact begins.1 event early
      · exact confined.1 event late
    · intro behaviour chosen ready chooses
      apply ends_bind (confined_running_drive toolConfined behaviour {} ready)
      · intro exc events after confined
        refine .of_error fun event member => ?_
        rcases List.mem_append.mp member with early | late
        · exact begins.1 event early
        · rcases List.mem_append.mp late with middle | last
          · exact chooses.1 event middle
          · exact confined.1 event last
      · intro result driven last _
        refine ends_of_ok rfl rfl ⟨fun _ _ => ?_, fun _ equal => by cases equal⟩
        show mainEnded (started ++ (chosen ++ (driven ++ [_]))) = true
        rw [mainEnded_append, mainEnded_append, mainEnded_append]
        simp [mainEnded, Interaction.endsMain]

end Agent

namespace SingleAgentFlow

variable {host : Host σ} {flow : SingleAgentFlow σ} {request : String}
  {ctx : RunContext} {services : HarnessServices σ μ} {memory : List String}

theorem mainRun_endsMain (before : World σ μ) :
    Ends World.trace (mainRun host flow request services memory) before
      fun outcome events _ => Agent.EndsOrRaises outcome events := by
  have toolConfined : ∀ name arguments,
      Confined (Only Agent.Running) (fun _ => True)
        (tool host services (grantsFor services.approvalGate) name arguments) :=
    confined_tool Agent.running_allows
      ⟨fun _ => rfl, fun _ _ => rfl, fun _ _ => rfl⟩ (fun _ _ _ _ => trivial) host
      services (grantsFor services.approvalGate)
  exact Agent.run_endsMain toolConfined host flow.model _ memory before

/-! ## After the main agent run -/

/-- The text with which the flow gives up for a reason: the reason itself, unless
it is empty. -/
def givesUpWith (reason : String) : String :=
  textOr (some reason) "wall_clock_exceeded"

/-- The poll after the agent run raises with the reason that is stored, or else
nothing is exhausted. -/
structure SettlesTo (outcome : Except TurnExc Unit) (after : BudgetStatus) : Prop where
  within : outcome = .ok () → after.exhausted = false
  raised :
    ∀ exc, outcome = .error exc →
      ∃ reason,
        after.exhaustedReason = some reason ∧
          exc = .budgetExhausted (givesUpWith reason)

/-- What `record_usage` and `check_wall_clock` make of the ledger. -/
theorem settleBudget_ends (host : Host σ) (services : HarnessServices σ μ)
    {usage : RunUsage} (before : World σ μ)
    (counts : before.callCount = usage.toolCalls) :
    Ends World.trace (settleBudget host services usage) before
      fun outcome events after =>
        events = [] ∧ SettlesTo outcome after.status ∧
          ∃ recorded polled,
            after.status =
              services.budget.settled host.runtime usage usage.toolCalls recorded
                polled before.status := by
  let calls :=
    if usage.toolCalls = 0 then before.callCount else usage.toolCalls
  let recorded :=
    finalState
      ((Turn.recordUsage host services usage.inputTokens usage.outputTokens
        calls).run before)
  let polled :=
    finalState ((Turn.checkWallClock host services).run recorded)
  have sameCalls : calls = usage.toolCalls := by
    show (if usage.toolCalls = 0 then before.callCount else usage.toolCalls) = _
    rw [counts, ite_self]
  have status :
      polled.status =
        services.budget.settled host.runtime usage usage.toolCalls recorded.clock
          polled.clock before.status := by
    rw [← sameCalls]
    rfl
  have whole :
      (settleBudget host services usage).run before =
        (if polled.status.exhausted = true then
          throw (.budgetExhausted
            (textOr polled.status.exhaustedReason "wall_clock_exceeded"))
        else
          pure () : Turn σ μ Unit).run polled := by
    show
      (if polled.status.exhausted = true then
          (do
            let status := (← get).status
            throw (.budgetExhausted
              (textOr status.exhaustedReason "wall_clock_exceeded")))
        else
          pure () : Turn σ μ Unit).run polled = _
    by_cases exhausted : polled.status.exhausted = true
    · rw [if_pos exhausted, if_pos exhausted]
      rfl
    · rw [if_neg exhausted, if_neg exhausted]
  cases stored : polled.status.exhaustedReason with
  | none =>
      have within : polled.status.exhausted = false := by
        rw [BudgetStatus.exhausted, stored]
        rfl
      rw [within, if_neg Bool.false_ne_true] at whole
      refine ends_of_ok whole (List.append_nil _).symm ⟨rfl, ⟨?_, ?_⟩, _, _, status⟩
      · exact fun _ => within
      · intro exc equal
        cases equal
  | some reason =>
      have exhausted : polled.status.exhausted = true := by
        rw [BudgetStatus.exhausted, stored]
        rfl
      rw [exhausted, if_pos rfl, stored] at whole
      refine
        ends_of_error whole (List.append_nil _).symm ⟨rfl, ⟨?_, ?_⟩, _, _, status⟩
      · intro equal
        cases equal
      · intro exc equal
        cases equal
        exact ⟨reason, stored, rfl⟩

/-- How the flow can end once its main agent run has: within the budget, or with
the reason for which the budget is exhausted. -/
structure ConcludesIn (outcome : Except TurnExc FlowResult) (after : BudgetStatus) :
    Prop where
  within : ∀ result, outcome = .ok result → after.exhausted = false
  exhausted :
    ∀ reason, after.exhaustedReason = some reason →
      outcome = .error (.budgetExhausted (givesUpWith reason))

theorem conclude_ends (host : Host σ) (flow : SingleAgentFlow σ) (request : String)
    (ctx : RunContext) (services : HarnessServices σ μ)
    {result : AgentResult String} (before : World σ μ)
    (counts : before.callCount = result.usage.toolCalls) :
    Ends World.trace (conclude host flow request ctx services result) before
      fun outcome events after =>
        (∀ event ∈ events, event.Uncounted) ∧ ConcludesIn outcome after.status ∧
          ∃ recorded polled,
            after.status =
              services.budget.settled host.runtime result.usage
                result.usage.toolCalls recorded polled before.status := by
  unfold conclude
  apply ends_bind (settleBudget_ends host services before counts)
  · rintro exc events after ⟨rfl, settles, settled⟩
    refine ⟨fun event member => (by cases member), ⟨?_, ?_⟩, settled⟩
    · intro value equal
      cases equal
    · intro reason stored
      obtain ⟨other, found, rfl⟩ := settles.raised exc rfl
      cases stored.symm.trans found
      rfl
  · rintro _ events middle ⟨rfl, settles, settled⟩
    have within := settles.within rfl
    apply
      ends_bind
        (spendsNothing_rememberTurn host flow ctx services request result.output
          middle)
    · rintro exc events after ⟨spendless, _⟩
      rw [← spendless.keeps.status] at settled within
      refine ⟨spendless.uncounted, ⟨?_, ?_⟩, settled⟩
      · intro value equal
        cases equal
      · intro reason stored
        rw [BudgetStatus.exhausted, stored] at within
        cases within
    · rintro _ events after ⟨spendless, _⟩
      rw [← spendless.keeps.status] at settled within
      refine ends_pure ⟨?_, ⟨fun _ _ => within, ?_⟩, settled⟩
      · rw [List.append_nil]
        exact spendless.uncounted
      · intro reason stored
        rw [BudgetStatus.exhausted, stored] at within
        cases within

/-! ## The whole flow -/

/-- What a finished main agent run has spent is what the tracker records of it. -/
theorem charged_of_spent {tracker : BudgetTracker} {runtime : PyRuntime}
    {limits : Option UsageLimits} {usage : RunUsage} {before middle : World σ μ}
    {events later : List Interaction} {recorded polled : ℚ}
    (spent : Agent.Spent limits usage before events middle)
    (uncounted : ∀ event ∈ later, event.Uncounted) :
    ChargedRun tracker before.status (events ++ later)
      (tracker.settled runtime usage usage.toolCalls recorded polled
        middle.status) := by
  have same : ∀ component : RunUsage → Nat, component {} = 0 →
      totalOf component (events ++ later) = totalOf component events := by
    intro component nothing
    rw [totalOf_append, totalOf_of_uncounted nothing uncounted, Nat.add_zero]
  constructor
  · rw [BudgetTracker.tokensUsed_settled, spent.status, same _ rfl,
      totalOf_totalTokens, ← spent.input, ← spent.output]
    rfl
  · rw [BudgetTracker.costUsd_settled, spent.status,
      same RunUsage.inputTokens rfl, same RunUsage.outputTokens rfl, ← spent.input,
      ← spent.output]
  · rw [BudgetTracker.toolCallsUsed_settled, same RunUsage.toolCalls rfl,
      ← spent.toolCalls]
  · intro reason exhausted
    rw [← spent.status] at exhausted
    exact BudgetTracker.exhaustedReason_settled exhausted

/-- What a run of the flow does to the ledger, and how the two ends agree. -/
structure RunLedgered (tracker : BudgetTracker) (before : BudgetStatus)
    (outcome : Except TurnExc FlowResult) (events : List Interaction)
    (after : BudgetStatus) : Prop where
  ledgered : Ledgered tracker before events after
  ended : mainEnded events = true → ConcludesIn outcome after
  returned : ∀ result, outcome = .ok result → mainEnded events = true

theorem run_ledgered (host : Host σ) (flow : SingleAgentFlow σ) (request : String)
    (ctx : RunContext) (services : HarnessServices σ μ) (before : World σ μ) :
    Ends World.trace (flow.run host request ctx services) before
      fun outcome events after =>
        RunLedgered services.budget before.status outcome events after.status := by
  have unended : ∀ {exc : TurnExc} {events : List Interaction},
      (∀ event ∈ events, Agent.Running event) →
        RunLedgered services.budget before.status (.error exc) events
          before.status := by
    intro exc events running
    refine ⟨ledgered_of_running running, ?_, fun _ equal => by cases equal⟩
    intro ended
    rw [mainEnded_eq_false running] at ended
    cases ended
  rcases Turn.run_recallContext services ctx request (resetCounters before) with
    ⟨contents, memory, recalls⟩ | ⟨raised, memory, raises⟩
  · let recalled : World σ μ := { resetCounters before with memory }
    obtain ⟨events, appended, ends⟩ :
        Ends World.trace (mainRun host flow request services contents) recalled
          fun outcome events _ => Agent.EndsOrRaises outcome events :=
      mainRun_endsMain recalled
    cases ran : (mainRun host flow request services contents).run recalled with
    | error exc failed =>
        have kept :
            failed.status = before.status := by
          obtain ⟨_, _, kept, _⟩ :=
            confined_mainRun host flow request services contents recalled
          rw [ran] at kept
          exact kept
        rw [ran] at appended ends
        refine ends_of_error (run_of_mainRun_raised recalls ran) appended ?_
        rw [kept]
        exact unended (ends.running exc rfl)
    | ok result answered =>
        rw [ran] at appended ends
        have ended : mainEnded events = true := ends.ended result rfl
        have counts : answered.callCount = result.usage.toolCalls :=
          callCount_of_mainRun rfl ran
        have spent :
            Agent.Spent (some services.budget.usageLimits) result.usage recalled
              events answered := by
          have counted : AgentRole.singleAgent ≠ .extraction := by decide
          obtain ⟨same, grown, spends⟩ :=
            Agent.run_returns counted (some services.budget.usageLimits)
              (spendsNothing_tool host services (grantsFor services.approvalGate))
              host flow.model (prompt request contents) contents recalled
          unfold mainRun at ran
          rw [ran] at grown spends
          have identical : same = events :=
            List.append_cancel_left (grown.symm.trans appended)
          rw [← identical]
          exact spends result rfl
        obtain ⟨later, grown, uncounted, concludes, recorded, polled, status⟩ :=
          conclude_ends host flow request ctx services answered counts
        have whole : mainEnded (events ++ later) = true := by
          rw [mainEnded_append, ended]
          rfl
        unfold Ends
        rw [run_of_mainRun recalls ran]
        refine ⟨events ++ later, ?_, ⟨?_, ?_⟩, fun _ => concludes, fun _ _ => whole⟩
        · have reached : answered.trace = before.trace ++ events := appended
          rw [grown, reached, List.append_assoc]
        · intro unended
          rw [whole] at unended
          cases unended
        · intro _
          have charged :
              ∀ after : BudgetStatus,
                after =
                    services.budget.settled host.runtime result.usage
                      result.usage.toolCalls recorded polled answered.status →
                  ChargedRun services.budget recalled.status (events ++ later) after := by
            rintro after rfl
            exact charged_of_spent spent uncounted
          exact charged _ status
  · exact
      ends_of_error (run_of_unrecalled raises) (List.append_nil _).symm
        (unended fun event member => by cases member)

end SingleAgentFlow

/-! ## Turns -/

/-- What `run_turn` makes of the outcome of its flow. -/
def converted : Except TurnExc FlowResult → Except TurnExc FlowResult
  | .ok result => .ok result
  | .error exc =>
      match exc.stopReason with
      | some reason => .ok ⟨some (.text exc.message), false, reason, []⟩
      | none => .error exc

theorem ok_of_converted {outcome : Except TurnExc FlowResult} {result : FlowResult}
    (same : converted outcome = .ok result) (succeeds : result.success = true) :
    outcome = .ok result := by
  cases outcome with
  | ok own => exact same
  | error exc =>
      cases reasoned : exc.stopReason with
      | none =>
          simp only [converted, reasoned] at same
          cases same
      | some reason =>
          simp only [converted, reasoned] at same
          cases same
          cases succeeds

namespace AgentLoop

variable {loop : AgentLoop σ μ} {ctx : RunContext}
  {services : HarnessServices σ μ} {world routed : World σ μ}
  {decision : Option RouteDecision} {name : String} {flow : Flow σ μ}

/-- A turn ends as its flow does, up to the conversion and the stamps. -/
theorem turn_of_dispatched
    (routes : (route ctx services).run world.untraced = .ok decision routed)
    (dispatched : loop.dispatch decision = .flow name flow) :
    answer (loop.turn ctx services world) =
        converted (answer ((flow ctx.request ctx services).run routed)) ∧
      ∃ metadata,
        finalState (loop.turn ctx services world) =
          { finalState ((flow ctx.request ctx services).run routed) with
            metadata } := by
  have whole :
      loop.turn ctx services world =
        ((tryCatch (flow ctx.request ctx services) convert) >>= fun result =>
          stampResult ctx result >>= fun _ => pure result).run routed := by
    unfold turn runTurn
    rw [EStateM.run_bind, routes]
    simp only [dispatched]
  rw [whole, EStateM.run_bind, run_tryCatch]
  cases (flow ctx.request ctx services).run routed with
  | ok result after => exact ⟨rfl, _, rfl⟩
  | error exc failed =>
      cases exc with
      | toolError message => exact ⟨rfl, _, rfl⟩
      | repeatedFailure message => exact ⟨rfl, _, rfl⟩
      | budgetExhausted message => exact ⟨rfl, _, rfl⟩
      | outside raised => cases raised <;> exact ⟨rfl, _, rfl⟩

/-- A turn without a flow leaves the ledger alone. -/
theorem status_of_no_target (untargeted : loop.target ctx services world = none) :
    (finalState (loop.turn ctx services world)).status = world.status := by
  unfold target at untargeted
  unfold turn runTurn
  rw [EStateM.run_bind]
  rcases run_route ctx services world.untraced with
    ⟨decision, env, metadata, routed⟩ | ⟨exc, env, metadata, routed⟩
  · cases dispatched : loop.dispatch decision with
    | answer result =>
        simp only [routed, dispatched]
        rfl
    | flow other flow =>
        simp only [routed, dispatched] at untargeted
        cases untargeted
  · simp only [routed]
    rfl

/-- The ledger after a turn, by the flow it was routed to. -/
structure TurnLedgered (target : Option String) (tracker : BudgetTracker)
    (before : BudgetStatus) (outcome : Except TurnExc FlowResult)
    (trace : List Interaction) (after : BudgetStatus) : Prop where
  elsewhere : target ≠ some SingleAgentFlow.flowName → after = before
  ledgered :
    target = some SingleAgentFlow.flowName → Ledgered tracker before trace after
  /-- A turn of the single agent that succeeds leaves the budget unexhausted. -/
  within :
    target = some SingleAgentFlow.flowName →
      ∀ result, outcome = .ok result → result.success = true →
        after.exhausted = false
  /-- A main agent run that ends with the budget exhausted ends its turn. -/
  exhausted :
    target = some SingleAgentFlow.flowName → mainEnded trace = true →
      ∀ reason, after.exhaustedReason = some reason →
        outcome =
          .ok
            ⟨some (.text (SingleAgentFlow.givesUpWith reason)), false,
              "budget_exhausted", []⟩

theorem turn_ledgered (host : Host σ) (single : SingleAgentFlow σ)
    (orchestrator : OrchestratorFlow σ) (ctx : RunContext)
    (services : HarnessServices σ μ) (world : World σ μ) :
    TurnLedgered ((harness host single orchestrator).target ctx services world)
      services.budget world.status
      (answer ((harness host single orchestrator).turn ctx services world))
      (finalState ((harness host single orchestrator).turn ctx services world)).trace
      (finalState
        ((harness host single orchestrator).turn ctx services world)).status := by
  cases targeted : (harness host single orchestrator).target ctx services world with
  | none =>
      refine ⟨fun _ => status_of_no_target targeted, ?_, ?_, ?_⟩ <;>
        exact fun equal => by cases equal
  | some name =>
      obtain ⟨decision, env, metadata, flow, routes, dispatched⟩ :=
        exists_dispatched targeted
      obtain ⟨outcome, stamped, final⟩ := turn_of_dispatched routes dispatched
      rw [outcome, final]
      rcases get?_harnessFlows (dispatch_eq_flow dispatched) with
        ⟨rfl, rfl⟩ | ⟨rfl, rfl⟩
      · obtain ⟨events, appended, run⟩ :=
          single.run_ledgered host ctx.request ctx services
            { world.untraced with env, metadata }
        have traced :
            (finalState
              ((single.run host ctx.request ctx services).run
                { world.untraced with env, metadata })).trace = events :=
          appended
        refine ⟨fun other => absurd rfl other, ?_, ?_, ?_⟩
        · intro _
          have ledgered := run.ledgered
          rw [← traced] at ledgered
          exact ledgered
        · intro _ result equal succeeds
          have returned := ok_of_converted equal succeeds
          exact (run.ended (run.returned result returned)).within result returned
        · intro _ ended reason stored
          have mainRun : mainEnded events = true := traced ▸ ended
          rw [(run.ended mainRun).exhausted reason stored]
          rfl
      · have confined :
            Confined KeepsStatus (fun _ => True)
              (orchestrator.run host ctx.request ctx services :
                Turn σ μ FlowResult) :=
          OrchestratorFlow.confined_run (allows_keepsStatus fun _ => trivial)
            ⟨fun _ => ⟨fun _ _ => trivial, trivial, fun _ => trivial⟩,
              fun _ => trivial, fun _ _ => trivial⟩
            host orchestrator ctx.request ctx
            ⟨fun _ _ _ _ => rfl, fun _ _ _ _ _ => rfl, fun _ _ _ _ _ _ => rfl⟩
            fun _ _ _ => trivial
        obtain ⟨_, _, kept, _⟩ := confined { world.untraced with env, metadata }
        have other : some OrchestratorFlow.flowName ≠ some SingleAgentFlow.flowName := by
          decide
        exact
          ⟨fun _ => kept, fun same => absurd same other, fun same => absurd same other,
            fun same => absurd same other⟩

end AgentLoop

end FableHarness
