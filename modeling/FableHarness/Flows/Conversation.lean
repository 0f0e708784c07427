import FableHarness.Library.LabelledRun
import FableHarness.Flows.TurnLedger

/-!
# Conversations

Several turns over one set of services: the same tracker, memory and outside
code, and a new run context for each turn.  What one turn leaves on the ledger
is what the next one finds.
-/

namespace FableHarness

open LabelledRun ExceptionState

variable {σ μ : Type}

/-- A turn that was taken. -/
structure Exchange where
  target : Option String
  /-- The reason for which the budget was exhausted when the turn began. -/
  reason : Option String
  outcome : Except TurnExc FlowResult
  trace : List Interaction

/-- The usage of the turn is on the ledger. -/
def Exchange.charged (exchange : Exchange) : Bool :=
  exchange.target = some SingleAgentFlow.flowName && mainEnded exchange.trace

/-- The exchanges are kept for the reader: no program reads them. -/
structure Conversation (σ μ : Type) where
  world : World σ μ
  exchanges : List Exchange := []

namespace Conversation

/-- The world in which the next turn begins: the stamps are those of its own
context. -/
def ready (conversation : Conversation σ μ) : World σ μ :=
  { conversation.world with metadata := ∅ }

def exchange (loop : AgentLoop σ μ) (services : HarnessServices σ μ)
    (conversation : Conversation σ μ) (ctx : RunContext) : Exchange where
  target := loop.target ctx services conversation.ready
  reason := conversation.world.status.exhaustedReason
  outcome := answer (loop.turn ctx services conversation.ready)
  trace := (finalState (loop.turn ctx services conversation.ready)).trace

def next (loop : AgentLoop σ μ) (services : HarnessServices σ μ)
    (conversation : Conversation σ μ) (ctx : RunContext) : Conversation σ μ where
  world := finalState (loop.turn ctx services conversation.ready)
  exchanges :=
    conversation.exchanges ++ [exchange loop services conversation ctx]

/-- The traces of the turns whose usage is on the ledger. -/
def chargedTraces (conversation : Conversation σ μ) : List (List Interaction) :=
  (conversation.exchanges.filter Exchange.charged).map Exchange.trace

theorem chargedTraces_next (loop : AgentLoop σ μ) (services : HarnessServices σ μ)
    (conversation : Conversation σ μ) (ctx : RunContext) :
    (next loop services conversation ctx).chargedTraces =
      conversation.chargedTraces ++
        if (exchange loop services conversation ctx).charged then
          [(exchange loop services conversation ctx).trace]
        else
          [] := by
  unfold chargedTraces next
  rw [List.filter_append, List.map_append, List.filter_cons, List.filter_nil]
  by_cases charged : (exchange loop services conversation ctx).charged = true
  · rw [if_pos charged, if_pos charged]
    rfl
  · rw [if_neg charged, if_neg charged]
    rfl

/-! ## The ledger of a conversation -/

/-- Tokens and cost add up over the traces; the tool calls are those of the
last. -/
structure IsLedgerOf (tracker : BudgetTracker) (start : BudgetStatus)
    (traces : List (List Interaction)) (status : BudgetStatus) : Prop where
  tokens :
    status.tokensUsed =
      start.tokensUsed + (traces.map (totalOf RunUsage.totalTokens)).sum
  cost :
    status.costUsd =
      start.costUsd +
        tracker.cost (traces.map (totalOf RunUsage.inputTokens)).sum
          (traces.map (totalOf RunUsage.outputTokens)).sum
  toolCalls :
    status.toolCallsUsed =
      (traces.getLast?.map (totalOf RunUsage.toolCalls)).getD start.toolCallsUsed

theorem isLedgerOf_nil (tracker : BudgetTracker) (start : BudgetStatus) :
    IsLedgerOf tracker start [] start where
  tokens := rfl
  cost := by
    show start.costUsd = start.costUsd + tracker.cost 0 0
    rw [BudgetTracker.cost_zero, add_zero]
  toolCalls := rfl

theorem IsLedgerOf.charge {tracker : BudgetTracker}
    {start before after : BudgetStatus} {traces : List (List Interaction)}
    {trace : List Interaction} (ledger : IsLedgerOf tracker start traces before)
    (charged : ChargedRun tracker before trace after) :
    IsLedgerOf tracker start (traces ++ [trace]) after where
  tokens := by
    rw [charged.tokens, ledger.tokens, List.map_append, List.sum_append,
      List.map_singleton, List.sum_singleton, Nat.add_assoc]
  cost := by
    rw [charged.cost, ledger.cost, List.map_append, List.map_append,
      List.sum_append, List.sum_append, List.map_singleton, List.map_singleton,
      List.sum_singleton, List.sum_singleton, BudgetTracker.cost_add, add_assoc]
  toolCalls := by
    rw [charged.toolCalls, List.getLast?_concat]
    rfl

variable {host : Host σ} {single : SingleAgentFlow σ}
  {orchestrator : OrchestratorFlow σ} {services : HarnessServices σ μ}
  {start : World σ μ} {conversation : Conversation σ μ}

/-- What is known of a turn of the conversation. -/
theorem next_ledgered (host : Host σ) (single : SingleAgentFlow σ)
    (orchestrator : OrchestratorFlow σ) (services : HarnessServices σ μ)
    (conversation : Conversation σ μ) (ctx : RunContext) :
    let loop := AgentLoop.harness host single orchestrator
    let taken := exchange loop services conversation ctx
    AgentLoop.TurnLedgered taken.target services.budget conversation.world.status
      taken.outcome taken.trace (next loop services conversation ctx).world.status :=
  AgentLoop.turn_ledgered host single orchestrator ctx services conversation.ready

theorem isLedgerOf_next (ctx : RunContext)
    (ledger :
      IsLedgerOf services.budget start.status conversation.chargedTraces
        conversation.world.status) :
    IsLedgerOf services.budget start.status
      (next (.harness host single orchestrator) services conversation
        ctx).chargedTraces
      (next (.harness host single orchestrator) services conversation
        ctx).world.status := by
  have turn := next_ledgered host single orchestrator services conversation ctx
  rw [chargedTraces_next]
  by_cases charged :
      (exchange (.harness host single orchestrator) services conversation
        ctx).charged = true
  · obtain ⟨targeted, ended⟩ := (Bool.and_eq_true _ _).mp charged
    rw [if_pos charged]
    have ledgered := turn.ledgered (of_decide_eq_true targeted)
    exact ledger.charge (ledgered.charged ended)
  · rw [if_neg charged, List.append_nil]
    have same :
        (next (.harness host single orchestrator) services conversation
          ctx).world.status = conversation.world.status := by
      by_cases targeted :
          (exchange (.harness host single orchestrator) services conversation
            ctx).target = some SingleAgentFlow.flowName
      · apply (turn.ledgered targeted).kept
        rw [Exchange.charged, targeted] at charged
        simpa using charged
      · exact turn.elsewhere targeted
    rw [same]
    exact ledger

/-- After any turns, the ledger holds what was there before and the usage of the
single-agent turns whose main agent run has ended: all their tokens and cost, and
the tool calls of the last of them. -/
theorem ledger_of_conversation (host : Host σ) (single : SingleAgentFlow σ)
    (orchestrator : OrchestratorFlow σ) (services : HarnessServices σ μ)
    (start : World σ μ) (contexts : List RunContext) :
    let conversation :=
      run (next (.harness host single orchestrator) services) { world := start }
        contexts
    IsLedgerOf services.budget start.status conversation.chargedTraces
      conversation.world.status := by
  have begins :
      IsLedgerOf services.budget start.status
        ({ world := start } : Conversation σ μ).chargedTraces start.status :=
    isLedgerOf_nil services.budget start.status
  have keeps : ∀ (conversation : Conversation σ μ) (ctx : RunContext),
      IsLedgerOf services.budget start.status conversation.chargedTraces
          conversation.world.status →
        IsLedgerOf services.budget start.status
          (next (.harness host single orchestrator) services conversation
            ctx).chargedTraces
          (next (.harness host single orchestrator) services conversation
            ctx).world.status :=
    fun _ ctx ledger => isLedgerOf_next ctx ledger
  exact run_invariant _ keeps begins contexts

/-! ## Exhaustion across turns -/

/-- A turn of the single agent that began with the budget exhausted does not
succeed, and once its main agent run has ended it gives up with the old reason. -/
structure RefusesExhausted (exchange : Exchange) : Prop where
  unsuccessful :
    ∀ reason result,
      exchange.reason = some reason →
        exchange.target = some SingleAgentFlow.flowName →
          exchange.outcome = .ok result → result.success = false
  ended :
    ∀ reason,
      exchange.reason = some reason → exchange.charged = true →
        exchange.outcome =
          .ok
            ⟨some (.text (SingleAgentFlow.givesUpWith reason)), false,
              "budget_exhausted", []⟩

theorem sticky_next (ctx : RunContext) {reason : String}
    (exhausted : conversation.world.status.exhaustedReason = some reason) :
    (next (.harness host single orchestrator) services conversation
      ctx).world.status.exhaustedReason = some reason := by
  have turn := next_ledgered host single orchestrator services conversation ctx
  by_cases targeted :
      (exchange (.harness host single orchestrator) services conversation
        ctx).target = some SingleAgentFlow.flowName
  · exact (turn.ledgered targeted).sticky exhausted
  · rw [turn.elsewhere targeted]
    exact exhausted

theorem refusesExhausted_exchange (host : Host σ) (single : SingleAgentFlow σ)
    (orchestrator : OrchestratorFlow σ) (services : HarnessServices σ μ)
    (conversation : Conversation σ μ) (ctx : RunContext) :
    RefusesExhausted
      (exchange (.harness host single orchestrator) services conversation ctx) := by
  have turn := next_ledgered host single orchestrator services conversation ctx
  constructor
  · intro reason result exhausted targeted returned
    have still := (turn.ledgered targeted).sticky exhausted
    cases succeeds : result.success with
    | false => rfl
    | true =>
        have within := turn.within targeted result returned succeeds
        rw [BudgetStatus.exhausted, still] at within
        cases within
  · intro reason exhausted charged
    obtain ⟨targeted, ended⟩ := (Bool.and_eq_true _ _).mp charged
    have target := of_decide_eq_true targeted
    have still := (turn.ledgered target).sticky exhausted
    exact turn.exhausted target ended reason still

/-- How exhaustion went on in a conversation so far. -/
structure Exhausting (conversation : Conversation σ μ) : Prop where
  refuses : ∀ exchange ∈ conversation.exchanges, RefusesExhausted exchange
  stays :
    conversation.exchanges.Pairwise fun earlier later =>
      ∀ reason, earlier.reason = some reason → later.reason = some reason
  now :
    ∀ exchange ∈ conversation.exchanges, ∀ reason,
      exchange.reason = some reason →
        conversation.world.status.exhaustedReason = some reason

theorem exhausting_next (exhausting : Exhausting conversation) (ctx : RunContext) :
    Exhausting
      (next (.harness host single orchestrator) services conversation ctx) where
  refuses exchange member := by
    rcases List.mem_append.mp member with old | new
    · exact exhausting.refuses exchange old
    · rw [List.mem_singleton.mp new]
      exact refusesExhausted_exchange host single orchestrator services conversation ctx
  stays := by
    refine List.pairwise_append.mpr ⟨exhausting.stays, List.pairwise_singleton _ _, ?_⟩
    intro earlier member later isNew reason exhausted
    rw [List.mem_singleton.mp isNew]
    exact exhausting.now earlier member reason exhausted
  now exchange member reason exhausted := by
    apply sticky_next ctx
    rcases List.mem_append.mp member with old | new
    · exact exhausting.now exchange old reason exhausted
    · rw [List.mem_singleton.mp new] at exhausted
      exact exhausted

/-- Once a turn has found the budget exhausted, every later turn finds it so, with
the same reason, and no turn of the single agent succeeds any more. -/
theorem exhaustion_is_final (host : Host σ) (single : SingleAgentFlow σ)
    (orchestrator : OrchestratorFlow σ) (services : HarnessServices σ μ)
    (start : World σ μ) (contexts : List RunContext) :
    let conversation :=
      run (next (.harness host single orchestrator) services) { world := start }
        contexts
    Exhausting conversation := by
  have begins : Exhausting ({ world := start } : Conversation σ μ) :=
    ⟨fun _ member => (by cases member), List.Pairwise.nil,
      fun _ member => (by cases member)⟩
  apply run_invariant (next (.harness host single orchestrator) services) _ begins
  exact fun _ ctx exhausting => exhausting_next exhausting ctx

end Conversation

end FableHarness
