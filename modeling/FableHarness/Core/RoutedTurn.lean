import FableHarness.Core.Loop
import FableHarness.Library.EventLog

/-!
# Turns by the flow they are routed to

Everything a turn does before and after its flow leaves the trace alone, so
what happens in a turn is what happens in the flow it is dispatched to.
-/

namespace FableHarness

open ExceptionState EventLog

variable {σ μ : Type}

/-- The world at the start of a turn: nothing has happened in it. -/
def World.untraced (world : World σ μ) : World σ μ :=
  { world with trace := [] }

namespace AgentLoop

/-- One turn, with its own trace. -/
def turn (loop : AgentLoop σ μ) (ctx : RunContext) (services : HarnessServices σ μ)
    (world : World σ μ) : EStateM.Result TurnExc (World σ μ) FlowResult :=
  (loop.runTurn ctx services).run world.untraced

/-- The name of the flow that a turn runs, if it runs one. -/
def target (loop : AgentLoop σ μ) (ctx : RunContext)
    (services : HarnessServices σ μ) (world : World σ μ) : Option String :=
  match (route ctx services).run world.untraced with
  | .error _ _ => none
  | .ok decision _ =>
      match loop.dispatch decision with
      | .answer _ => none
      | .flow name _ => some name

/-- The loop over the flow table of the command line. -/
def harness (host : Host σ) (single : SingleAgentFlow σ)
    (orchestrator : OrchestratorFlow σ) : AgentLoop σ μ where
  flows := harnessFlows host single orchestrator

/-! ## Before the flow -/

/-- Routing changes the outside world and the stamps only. -/
theorem run_route (ctx : RunContext) (services : HarnessServices σ μ)
    (world : World σ μ) :
    (∃ decision env metadata,
      (route ctx services).run world = .ok decision { world with env, metadata }) ∨
      ∃ exc env metadata,
        (route ctx services).run world =
          .error (.outside exc) { world with env, metadata } := by
  unfold route
  cases services.router with
  | none => exact Or.inl ⟨none, world.env, world.metadata, rfl⟩
  | some router =>
      cases routed : (router ctx.request ctx).run world.env with
      | ok decision env =>
          refine Or.inl ⟨some decision, env, ?metadata, ?run⟩
          case run =>
            simp only [EStateM.run_bind, Turn.run_outside, routed, Turn.stamp]
            rfl
      | error exc env =>
          refine Or.inr ⟨exc, env, world.metadata, ?_⟩
          simp only [EStateM.run_bind, Turn.run_outside, routed]

theorem dispatch_eq_flow {loop : AgentLoop σ μ} {decision : Option RouteDecision}
    {name : String} {flow : Flow σ μ}
    (dispatched : loop.dispatch decision = .flow name flow) :
    loop.flows.get? name = some flow := by
  unfold dispatch at dispatched
  cases decision with
  | none =>
      cases found : loop.flows.get? "single_agent" with
      | none => simp [found] at dispatched
      | some other =>
          simp only [found] at dispatched
          cases dispatched
          exact found
  | some decision =>
      by_cases direct : decision.mode = .direct
      · simp [direct] at dispatched
      · cases found : loop.flows.get? decision.target with
        | none => simp [direct, found] at dispatched
        | some other =>
            simp only [direct, found, if_false] at dispatched
            cases dispatched
            exact found

theorem get?_harnessFlows {host : Host σ} {single : SingleAgentFlow σ}
    {orchestrator : OrchestratorFlow σ} {name : String} {flow : Flow σ μ}
    (found : (harnessFlows host single orchestrator).get? name = some flow) :
    name = SingleAgentFlow.flowName ∧ flow = single.run host ∨
      name = OrchestratorFlow.flowName ∧ flow = orchestrator.run host := by
  have lookup :
      (harnessFlows host single orchestrator : OrderedDict String (Flow σ μ)).get?
          name =
        if name = OrchestratorFlow.flowName then
          some (orchestrator.run host)
        else if name = SingleAgentFlow.flowName then
          some (single.run host)
        else
          none := by
    unfold harnessFlows OrderedDict.ofList
    simp only [List.foldl, OrderedDict.get?_set, OrderedDict.get?_empty]
  rw [lookup] at found
  by_cases second : name = OrchestratorFlow.flowName
  · rw [if_pos second] at found
    cases found
    exact Or.inr ⟨second, rfl⟩
  · rw [if_neg second] at found
    by_cases first : name = SingleAgentFlow.flowName
    · rw [if_pos first] at found
      cases found
      exact Or.inl ⟨first, rfl⟩
    · rw [if_neg first] at found
      cases found

/-! ## After the flow -/

theorem stampResult_emits (ctx : RunContext) (result : FlowResult) :
    Emits World.trace (stampResult ctx result : Turn σ μ Unit)
      fun outcome events => outcome = .ok () ∧ events = [] :=
  emits_of_silent (fun _ => rfl) fun _ => ⟨rfl, rfl⟩

/-- The flow of a turn, followed by the stamps. -/
theorem stamped_ends {program : Turn σ μ FlowResult} {ctx : RunContext}
    {before : World σ μ}
    {post : Except TurnExc FlowResult → List Interaction → Prop}
    (ends :
      Ends World.trace program before fun outcome events _ => post outcome events) :
    Ends World.trace
      (do
        let result ← program
        stampResult ctx result
        return result) before
      fun outcome events _ => post outcome events := by
  apply ends_bind ends
  · exact fun exc events after holds => holds
  · intro result events after holds
    apply ends_bind (stampResult_emits ctx result after)
    · intro exc later _ ⟨raised, _⟩
      cases raised
    · intro _ later stamped ⟨_, silent⟩
      refine ends_pure ?_
      rw [silent, List.append_nil, List.append_nil]
      exact holds

/-- A turn with a target is dispatched to the flow of this name. -/
theorem exists_dispatched {loop : AgentLoop σ μ} {ctx : RunContext}
    {services : HarnessServices σ μ} {world : World σ μ} {name : String}
    (targeted : loop.target ctx services world = some name) :
    ∃ decision env metadata flow,
      (route ctx services).run world.untraced =
          .ok decision { world.untraced with env, metadata } ∧
        loop.dispatch decision = .flow name flow := by
  unfold target at targeted
  rcases run_route ctx services world.untraced with
    ⟨decision, env, metadata, routed⟩ | ⟨exc, env, metadata, routed⟩
  · cases dispatched : loop.dispatch decision with
    | answer result =>
        simp only [routed, dispatched] at targeted
        cases targeted
    | flow other flow =>
        simp only [routed, dispatched, Option.some.injEq] at targeted
        subst targeted
        exact ⟨decision, env, metadata, flow, routed, dispatched⟩
  · simp only [routed] at targeted
    cases targeted

/-- What the flow records and how it ends, up to the conversion of its
exception, decides how the turn ends. -/
theorem exists_routed {loop : AgentLoop σ μ} {ctx : RunContext}
    {services : HarnessServices σ μ} {world : World σ μ} {name : String}
    (targeted : loop.target ctx services world = some name) :
    ∃ flow decision env metadata,
      loop.flows.get? name = some flow ∧
        (route ctx services).run world.untraced =
          .ok decision { world.untraced with env, metadata } ∧
        ∀ post : Except TurnExc FlowResult → List Interaction → Prop,
          Ends World.trace (tryCatch (flow ctx.request ctx services) convert)
            { world.untraced with env, metadata }
            (fun outcome events _ => post outcome events) →
          post (answer (loop.turn ctx services world))
            (finalState (loop.turn ctx services world)).trace := by
  obtain ⟨decision, env, metadata, flow, routed, dispatched⟩ :=
    exists_dispatched targeted
  refine
    ⟨flow, decision, env, metadata, dispatch_eq_flow dispatched, routed, ?_⟩
  intro post ends
  have whole :
      Ends World.trace (loop.runTurn ctx services) world.untraced
        fun outcome events _ => post outcome events := by
    refine ends_bind_of_ok routed (List.append_nil _).symm ?_
    simp only [dispatched]
    exact stamped_ends ends
  obtain ⟨events, appended, holds⟩ := whole
  have trace : (finalState (loop.turn ctx services world)).trace = events :=
    appended
  rw [trace]
  exact holds

/-- A turn whose flow returns has the result of the flow, stamped. -/
theorem turn_of_flow {loop : AgentLoop σ μ} {ctx : RunContext}
    {services : HarnessServices σ μ} {world routed after : World σ μ}
    {decision : Option RouteDecision} {name : String} {flow : Flow σ μ}
    {result : FlowResult}
    (routes :
      (route ctx services).run world.untraced = .ok decision routed)
    (dispatched : loop.dispatch decision = .flow name flow)
    (ran : (flow ctx.request ctx services).run routed = .ok result after) :
    ∃ metadata,
      loop.turn ctx services world = .ok result { after with metadata } := by
  have caught :
      (tryCatch (flow ctx.request ctx services) convert).run routed =
        .ok result after := by
    rw [run_tryCatch, ran]
  refine ⟨?metadata, ?run⟩
  case run =>
    unfold turn runTurn
    simp only [EStateM.run_bind, routes, dispatched, caught]
    rfl

/-- Nothing is recorded in a turn without a flow. -/
theorem trace_of_no_target {loop : AgentLoop σ μ} {ctx : RunContext}
    {services : HarnessServices σ μ} {world : World σ μ}
    (untargeted : loop.target ctx services world = none) :
    (finalState (loop.turn ctx services world)).trace = [] := by
  unfold target at untargeted
  unfold turn runTurn
  rw [EStateM.run_bind]
  rcases run_route ctx services world.untraced with
    ⟨decision, env, metadata, routed⟩ | ⟨exc, env, metadata, routed⟩
  · cases dispatched : loop.dispatch decision with
    | answer result =>
        simp only [routed, dispatched]
        rfl
    | flow other flow =>
        simp only [routed, dispatched] at untargeted
        cases untargeted
  · simp only [routed]
    rfl

end AgentLoop

/-! ## A harness at rest -/

namespace Idle

/-- Outside code that does nothing and takes no time. -/
def host : Host Unit where
  runtime := ⟨fun _ => "", id, fun _ => "", fun _ _ => ""⟩
  elapse env := (⟨0, Rat.le_refl⟩, env)
  uuid4 env := (⟨List.replicate 32 ⟨0, Nat.zero_lt_succ 15⟩, rfl⟩, env)
  rejection _ _ := "rejected"

def orchestrator : OrchestratorFlow Unit where
  retrievalModel _ := pure (.answer {} "" [])
  synthesisModel _ := pure (.answer {} ⟨"", []⟩ [])
  criticModel _ := pure (.answer {} ⟨"", []⟩ [])
  server _ _ := pure (.value "")
  gatherOrder env := (⟨_, .refl _⟩, env)

def single : SingleAgentFlow Unit where
  model _ := pure (.answer {} "" [])

def ctx : RunContext where
  request := "say hello"
  sessionId := "cli-session"

def world : World Unit Unit := { env := (), memory := (), clock := 0 }

end Idle

end FableHarness
