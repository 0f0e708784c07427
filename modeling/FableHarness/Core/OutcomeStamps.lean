import FableHarness.Core.RoutedTurn

/-!
# The stamps of a turn's outcome

A turn that runs a flow is stamped with its outcome.  One that answers directly,
or whose target is unknown, returns before the stamps.
-/

namespace FableHarness

open ExceptionState

variable {σ μ : Type}

/-- The stamps of a routing decision. -/
def RouteDecision.stamps (decision : RouteDecision) : List (String × StampValue) := [
  ("harness.route.mode", .text decision.mode.value),
  ("harness.route.target", .text decision.target),
  ("harness.route.confidence", .number decision.confidence),
  ("harness.route.tier", .int decision.tier)]

def routeKeys : List String := [
  "harness.route.mode",
  "harness.route.target",
  "harness.route.confidence",
  "harness.route.tier"]

/-- The stamps of a result, of the budget as it stands, and of the ablations. -/
def outcomeStamps (ctx : RunContext) (result : FlowResult)
    (status : BudgetStatus) : List (String × StampValue) := [
  ("harness.flow.stop_reason", .text result.stopReason),
  ("harness.flow.success", .flag result.success),
  ("harness.budget.tokens_used", .int status.tokensUsed),
  ("harness.budget.tool_calls_used", .int status.toolCallsUsed),
  ("harness.budget.cost_usd", .number (roundTo 6 status.costUsd)),
  ("harness.ablation.memory_on", .flag ctx.ablations.memoryOn),
  ("harness.ablation.critic_on", .flag ctx.ablations.criticOn),
  ("harness.ablation.router_tier", .int ctx.ablations.routerTier)]

theorem map_fst_stamps (decision : RouteDecision) :
    decision.stamps.map Prod.fst = routeKeys :=
  rfl

theorem nodup_outcomeStamps (ctx : RunContext) (result : FlowResult)
    (status : BudgetStatus) :
    ((outcomeStamps ctx result status).map Prod.fst).Nodup := by
  show [
    "harness.flow.stop_reason", "harness.flow.success",
    "harness.budget.tokens_used", "harness.budget.tool_calls_used",
    "harness.budget.cost_usd", "harness.ablation.memory_on",
    "harness.ablation.critic_on", "harness.ablation.router_tier"].Nodup
  decide

/-- No stamp of the outcome is one of the route. -/
theorem not_mem_outcomeStamps {key : String} (ofRoute : key ∈ routeKeys)
    (ctx : RunContext) (result : FlowResult) (status : BudgetStatus) :
    key ∉ (outcomeStamps ctx result status).map Prod.fst := by
  have disjoint :
      ∀ key ∈ routeKeys, key ∉ [
        "harness.flow.stop_reason", "harness.flow.success",
        "harness.budget.tokens_used", "harness.budget.tool_calls_used",
        "harness.budget.cost_usd", "harness.ablation.memory_on",
        "harness.ablation.critic_on", "harness.ablation.router_tier"] := by
    decide
  exact disjoint key ofRoute

/-- What a turn that returned `result` left behind in `after`. -/
structure Stamped (ctx : RunContext) (services : HarnessServices σ μ)
    (before : World σ μ) (result : FlowResult) (after : World σ μ) : Prop where
  outcome :
    ∀ stamp ∈ outcomeStamps ctx result after.status,
      after.metadata.get? stamp.1 = some stamp.2
  unrouted :
    services.router = none →
      ∀ key ∈ routeKeys, after.metadata.get? key = none
  routed :
    ∀ router, services.router = some router →
      ∃ decision env,
        (router ctx.request ctx).run before.env = .ok decision env ∧
          ∀ stamp ∈ decision.stamps,
            after.metadata.get? stamp.1 = some stamp.2

namespace AgentLoop

variable {loop : AgentLoop σ μ} {ctx : RunContext}
  {services : HarnessServices σ μ} {world routed : World σ μ}
  {decision : Option RouteDecision}

/-- Whenever the turn returns, it leaves its stamps behind. -/
def LeavesStamps (loop : AgentLoop σ μ) (ctx : RunContext)
    (services : HarnessServices σ μ) (world : World σ μ) : Prop :=
  ∀ result after,
    loop.turn ctx services world = .ok result after →
      Stamped ctx services world result after

/-- The turn reaches a flow, which leaves the stamps of the route alone. -/
def ReachesFlow (loop : AgentLoop σ μ) (ctx : RunContext)
    (services : HarnessServices σ μ) (world : World σ μ) : Prop :=
  ∀ decision routed,
    (route ctx services).run world.untraced = .ok decision routed →
      ∃ name flow,
        loop.dispatch decision = .flow name flow ∧
          ∀ result after,
            (tryCatch (flow ctx.request ctx services) convert).run routed =
                .ok result after →
              ∀ key ∈ routeKeys,
                after.metadata.get? key = routed.metadata.get? key

/-- What routing stamps. -/
theorem metadata_of_route
    (routes : (route ctx services).run world = .ok decision routed) :
    (services.router = none ∧ decision = none ∧ routed = world) ∨
      ∃ router taken env,
        services.router = some router ∧ decision = some taken ∧
          (router ctx.request ctx).run world.env = .ok taken env ∧
          routed.metadata = world.metadata.setAll taken.stamps := by
  unfold route at routes
  cases present : services.router with
  | none =>
      rw [present] at routes
      cases routes
      exact Or.inl ⟨rfl, rfl, rfl⟩
  | some router =>
      rw [present] at routes
      simp only [EStateM.run_bind, Turn.run_outside] at routes
      cases decided : (router ctx.request ctx).run world.env with
      | error exc env =>
          rw [decided] at routes
          cases routes
      | ok taken env =>
          rw [decided] at routes
          cases routes
          exact Or.inr ⟨router, taken, env, rfl, rfl, decided, rfl⟩

theorem run_stampResult (result : FlowResult) (world : World σ μ) :
    (stampResult ctx result).run world =
      .ok ()
        { world with
          metadata :=
            world.metadata.setAll (outcomeStamps ctx result world.status) } :=
  rfl

/-- A turn without a flow returns what it was routed to answer, unstamped. -/
theorem turn_of_answer {result : FlowResult}
    (routes : (route ctx services).run world.untraced = .ok decision routed)
    (dispatched : loop.dispatch decision = .answer result) :
    loop.turn ctx services world = .ok result routed := by
  unfold turn runTurn
  rw [EStateM.run_bind, routes]
  simp only [dispatched]
  rfl

/-- A turn with a flow returns where the flow does, with its stamps. -/
theorem turn_eq_ok_iff {name : String} {flow : Flow σ μ} {result : FlowResult}
    {after : World σ μ}
    (routes : (route ctx services).run world.untraced = .ok decision routed)
    (dispatched : loop.dispatch decision = .flow name flow) :
    loop.turn ctx services world = .ok result after ↔
      ∃ middle,
        (tryCatch (flow ctx.request ctx services) convert).run routed =
            .ok result middle ∧
          after =
            { middle with
              metadata :=
                middle.metadata.setAll
                  (outcomeStamps ctx result middle.status) } := by
  have whole :
      loop.turn ctx services world =
        ((tryCatch (flow ctx.request ctx services) convert) >>= fun result =>
          stampResult ctx result >>= fun _ => pure result).run routed := by
    unfold turn runTurn
    rw [EStateM.run_bind, routes]
    simp only [dispatched]
  rw [whole, EStateM.run_bind]
  cases (tryCatch (flow ctx.request ctx services) convert).run routed with
  | error exc middle => simp
  | ok returned middle =>
      simp only [EStateM.run_bind, run_stampResult]
      constructor
      · intro same
        cases same
        exact ⟨middle, rfl, rfl⟩
      · rintro ⟨_, same, rfl⟩
        cases same
        rfl

/-- Routing stamps nothing but the route. -/
theorem get?_of_route (fresh : world.metadata = ∅)
    (routes : (route ctx services).run world.untraced = .ok decision routed)
    {key : String} (other : key ∉ routeKeys) :
    routed.metadata.get? key = none := by
  have untraced : world.untraced.metadata = ∅ := fresh
  rcases metadata_of_route routes with
    ⟨_, _, rfl⟩ | ⟨_, taken, _, _, _, _, stamped⟩
  · rw [untraced, OrderedDict.get?_empty]
  · rw [stamped, OrderedDict.get?_setAll_of_not_mem
        (by rw [map_fst_stamps]; exact other),
      untraced, OrderedDict.get?_empty]

/-- A router stamped its decision. -/
theorem get?_stamps_of_route {taken : RouteDecision} {before : Metadata}
    (stamped : routed.metadata = before.setAll taken.stamps)
    {stamp : String × StampValue} (member : stamp ∈ taken.stamps) :
    routed.metadata.get? stamp.1 = some stamp.2 := by
  have nodup : (taken.stamps.map Prod.fst).Nodup := by
    rw [map_fst_stamps]
    decide
  rw [stamped, OrderedDict.get?_setAll_of_mem nodup member]

/-- What a fresh turn's routing leaves, and what its end must find. -/
theorem stamps_of_route (fresh : world.metadata = ∅)
    (routes : (route ctx services).run world.untraced = .ok decision routed)
    {metadata : Metadata}
    (kept : ∀ key ∈ routeKeys, metadata.get? key = routed.metadata.get? key) :
    (services.router = none → ∀ key ∈ routeKeys, metadata.get? key = none) ∧
      ∀ router, services.router = some router →
        ∃ decision env,
          (router ctx.request ctx).run world.env = .ok decision env ∧
            ∀ stamp ∈ decision.stamps, metadata.get? stamp.1 = some stamp.2 := by
  rcases metadata_of_route routes with
    ⟨absent, _, rfl⟩ | ⟨router, taken, env, present, _, decided, stamped⟩
  · refine ⟨?_, ?_⟩
    · intro _ key member
      rw [kept key member]
      show world.metadata.get? key = none
      rw [fresh, OrderedDict.get?_empty]
    · intro router present
      cases absent.symm.trans present
  · refine ⟨?_, ?_⟩
    · intro absent
      cases absent.symm.trans present
    · intro other same
      cases present.symm.trans same
      refine ⟨taken, env, decided, ?_⟩
      intro stamp member
      have ofRoute : stamp.1 ∈ routeKeys := by
        rw [← map_fst_stamps taken]
        exact List.mem_map_of_mem member
      rw [kept stamp.1 ofRoute, get?_stamps_of_route stamped member]

/-- The stamps at the end of a turn are the right ones exactly if the flow left
those of the route alone. -/
theorem stamped_iff (fresh : world.metadata = ∅)
    (routes : (route ctx services).run world.untraced = .ok decision routed)
    (result : FlowResult) (middle : World σ μ) :
    Stamped ctx services world result
        { middle with
          metadata :=
            middle.metadata.setAll (outcomeStamps ctx result middle.status) } ↔
      ∀ key ∈ routeKeys,
        middle.metadata.get? key = routed.metadata.get? key := by
  have ends :
      ∀ key ∈ routeKeys,
        (middle.metadata.setAll
            (outcomeStamps ctx result middle.status)).get? key =
          middle.metadata.get? key :=
    fun key ofRoute =>
      OrderedDict.get?_setAll_of_not_mem
        (not_mem_outcomeStamps ofRoute ctx result middle.status)
  constructor
  · intro stamped key ofRoute
    rw [← ends key ofRoute]
    rcases metadata_of_route routes with
      ⟨absent, _, rfl⟩ | ⟨router, taken, env, present, _, decided, atRoute⟩
    · rw [stamped.unrouted absent key ofRoute]
      show none = world.metadata.get? key
      rw [fresh, OrderedDict.get?_empty]
    · obtain ⟨acted, _, decides, holds⟩ := stamped.routed router present
      cases decided.symm.trans decides
      rw [← map_fst_stamps taken] at ofRoute
      obtain ⟨stamp, member, rfl⟩ := List.mem_map.mp ofRoute
      rw [holds stamp member, get?_stamps_of_route atRoute member]
  · intro leavesAlone
    obtain ⟨unrouted, routedStamps⟩ :=
      stamps_of_route fresh routes fun key ofRoute =>
        (ends key ofRoute).trans (leavesAlone key ofRoute)
    exact
      { outcome := fun stamp member =>
          OrderedDict.get?_setAll_of_mem
            (nodup_outcomeStamps ctx result middle.status) member
        unrouted := unrouted
        routed := routedStamps }

/-- A turn with a fresh context leaves its stamps behind exactly if it reaches a
flow, and the flow does not touch the stamps of the route. -/
theorem leavesStamps_iff (loop : AgentLoop σ μ) (ctx : RunContext)
    (services : HarnessServices σ μ) (world : World σ μ)
    (fresh : world.metadata = ∅) :
    loop.LeavesStamps ctx services world ↔
      loop.ReachesFlow ctx services world := by
  constructor
  · intro leaves decision routed routes
    cases dispatched : loop.dispatch decision with
    | answer result =>
        have stamped :=
          leaves result routed (turn_of_answer routes dispatched)
        have absent :
            routed.metadata.get? "harness.flow.stop_reason" = none :=
          get?_of_route fresh routes (by decide)
        rw [stamped.outcome _ List.mem_cons_self] at absent
        cases absent
    | flow name flow =>
        refine ⟨name, flow, rfl, ?_⟩
        intro result middle ran
        have returned :=
          (turn_eq_ok_iff routes dispatched).mpr ⟨middle, ran, rfl⟩
        exact
          (stamped_iff fresh routes result middle).mp (leaves result _ returned)
  · intro reaches result after returned
    rcases run_route ctx services world.untraced with
      ⟨decision, env, metadata, routes⟩ | ⟨exc, env, metadata, raises⟩
    · obtain ⟨name, flow, dispatched, leavesAlone⟩ := reaches _ _ routes
      obtain ⟨middle, ran, rfl⟩ := (turn_eq_ok_iff routes dispatched).mp returned
      exact
        (stamped_iff fresh routes result middle).mpr
          (leavesAlone result middle ran)
    · unfold turn runTurn at returned
      rw [EStateM.run_bind, raises] at returned
      cases returned

end AgentLoop

/-! ### A target that triage made up -/

namespace Unstamped

def services (router : Option (Router Unit)) : HarnessServices Unit Unit where
  tools := {}
  memory := nullMemoryStore Unit
  budget := { budget := {}, modelId := "model", start := 0 }
  router := router

def loop : AgentLoop Unit Unit :=
  .harness Idle.host Idle.single Idle.orchestrator

end Unstamped

/-- Without a router, a turn reaches the single agent and its stamps. -/
theorem unrouted_turn_leaves_stamps :
    Unstamped.loop.LeavesStamps Idle.ctx (Unstamped.services none)
      Idle.world := by
  apply
    (AgentLoop.leavesStamps_iff Unstamped.loop Idle.ctx (Unstamped.services none)
      Idle.world rfl).mpr
  intro decision routed routes
  cases routes
  refine ⟨SingleAgentFlow.flowName, _, rfl, ?_⟩
  intro result after returned key stamped
  cases returned
  rfl

/-- A turn routed to an unknown target returns without an outcome stamp. -/
theorem unknown_target_leaves_no_stamps :
    ¬ ∀ (loop : AgentLoop Unit Unit) (ctx : RunContext)
        (services : HarnessServices Unit Unit) (world : World Unit Unit),
      world.metadata = ∅ → loop.LeavesStamps ctx services world := by
  intro always
  have routes :
      (AgentLoop.route Idle.ctx
          (Unstamped.services (some (staticRouter .flow "made_up")))).run
          Idle.world.untraced =
        .ok (some ⟨.flow, "made_up", 1, 0⟩)
          { Idle.world.untraced with
            metadata :=
              (∅ : Metadata).setAll
                (RouteDecision.stamps ⟨.flow, "made_up", 1, 0⟩) } := rfl
  have stamped :=
    always Unstamped.loop Idle.ctx
      (Unstamped.services (some (staticRouter .flow "made_up"))) Idle.world rfl _ _
      (AgentLoop.turn_of_answer routes rfl)
  have unrelated : "harness.flow.stop_reason" ∉ routeKeys := by decide
  have fresh : Idle.world.metadata = ∅ := rfl
  have absent := AgentLoop.get?_of_route fresh routes unrelated
  rw [stamped.outcome _ List.mem_cons_self] at absent
  cases absent

end FableHarness
