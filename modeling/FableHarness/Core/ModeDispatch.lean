import FableHarness.Core.OutcomeStamps
import FableHarness.Routing.TieredRouter

/-!
# What the decided mode says about the turn

The loop looks at the mode only to answer directly; otherwise it runs whatever
flow the target names.  With the shipped routes the two can disagree only where
triage, or a fallback of one's own, made them disagree.
-/

namespace FableHarness

open ExceptionState

variable {σ μ : Type}

/-- The target is what the mode announces. -/
def RouteDecision.Coherent (decision : RouteDecision) : Prop :=
  decision.mode = .direct ∨
    (decision.target = OrchestratorFlow.flowName → decision.mode = .flow) ∧
      (decision.target = SingleAgentFlow.flowName → decision.mode = .toolLoop)

theorem flowName_ne : SingleAgentFlow.flowName ≠ OrchestratorFlow.flowName := by
  decide

namespace RouteDecision

theorem coherent_orchestrator (confidence : ℚ) (tier : Int) :
    Coherent ⟨.flow, OrchestratorFlow.flowName, confidence, tier⟩ :=
  Or.inr ⟨fun _ => rfl, fun named => absurd named.symm flowName_ne⟩

theorem coherent_singleAgent (confidence : ℚ) (tier : Int) :
    Coherent ⟨.toolLoop, SingleAgentFlow.flowName, confidence, tier⟩ :=
  Or.inr ⟨fun named => absurd named flowName_ne, fun _ => rfl⟩

end RouteDecision

namespace AgentLoop

variable {loop : AgentLoop σ μ} {ctx : RunContext}
  {services : HarnessServices σ μ} {world routed : World σ μ}
  {decision : RouteDecision}

/-- The turn is stamped with the mode of its decision, and the flow that it runs is
the one this mode announces. -/
def HonoursMode (loop : AgentLoop σ μ) (ctx : RunContext)
    (services : HarnessServices σ μ) (world : World σ μ) : Prop :=
  ∀ decision routed,
    (route ctx services).run world.untraced = .ok (some decision) routed →
      routed.metadata.get? "harness.route.mode" =
          some (.text decision.mode.value) ∧
        (loop.target ctx services world = some OrchestratorFlow.flowName →
          decision.mode = .flow) ∧
        (loop.target ctx services world = some SingleAgentFlow.flowName →
          decision.mode = .toolLoop) ∧
        (decision.mode = .direct → loop.target ctx services world = none)

/-- A turn is stamped with the mode of its decision. -/
theorem stamped_mode
    (routes : (route ctx services).run world = .ok (some decision) routed) :
    routed.metadata.get? "harness.route.mode" =
      some (.text decision.mode.value) := by
  rcases metadata_of_route routes with
    ⟨_, absent, _⟩ | ⟨_, taken, _, _, acted, _, stamped⟩
  · cases absent
  · cases acted
    exact get?_stamps_of_route stamped List.mem_cons_self

/-- The router decides for the turn. -/
theorem run_route_iff {router : Router σ} (present : services.router = some router) :
    (∃ routed, (route ctx services).run world = .ok (some decision) routed) ↔
      ∃ env, (router ctx.request ctx).run world.env = .ok decision env := by
  unfold route
  rw [present]
  simp only [EStateM.run_bind, Turn.run_outside]
  cases decided : (router ctx.request ctx).run world.env with
  | error exc env => simp
  | ok other env =>
      constructor
      · intro routes
        obtain ⟨_, routes⟩ := routes
        cases routes
        exact ⟨env, rfl⟩
      · intro decides
        obtain ⟨_, same⟩ := decides
        cases same
        exact ⟨_, rfl⟩

/-- A turn runs the flow its target names, unless it answers directly. -/
theorem target_of_routed
    (routes :
      (route ctx services).run world.untraced = .ok (some decision) routed) :
    loop.target ctx services world =
      if decision.mode = .direct then
        none
      else
        (loop.flows.get? decision.target).map fun _ => decision.target := by
  unfold target
  rw [routes]
  by_cases direct : decision.mode = .direct
  · simp [dispatch, direct]
  · simp only [dispatch, direct, if_false]
    cases loop.flows.get? decision.target <;> rfl

/-- With both flows in the table, a turn honours its mode exactly if its decision
is coherent. -/
theorem honoursMode_iff_coherent
    (single : loop.flows.get? SingleAgentFlow.flowName ≠ none)
    (orchestrator : loop.flows.get? OrchestratorFlow.flowName ≠ none) :
    loop.HonoursMode ctx services world ↔
      ∀ decision routed,
        (route ctx services).run world.untraced = .ok (some decision) routed →
          decision.Coherent := by
  have runs :
      ∀ {decision : RouteDecision} {routed name},
        (route ctx services).run world.untraced = .ok (some decision) routed →
        loop.flows.get? name ≠ none →
          (loop.target ctx services world = some name ↔
            decision.mode ≠ .direct ∧ decision.target = name) := by
    intro decision routed name routes present
    obtain ⟨flow, found⟩ := Option.ne_none_iff_exists'.mp present
    rw [target_of_routed routes]
    by_cases direct : decision.mode = .direct
    · simp [direct]
    · simp only [direct, if_false, ne_eq, not_false_eq_true, true_and,
        Option.map_eq_some_iff]
      constructor
      · intro named
        obtain ⟨_, _, same⟩ := named
        exact same
      · intro same
        rw [same]
        exact ⟨flow, found, rfl⟩
  constructor
  · intro honours decision routed routes
    obtain ⟨_, onlyFlow, onlyLoop, _⟩ := honours decision routed routes
    by_cases direct : decision.mode = .direct
    · exact Or.inl direct
    · refine Or.inr ⟨?_, ?_⟩
      · intro named
        exact onlyFlow ((runs routes orchestrator).mpr ⟨direct, named⟩)
      · intro named
        exact onlyLoop ((runs routes single).mpr ⟨direct, named⟩)
  · intro coherent decision routed routes
    refine ⟨stamped_mode routes, ?_, ?_, ?_⟩
    · intro runsOrchestrator
      obtain ⟨indirect, named⟩ := (runs routes orchestrator).mp runsOrchestrator
      rcases coherent decision routed routes with direct | aligned
      · exact absurd direct indirect
      · exact aligned.1 named
    · intro runsSingle
      obtain ⟨indirect, named⟩ := (runs routes single).mp runsSingle
      rcases coherent decision routed routes with direct | aligned
      · exact absurd direct indirect
      · exact aligned.2 named
    · intro direct
      rw [target_of_routed routes, if_pos direct]

end AgentLoop

namespace TieredRouter

/-! ## Which decisions can disagree with themselves -/

/-- Every shipped route is coherent. -/
theorem coherent_of_shipped {name : String} {found : RouteMeta} (score : ℚ)
    (configured : (metaOf shippedRoutes).get? name = some found) :
    RouteDecision.Coherent ⟨found.mode, found.target, score, 1⟩ := by
  have lookup :
      (metaOf shippedRoutes).get? name =
        if name = "advisor_prep" then
          some ⟨.flow, OrchestratorFlow.flowName⟩
        else if name = "current_time" then
          some ⟨.toolLoop, SingleAgentFlow.flowName⟩
        else if name = "small_talk" then
          some ⟨.direct, smallTalk⟩
        else
          none := by
    unfold metaOf shippedRoutes OrderedDict.ofList
    simp only [List.map, List.foldl, OrderedDict.get?_set, OrderedDict.get?_empty]
    rfl
  rw [lookup] at configured
  by_cases advisorPrep : name = "advisor_prep"
  · rw [if_pos advisorPrep] at configured
    cases configured
    exact RouteDecision.coherent_orchestrator score 1
  · rw [if_neg advisorPrep] at configured
    by_cases currentTime : name = "current_time"
    · rw [if_pos currentTime] at configured
      cases configured
      exact RouteDecision.coherent_singleAgent score 1
    · rw [if_neg currentTime] at configured
      by_cases smallTalk : name = "small_talk"
      · rw [if_pos smallTalk] at configured
        cases configured
        exact Or.inl rfl
      · rw [if_neg smallTalk] at configured
        cases configured

/-- Where tier 1 does not decide, the answer of triage is coherent, and so is a
fallback that is used. -/
def Aligned (router : TieredRouter σ) (request : String) (ctx : RunContext)
    (before : σ) : Prop :=
  ∀ choice between,
    (router.semanticRouter request).run before = .ok choice between →
      ¬ router.Accepts ctx choice →
        (∀ triage output after,
          router.triageFor ctx = some triage →
            (triage.agent request).run between = .ok output after →
              (output.decision triage.tier).Coherent) ∧
        (choice.name = none →
          (∀ triage, router.triageFor ctx = some triage →
            ∃ exc after, (triage.agent request).run between = .error exc after) →
              router.fallback.Coherent)

/-- With the shipped routes, the decisions of a router are coherent exactly if
it is aligned. -/
theorem coherent_iff_aligned {router : TieredRouter σ} {request : String}
    {ctx : RunContext} {before : σ}
    (shipped : router.metaByName = metaOf shippedRoutes) :
    (∀ decision after,
      (router.route request ctx).run before = .ok decision after →
        decision.Coherent) ↔
      router.Aligned request ctx before := by
  constructor
  · intro coherent choice between chosen unsettled
    constructor
    · intro triage output after asked answered
      have routed := run_route_of_escalated chosen unsettled asked
      rw [run_triage, answered] at routed
      exact coherent _ after routed
    · intro unnamed undecided
      have guessed : router.bestGuess choice = .ok router.fallback := by
        simp only [bestGuess, unnamed]
      cases asked : router.triageFor ctx with
      | none =>
          have routed := run_route_of_unescalated chosen (Or.inr asked)
          rw [guessed] at routed
          exact coherent _ between routed
      | some triage =>
          obtain ⟨exc, after, raised⟩ := undecided triage asked
          have routed := run_route_of_escalated chosen unsettled asked
          rw [run_triage, raised, guessed] at routed
          exact coherent _ after routed
  · intro aligned decision after routed
    obtain ⟨choice, between, chosen, origin⟩ := route_eq_ok routed
    rcases origin with
      ⟨guessed, undecided⟩ | ⟨unsettled, triage, output, asked, answered, same⟩
    · rcases bestGuess_eq_ok guessed with
        ⟨unnamed, fallback⟩ | ⟨name, found, _, configured, same⟩
      · have unsettled : ¬ router.Accepts ctx choice := by
          intro accepted
          rw [Accepts, unnamed] at accepted
          cases accepted.1
        rw [fallback]
        exact
          (aligned choice between chosen unsettled).2 unnamed
            (undecided.resolve_left unsettled)
      · rw [same]
        rw [shipped] at configured
        exact coherent_of_shipped choice.score configured
    · rw [same]
      exact (aligned choice between chosen unsettled).1 triage output after asked answered

end TieredRouter

/-- With the shipped routes, the decided mode describes what a turn runs exactly
if triage and the fallback announce the target they name. -/
theorem dispatch_honours_mode_iff (loop : AgentLoop σ μ) (ctx : RunContext)
    (services : HarnessServices σ μ) (router : TieredRouter σ) (world : World σ μ)
    (single : loop.flows.get? SingleAgentFlow.flowName ≠ none)
    (orchestrator : loop.flows.get? OrchestratorFlow.flowName ≠ none)
    (tiered : services.router = some router.route)
    (shipped : router.metaByName = metaOf shippedRoutes) :
    loop.HonoursMode ctx services world ↔
      router.Aligned ctx.request ctx world.env := by
  rw [AgentLoop.honoursMode_iff_coherent single orchestrator,
    ← TieredRouter.coherent_iff_aligned shipped]
  constructor
  · intro coherent decision after decides
    have routes :
        ∃ routed,
          (AgentLoop.route ctx services).run world.untraced =
            .ok (some decision) routed :=
      (AgentLoop.run_route_iff tiered).mpr ⟨after, decides⟩
    obtain ⟨routed, routes⟩ := routes
    exact coherent decision routed routes
  · intro coherent decision routed routes
    obtain ⟨after, decides⟩ := (AgentLoop.run_route_iff tiered).mp ⟨routed, routes⟩
    exact coherent decision after decides

/-! ### A triage that names the other flow -/

namespace Misrouted

theorem certain_nonneg : (0 : ℚ) ≤ 1 := by decide

theorem certain_le_one : (1 : ℚ) ≤ 1 := by decide

/-- Tier 1 names nothing, and triage gives this answer. -/
def router (mode : RouteMode) (target : String) : TieredRouter Unit where
  semanticRouter _ := pure ⟨none, none⟩
  metaByName := metaOf shippedRoutes
  triage := some
    { agent := fun _ => pure ⟨mode, target, 1, certain_nonneg, certain_le_one⟩ }

def services (mode : RouteMode) (target : String) : HarnessServices Unit Unit where
  tools := {}
  memory := nullMemoryStore Unit
  budget :=
    { budget := {}, modelId := "anthropic:claude-sonnet-5", start := 0 }
  router := some (router mode target).route

def loop : AgentLoop Unit Unit := .harness Idle.host Idle.single Idle.orchestrator

end Misrouted

/-- A triage that announces the flow it names is honoured. -/
theorem flow_triage_is_honoured :
    Misrouted.loop.HonoursMode Idle.ctx
      (Misrouted.services .flow "orchestrator") Idle.world := by
  refine
    (dispatch_honours_mode_iff Misrouted.loop Idle.ctx _
      (Misrouted.router .flow "orchestrator") Idle.world ?_ ?_ rfl rfl).mpr ?_
  · simp [Misrouted.loop, AgentLoop.harness, harnessFlows, OrderedDict.ofList,
      OrderedDict.get?_set, flowName_ne]
  · simp [Misrouted.loop, AgentLoop.harness, harnessFlows, OrderedDict.ofList]
  · intro choice between chosen _
    constructor
    · intro triage output after asked answered
      cases asked
      cases answered
      exact RouteDecision.coherent_orchestrator 1 2
    · intro _ _
      exact RouteDecision.coherent_singleAgent 0 1

/-- A turn announced as a tool loop runs the orchestrator. -/
theorem tool_loop_runs_orchestrator :
    ¬ Misrouted.loop.HonoursMode Idle.ctx
      (Misrouted.services .toolLoop "orchestrator") Idle.world := by
  intro honours
  have onlyFlow := (honours _ _ rfl).2.1 rfl
  cases onlyFlow

end FableHarness
