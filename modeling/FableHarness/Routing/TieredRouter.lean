import FableHarness.Library.ExceptionState
import FableHarness.Routing.Router

/-!
# The tiered router

Tier 1 is the semantic router, which names a configured route and scores it.
Where it is not confident enough, and the cap of the run allows it, the triage
agent decides.
-/

namespace FableHarness

open ExceptionState

variable {σ : Type}

/-! ## Tier 1 -/

/-- What `SemanticRouter` returns. -/
structure RouteChoice where
  name : Option String
  similarityScore : Option ℚ

/-- `choice.similarity_score or 0.0` -/
def RouteChoice.score (choice : RouteChoice) : ℚ :=
  choice.similarityScore.getD 0

structure RouteMeta where
  mode : RouteMode
  target : String

/-- An entry of `routes.yaml`; the utterances are for the semantic router. -/
structure RouteConfig where
  name : String
  mode : RouteMode
  target : String

/-- `self._meta` -/
def metaOf (routesConfig : List RouteConfig) : OrderedDict String RouteMeta :=
  .ofList (routesConfig.map fun route => (route.name, ⟨route.mode, route.target⟩))

def smallTalk : String :=
  "Hi! I'm the fable-harness demo agent — ask me something and " ++
    "I'll route it to a tool-using flow."

/-- The routes of `routes.yaml`. -/
def shippedRoutes : List RouteConfig := [
  { name := "small_talk", mode := .direct, target := smallTalk },
  { name := "current_time", mode := .toolLoop, target := "single_agent" },
  { name := "advisor_prep", mode := .flow, target := "orchestrator" }]

/-! ## Triage -/

/-- A value that passed the schema of the triage agent. -/
structure TriageOutput where
  mode : RouteMode
  target : String
  confidence : ℚ
  confidence_nonneg : 0 ≤ confidence
  confidence_le_one : confidence ≤ 1

structure LLMTriage (σ : Type) where
  tier : Int := 2
  /-- `agent.run` -/
  agent : String → Py σ TriageOutput

def TriageOutput.decision (output : TriageOutput) (tier : Int) : RouteDecision :=
  ⟨output.mode, output.target, output.confidence, tier⟩

def LLMTriage.route (triage : LLMTriage σ) (request : String) :
    Py σ RouteDecision := do
  let output ← triage.agent request
  return output.decision triage.tier

/-! ## The router -/

def defaultFallback : RouteDecision := ⟨.toolLoop, "single_agent", 0, 1⟩

structure TieredRouter (σ : Type) where
  semanticRouter : String → Py σ RouteChoice
  metaByName : OrderedDict String RouteMeta
  triage : Option (LLMTriage σ) := none
  confidenceThreshold : ℚ := 35 / 100
  fallback : RouteDecision := defaultFallback

namespace TieredRouter

/-- The score reaches the threshold. -/
def Confident (router : TieredRouter σ) (choice : RouteChoice) : Prop :=
  choice.name.isSome ∧ router.confidenceThreshold ≤ choice.score

instance (router : TieredRouter σ) (choice : RouteChoice) :
    Decidable (router.Confident choice) :=
  inferInstanceAs (Decidable (_ ∧ _))

/-- The first `if`: tier 1 decides. -/
def Accepts (router : TieredRouter σ) (ctx : RunContext) (choice : RouteChoice) :
    Prop :=
  choice.name.isSome ∧
    (router.confidenceThreshold ≤ choice.score ∨ ctx.ablations.routerTier < 2)

instance (router : TieredRouter σ) (ctx : RunContext) (choice : RouteChoice) :
    Decidable (router.Accepts ctx choice) :=
  inferInstanceAs (Decidable (_ ∧ (_ ∨ _)))

/-- The second `if`: the triage agent is asked. -/
def triageFor (router : TieredRouter σ) (ctx : RunContext) :
    Option (LLMTriage σ) :=
  if 2 ≤ ctx.ablations.routerTier then router.triage else none

/-- The decision tier 1 suggests; the fallback if it names no route. -/
def bestGuess (router : TieredRouter σ) (choice : RouteChoice) :
    Except PyExc RouteDecision :=
  match choice.name with
  | none => .ok router.fallback
  | some name =>
      match router.metaByName.get? name with
      | some found => .ok ⟨found.mode, found.target, choice.score, 1⟩
      | none => .error (.other "KeyError" ("'" ++ name ++ "'"))

def route (router : TieredRouter σ) : Router σ :=
  fun request ctx => do
    let choice ← router.semanticRouter request
    if router.Accepts ctx choice then
      MonadExcept.ofExcept (router.bestGuess choice)
    else
      match router.triageFor ctx with
      | none => MonadExcept.ofExcept (router.bestGuess choice)
      | some triage =>
          match ← attempt (triage.route request) with
          | .ok decision => return decision
          | .error (_ : PyExc) => MonadExcept.ofExcept (router.bestGuess choice)

/-- `route` together with whether the triage agent was invoked. -/
def routeObserved (router : TieredRouter σ) (request : String) (ctx : RunContext) :
    Py σ (Bool × Except PyExc RouteDecision) := do
  match ← attempt (router.semanticRouter request) with
  | .error exc => return (false, .error exc)
  | .ok choice =>
      if router.Accepts ctx choice then
        return (false, router.bestGuess choice)
      else
        match router.triageFor ctx with
        | none => return (false, router.bestGuess choice)
        | some triage =>
            match ← attempt (triage.route request) with
            | .ok decision => return (true, .ok decision)
            | .error (_ : PyExc) => return (true, router.bestGuess choice)

/-! ## What a run of the router does -/

variable {router : TieredRouter σ} {request : String} {ctx : RunContext}
  {choice : RouteChoice} {triage : LLMTriage σ} {before between : σ}

/-- Without triage the best guess of tier 1 stands. -/
theorem run_route_of_unescalated
    (chosen : (router.semanticRouter request).run before = .ok choice between)
    (settled : router.Accepts ctx choice ∨ router.triageFor ctx = none) :
    (router.route request ctx).run before =
      resultOf (router.bestGuess choice) between := by
  unfold route
  rw [EStateM.run_bind, chosen]
  by_cases accepted : router.Accepts ctx choice
  · simp only [accepted, if_true, run_ofExcept]
  · have unasked : router.triageFor ctx = none :=
      settled.resolve_left accepted
    simp only [accepted, if_false, unasked, run_ofExcept]

/-- A triage that returns decides, and one that raises changes nothing. -/
theorem run_route_of_escalated
    (chosen : (router.semanticRouter request).run before = .ok choice between)
    (unsettled : ¬ router.Accepts ctx choice)
    (asked : router.triageFor ctx = some triage) :
    (router.route request ctx).run before =
      match (triage.route request).run between with
      | .ok decision after => .ok decision after
      | .error _ after => resultOf (router.bestGuess choice) after := by
  unfold route
  rw [EStateM.run_bind, chosen]
  simp only [unsettled, if_false, asked, EStateM.run_bind, run_attempt]
  cases (triage.route request).run between with
  | ok decision after => rfl
  | error raised after => exact run_ofExcept (router.bestGuess choice) after

theorem run_route_of_raised {exc : PyExc}
    (raised : (router.semanticRouter request).run before = .error exc between) :
    (router.route request ctx).run before = .error exc between := by
  unfold route
  rw [EStateM.run_bind, raised]

theorem run_triage (triage : LLMTriage σ) (request : String) (before : σ) :
    (triage.route request).run before =
      match (triage.agent request).run before with
      | .ok output after => .ok (output.decision triage.tier) after
      | .error exc after => .error exc after := by
  unfold LLMTriage.route
  rw [EStateM.run_bind]
  cases (triage.agent request).run before <;> rfl

theorem triageFor_eq_some :
    router.triageFor ctx = some triage ↔
      router.triage = some triage ∧ 2 ≤ ctx.ablations.routerTier := by
  unfold triageFor
  by_cases allowed : 2 ≤ ctx.ablations.routerTier
  · simp [allowed]
  · simp [allowed]

/-- The best guess is the fallback or a configured route at tier 1. -/
theorem bestGuess_eq_ok {decision : RouteDecision}
    (guessed : router.bestGuess choice = .ok decision) :
    choice.name = none ∧ decision = router.fallback ∨
      ∃ name found,
        choice.name = some name ∧ router.metaByName.get? name = some found ∧
          decision = ⟨found.mode, found.target, choice.score, 1⟩ := by
  unfold bestGuess at guessed
  cases named : choice.name with
  | none =>
      simp only [named, Except.ok.injEq] at guessed
      exact Or.inl ⟨rfl, guessed.symm⟩
  | some name =>
      cases configured : router.metaByName.get? name with
      | none =>
          simp only [named, configured] at guessed
          cases guessed
      | some found =>
          simp only [named, configured, Except.ok.injEq] at guessed
          exact Or.inr ⟨name, found, rfl, configured, guessed.symm⟩

/-- How far a request comes: tier 1 raises, or its best guess stands, or a
triage agent is asked. -/
inductive Escalates (router : TieredRouter σ) (request : String) (ctx : RunContext)
    (before : σ) : Prop where
  | raised (exc : PyExc) (between : σ)
      (raised : (router.semanticRouter request).run before = .error exc between)
  | settled (choice : RouteChoice) (between : σ)
      (chosen : (router.semanticRouter request).run before = .ok choice between)
      (settled : router.Accepts ctx choice ∨ router.triageFor ctx = none)
  | escalated (choice : RouteChoice) (between : σ) (triage : LLMTriage σ)
      (chosen : (router.semanticRouter request).run before = .ok choice between)
      (unsettled : ¬ router.Accepts ctx choice)
      (asked : router.triageFor ctx = some triage)

theorem escalates (router : TieredRouter σ) (request : String) (ctx : RunContext)
    (before : σ) : router.Escalates request ctx before := by
  cases chosen : (router.semanticRouter request).run before with
  | error exc between => exact .raised exc between chosen
  | ok choice between =>
      by_cases accepted : router.Accepts ctx choice
      · exact .settled choice between chosen (Or.inl accepted)
      · cases asked : router.triageFor ctx with
        | none => exact .settled choice between chosen (Or.inr asked)
        | some triage => exact .escalated choice between triage chosen accepted asked

/-- Where a decision of the router comes from. -/
theorem route_eq_ok {decision : RouteDecision} {after : σ}
    (routed : (router.route request ctx).run before = .ok decision after) :
    ∃ choice between,
      (router.semanticRouter request).run before = .ok choice between ∧
        (router.bestGuess choice = .ok decision ∧
            (router.Accepts ctx choice ∨
              ∀ triage, router.triageFor ctx = some triage →
                ∃ exc last,
                  (triage.agent request).run between = .error exc last) ∨
          ¬ router.Accepts ctx choice ∧
            ∃ triage output,
              router.triageFor ctx = some triage ∧
                (triage.agent request).run between = .ok output after ∧
                decision = output.decision triage.tier) := by
  have guessStands :
      ∀ {choice : RouteChoice} {last : σ},
        resultOf (router.bestGuess choice) last = .ok decision after →
          router.bestGuess choice = .ok decision := by
    intro choice last same
    cases guessed : router.bestGuess choice with
    | error exc =>
        rw [guessed] at same
        cases same
    | ok guess =>
        rw [guessed] at same
        cases same
        rfl
  cases router.escalates request ctx before with
  | raised exc between raised =>
      rw [run_route_of_raised raised] at routed
      cases routed
  | settled choice between chosen settled =>
      rw [run_route_of_unescalated chosen settled] at routed
      refine
        ⟨choice, between, chosen,
          Or.inl ⟨guessStands routed, settled.imp_right ?_⟩⟩
      intro unasked triage asked
      rw [unasked] at asked
      cases asked
  | escalated choice between triage chosen unsettled asked =>
      rw [run_route_of_escalated chosen unsettled asked, run_triage] at routed
      refine ⟨choice, between, chosen, ?_⟩
      cases answered : (triage.agent request).run between with
      | ok output last =>
          rw [answered] at routed
          cases routed
          exact Or.inr ⟨unsettled, triage, output, asked, answered, rfl⟩
      | error exc last =>
          rw [answered] at routed
          refine Or.inl ⟨guessStands routed, Or.inr ?_⟩
          intro other otherAsked
          cases asked.symm.trans otherAsked
          exact ⟨exc, last, answered⟩

/-! ## What is observed of it -/

theorem observed_of_raised {exc : PyExc}
    (raised : (router.semanticRouter request).run before = .error exc between) :
    (router.routeObserved request ctx).run before =
      .ok (false, .error exc) between := by
  unfold routeObserved
  rw [EStateM.run_bind, run_attempt, raised]
  rfl

theorem observed_of_unescalated
    (chosen : (router.semanticRouter request).run before = .ok choice between)
    (settled : router.Accepts ctx choice ∨ router.triageFor ctx = none) :
    (router.routeObserved request ctx).run before =
      .ok (false, router.bestGuess choice) between := by
  unfold routeObserved
  rw [EStateM.run_bind, run_attempt, chosen]
  simp only [answer_ok, finalState_ok]
  by_cases accepted : router.Accepts ctx choice
  · simp only [accepted, if_true]
    rfl
  · have unasked : router.triageFor ctx = none :=
      settled.resolve_left accepted
    simp only [accepted, if_false, unasked]
    rfl

theorem observed_of_escalated
    (chosen : (router.semanticRouter request).run before = .ok choice between)
    (unsettled : ¬ router.Accepts ctx choice)
    (asked : router.triageFor ctx = some triage) :
    ∃ outcome after,
      (router.routeObserved request ctx).run before = .ok (true, outcome) after ∧
        (router.route request ctx).run before = resultOf outcome after := by
  have escalated := run_route_of_escalated chosen unsettled asked
  unfold routeObserved
  rw [EStateM.run_bind, run_attempt, chosen]
  simp only [answer_ok, finalState_ok, unsettled, if_false, asked,
    EStateM.run_bind, run_attempt]
  cases answered : (triage.route request).run between with
  | ok decision after =>
      rw [answered] at escalated
      exact ⟨_, _, rfl, escalated⟩
  | error exc after =>
      rw [answered] at escalated
      exact ⟨_, _, rfl, escalated⟩

/-- The observation does not change what the caller gets. -/
theorem run_routeObserved (router : TieredRouter σ) (request : String)
    (ctx : RunContext) (before : σ) :
    ∃ invoked outcome after,
      (router.routeObserved request ctx).run before =
          .ok (invoked, outcome) after ∧
        (router.route request ctx).run before = resultOf outcome after := by
  cases router.escalates request ctx before with
  | raised exc between raised =>
      exact ⟨_, _, _, observed_of_raised raised, run_route_of_raised raised⟩
  | settled choice between chosen settled =>
      exact
        ⟨_, _, _, observed_of_unescalated chosen settled,
          run_route_of_unescalated chosen settled⟩
  | escalated choice between triage chosen unsettled asked =>
      exact ⟨true, observed_of_escalated chosen unsettled asked⟩

/-- The triage agent is invoked exactly if it is asked. -/
theorem invoked_iff {outcome : Except PyExc RouteDecision} {invoked : Bool}
    {after : σ}
    (observed :
      (router.routeObserved request ctx).run before = .ok (invoked, outcome) after) :
    invoked = true ↔
      ∃ choice between triage,
        (router.semanticRouter request).run before = .ok choice between ∧
          ¬ router.Accepts ctx choice ∧ router.triageFor ctx = some triage := by
  cases router.escalates request ctx before with
  | raised exc between raised =>
      cases (observed_of_raised raised).symm.trans observed
      simp [raised]
  | settled choice between chosen settled =>
      cases (observed_of_unescalated chosen settled).symm.trans observed
      constructor
      · intro invoked
        cases invoked
      · intro asks
        obtain ⟨other, state, triage, otherChosen, unsettled, asked⟩ := asks
        cases chosen.symm.trans otherChosen
        rw [settled.resolve_left unsettled] at asked
        cases asked
  | escalated choice between triage chosen unsettled asked =>
      obtain ⟨_, _, invokes, _⟩ := observed_of_escalated chosen unsettled asked
      cases invokes.symm.trans observed
      exact iff_of_true rfl ⟨choice, between, triage, chosen, unsettled, asked⟩

end TieredRouter

end FableHarness
