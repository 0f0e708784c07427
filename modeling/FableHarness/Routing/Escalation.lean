import FableHarness.Routing.TieredRouter

/-!
# How far a request escalates

Where neither tier decides, the router returns the best guess of tier 1 however
low its score is, and the cap of a run lets it escalate to a triage agent of
whatever tier.
-/

namespace FableHarness

open ExceptionState

variable {σ : Type}

namespace TieredRouter

/-! ## Requests that nothing decides -/

/-- The triage agent gives no decision: it is absent, ablated off, or raises. -/
def Undecided (router : TieredRouter σ) (request : String) (ctx : RunContext)
    (between : σ) : Prop :=
  router.triage = none ∨ ctx.ablations.routerTier < 2 ∨
    ∃ triage exc after,
      router.triage = some triage ∧
        (triage.agent request).run between = .error exc after

/-- Where tier 1 is not confident and triage does not decide, the request is not
sent to a flow. -/
def FailsNarrow (router : TieredRouter σ) (request : String) (ctx : RunContext)
    (before : σ) : Prop :=
  ∀ choice between decision after,
    (router.semanticRouter request).run before = .ok choice between →
      ¬ router.Confident choice → router.Undecided request ctx between →
        (router.route request ctx).run before = .ok decision after →
          decision.mode ≠ .flow

/-- Tier 1 names a route to a flow. -/
def NamesFlow (router : TieredRouter σ) (choice : RouteChoice) : Prop :=
  ∃ name found,
    choice.name = some name ∧ router.metaByName.get? name = some found ∧
      found.mode = .flow

section

variable {router : TieredRouter σ} {request : String} {ctx : RunContext}
  {choice : RouteChoice} {before between : σ}

/-- Where triage does not decide, the best guess of tier 1 stands, accepted or
not. -/
theorem run_route_of_undecided
    (chosen : (router.semanticRouter request).run before = .ok choice between)
    (undecided : router.Undecided request ctx between) :
    ∃ after,
      (router.route request ctx).run before =
        resultOf (router.bestGuess choice) after := by
  by_cases settled : router.Accepts ctx choice ∨ router.triageFor ctx = none
  · exact ⟨between, run_route_of_unescalated chosen settled⟩
  · have unsettled : ¬ router.Accepts ctx choice :=
      fun accepted => settled (Or.inl accepted)
    obtain ⟨triage, asked⟩ :=
      Option.ne_none_iff_exists'.mp fun unasked => settled (Or.inr unasked)
    obtain ⟨present, allowed⟩ := triageFor_eq_some.mp asked
    have raises :
        ∃ exc after, (triage.agent request).run between = .error exc after := by
      rcases undecided with absent | ablated | ⟨other, exc, after, same, raised⟩
      · rw [absent] at present
        cases present
      · omega
      · cases present.symm.trans same
        exact ⟨exc, after, raised⟩
    obtain ⟨exc, after, raised⟩ := raises
    refine ⟨after, ?_⟩
    rw [run_route_of_escalated chosen unsettled asked, run_triage, raised]

/-- The best guess is a flow exactly if tier 1 names one. -/
theorem bestGuess_mode_iff (safeFallback : router.fallback.mode ≠ .flow)
    {decision : RouteDecision} (guessed : router.bestGuess choice = .ok decision) :
    decision.mode = .flow ↔ router.NamesFlow choice := by
  rcases bestGuess_eq_ok guessed with
    ⟨unnamed, fallback⟩ | ⟨name, found, named, configured, same⟩
  · have notFlow : decision.mode ≠ .flow := by
      rw [fallback]
      exact safeFallback
    apply iff_of_false notFlow
    intro names
    obtain ⟨name, found, named, _⟩ := names
    rw [unnamed] at named
    cases named
  · constructor
    · intro isFlow
      rw [same] at isFlow
      exact ⟨name, found, named, configured, isFlow⟩
    · intro names
      obtain ⟨other, found', otherNamed, otherConfigured, isFlow⟩ := names
      cases named.symm.trans otherNamed
      cases configured.symm.trans otherConfigured
      rw [same]
      exact isFlow

end

/-- A router with a safe fallback fails toward the tool loop exactly as long as
tier 1 does not name a flow. -/
theorem fails_narrow_iff (router : TieredRouter σ) (request : String)
    (ctx : RunContext) (before : σ)
    (safeFallback : router.fallback.mode ≠ .flow) :
    router.FailsNarrow request ctx before ↔
      ∀ choice between,
        (router.semanticRouter request).run before = .ok choice between →
          ¬ router.Confident choice → router.Undecided request ctx between →
            ¬ router.NamesFlow choice := by
  constructor
  · intro narrow choice between chosen uncertain undecided names
    obtain ⟨after, routes⟩ := run_route_of_undecided chosen undecided
    obtain ⟨name, found, named, configured, isFlow⟩ := names
    have guessed :
        router.bestGuess choice =
          .ok ⟨found.mode, found.target, choice.score, 1⟩ := by
      simp only [bestGuess, named, configured]
    rw [guessed] at routes
    exact narrow choice between _ after chosen uncertain undecided routes isFlow
  · intro unnamed choice between decision last chosen uncertain undecided routed
    obtain ⟨after, routes⟩ := run_route_of_undecided chosen undecided
    rw [routes] at routed
    cases guessed : router.bestGuess choice with
    | error exc =>
        rw [guessed] at routed
        cases routed
    | ok guess =>
        rw [guessed] at routed
        cases routed
        rw [Ne, bestGuess_mode_iff safeFallback guessed]
        exact unnamed choice between chosen uncertain undecided

/-! ### Tier 1 without triage -/

/-- Tier 1 always gives this answer. -/
def answering (choice : RouteChoice) (triage : Option (LLMTriage Unit)) :
    TieredRouter Unit where
  semanticRouter _ := pure choice
  metaByName := metaOf shippedRoutes
  triage := triage

def cappedCtx (cap : Int) : RunContext where
  request := "book me a table"
  sessionId := "cli-session"
  ablations := { routerTier := cap }

/-- Nothing matches, and the fallback keeps the request out of the flows. -/
theorem unmatched_request_fails_narrow :
    (answering ⟨none, none⟩ none).FailsNarrow "book me a table" (cappedCtx 3)
      () := by
  refine (fails_narrow_iff _ _ _ _ (by decide)).mpr ?_
  intro choice between chosen _ _ names
  cases chosen
  obtain ⟨name, found, named, _⟩ := names
  cases named

/-- A similarity of 0.05 is enough to send a request to the orchestrator. -/
theorem weak_match_starts_flow :
    ¬ (answering ⟨some "advisor_prep", some (5 / 100)⟩ none).FailsNarrow
      "book me a table" (cappedCtx 3) () := by
  let choice : RouteChoice := ⟨some "advisor_prep", some (5 / 100)⟩
  intro narrow
  have uncertain : ¬ (answering choice none).Confident choice := by
    decide +kernel
  have routed :
      ((answering choice none).route "book me a table" (cappedCtx 3)).run () =
        resultOf ((answering choice none).bestGuess choice) () :=
    run_route_of_unescalated rfl (Or.inr rfl)
  exact narrow choice () _ () rfl uncertain (Or.inl rfl) routed rfl

/-! ## The cap -/

/-- The decision is of a tier within the cap, and so is a triage agent that is
invoked. -/
def WithinCap (router : TieredRouter σ) (request : String) (ctx : RunContext)
    (before : σ) : Prop :=
  (∀ decision after,
      (router.route request ctx).run before = .ok decision after →
        decision.tier ≤ ctx.ablations.routerTier) ∧
    ∀ outcome after triage,
      (router.routeObserved request ctx).run before = .ok (true, outcome) after →
        router.triage = some triage → triage.tier ≤ ctx.ablations.routerTier

/-- A run stays within its cap exactly if no triage agent above the cap is left
to decide. -/
theorem escalation_within_cap_iff (router : TieredRouter σ) (request : String)
    (ctx : RunContext) (before : σ) (capped : 1 ≤ ctx.ablations.routerTier)
    (lowFallback : router.fallback.tier ≤ 1) :
    router.WithinCap request ctx before ↔
      ∀ choice between triage,
        (router.semanticRouter request).run before = .ok choice between →
          ¬ router.Accepts ctx choice → router.triageFor ctx = some triage →
            triage.tier ≤ ctx.ablations.routerTier := by
  constructor
  · intro within choice between triage chosen unsettled asked
    obtain ⟨invoked, outcome, after, observed, _⟩ :=
      run_routeObserved router request ctx before
    have isInvoked : invoked = true :=
      (invoked_iff observed).mpr
        ⟨choice, between, triage, chosen, unsettled, asked⟩
    rw [isInvoked] at observed
    exact within.2 outcome after triage observed (triageFor_eq_some.mp asked).1
  · intro lowTriage
    constructor
    · intro decision after routed
      obtain ⟨choice, between, chosen, origin⟩ := route_eq_ok routed
      rcases origin with
        ⟨guessed, _⟩ | ⟨unsettled, triage, output, asked, _, same⟩
      · have atMostOne : decision.tier ≤ 1 := by
          rcases bestGuess_eq_ok guessed with
            ⟨_, fallback⟩ | ⟨name, found, _, _, same⟩
          · rw [fallback]
            exact lowFallback
          · rw [same]
        omega
      · rw [same]
        exact lowTriage choice between triage chosen unsettled asked
    · intro outcome after triage observed present
      obtain ⟨choice, between, other, chosen, unsettled, asked⟩ :=
        (invoked_iff observed).mp rfl
      have same : other = triage :=
        Option.some.inj ((triageFor_eq_some.mp asked).1.symm.trans present)
      rw [← same]
      exact lowTriage choice between other chosen unsettled asked

/-! ### A triage agent above the cap -/

def triageOfTier (tier : Int) : LLMTriage Unit where
  tier := tier
  agent _ := pure ⟨.toolLoop, "single_agent", 1, by decide, by decide⟩

/-- A tier-2 agent is within a cap of 2. -/
theorem second_tier_within_cap :
    (answering ⟨none, none⟩ (some (triageOfTier 2))).WithinCap "book me a table"
      (cappedCtx 2) () := by
  refine (escalation_within_cap_iff _ _ _ _ (by decide) (by decide)).mpr ?_
  intro choice between triage _ _ asked
  cases asked
  exact le_refl _

/-- A tier-3 agent is not, and it is asked all the same. -/
theorem third_tier_above_cap :
    ¬ (answering ⟨none, none⟩ (some (triageOfTier 3))).WithinCap "book me a table"
      (cappedCtx 2) () := by
  intro within
  have low := within.1 _ () rfl
  exact absurd low (by decide)

end TieredRouter

end FableHarness
