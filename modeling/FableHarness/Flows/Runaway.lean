import Mathlib.Tactic.Linarith
import FableHarness.Flows.BudgetCeiling

/-!
# An orchestrator that outruns its budget

For every limit of a budget there are models and tools with which the
orchestrator succeeds beyond it.
-/

namespace FableHarness

open ExceptionState EventLog

/-! ## Models that spend as much as they like -/

namespace Runaway

/-- The retrieval agent searches `calls` times. -/
def search : Nat → ModelRun String
  | 0 => .answer {} "" []
  | calls + 1 => .call {} "search" [] fun _ => search calls

def flow (calls : Nat) (response : ModelResponse) : OrchestratorFlow Unit :=
  { Idle.orchestrator with
    retrievalModel := fun _ => pure (search calls)
    synthesisModel := fun _ => pure (.answer response ⟨"", []⟩ []) }

/-- Every look at the clock takes its time. -/
def host (pause : ℚ≥0) : Host Unit :=
  { Idle.host with elapse := fun env => (pause, env) }

def ctx : RunContext where
  request := "prepare the meeting"
  sessionId := "cli-session"
  ablations := { memoryOn := false, criticOn := false }

def services (tracker : BudgetTracker) : HarnessServices Unit Unit where
  tools := {}
  memory := nullMemoryStore Unit
  budget := tracker
  router := some (staticRouter .flow "orchestrator")

def world (tracker : BudgetTracker) : World Unit Unit where
  env := ()
  memory := ()
  clock := tracker.start

def searchEvents : Nat → List Interaction
  | 0 => [.modelResponded .retrieval 0 0]
  | calls + 1 =>
      .modelResponded .retrieval 0 0 :: .toolReturned .retrieval ::
        searchEvents calls

variable (tracker : BudgetTracker) (response : ModelResponse) (pause : ℚ≥0)

theorem drive_search (total calls : Nat) :
    ∀ (usage : RunUsage) (before : World Unit Unit),
      (Agent.drive .retrieval none
          ((flow total response).mcpTool (services tracker)) usage
          (search calls)).run before =
        .ok ⟨"", { usage with toolCalls := usage.toolCalls + calls }, []⟩
          { before with trace := before.trace ++ searchEvents calls } := by
  induction calls with
  | zero =>
      intro usage before
      rfl
  | succ calls inductionHypothesis =>
      intro usage before
      let called : World Unit Unit :=
        { before with
          trace :=
            before.trace ++ [.modelResponded .retrieval 0 0] ++
              [.toolReturned .retrieval] }
      have step :
          (Agent.drive .retrieval none
              ((flow total response).mcpTool (services tracker)) usage
              (search (calls + 1))).run before =
            (Agent.drive .retrieval none
              ((flow total response).mcpTool (services tracker))
              { usage with toolCalls := usage.toolCalls + 1 }
              (search calls)).run called :=
        rfl
      rw [step, inductionHypothesis]
      simp [called, searchEvents, Nat.add_assoc, Nat.add_comm 1 calls]

def retrievalPrompt (request : String) : String :=
  "Search for product and market context relevant to: " ++ request

theorem retrieval_run (calls : Nat) (grants : PermissionGrants Unit)
    (request : String) (before : World Unit Unit) :
    ((flow calls response).work (host pause) (services tracker) grants request
        .retrieval).run before =
      .ok ""
        { before with
          clock := before.clock + (pause : ℚ)
          trace :=
            before.trace ++
                [.agentStarted .retrieval (retrievalPrompt request) []] ++
              searchEvents calls ++
              [.agentEnded .retrieval (before.clock + (pause : ℚ))] } := by
  let started : World Unit Unit :=
    { before with
      trace :=
        before.trace ++ [.agentStarted .retrieval (retrievalPrompt request) []] }
  have recorded :
      (Turn.record (.agentStarted .retrieval (retrievalPrompt request) []) :
        Turn Unit Unit Unit).run before = .ok () started :=
    rfl
  have chosen :
      (Turn.outside ((flow calls response).retrievalModel (retrievalPrompt request)) :
        Turn Unit Unit (ModelRun String)).run started =
          .ok (search calls) started :=
    rfl
  have driven := drive_search tracker response calls calls {} started
  unfold retrievalPrompt at recorded chosen
  unfold OrchestratorFlow.work OrchestratorFlow.retrievalWorker
    OrchestratorFlow.runAgent Agent.run
  simp only [EStateM.run_bind, recorded, chosen, driven]
  rfl

/-- Without in-process tools their workers find nothing. -/
theorem lookup_run (calls : Nat) (grants : PermissionGrants Unit)
    (request : String) (worker : Worker) (inProcess : worker ≠ .retrieval)
    (before : World Unit Unit) :
    ∃ output,
      ((flow calls response).work (host pause) (services tracker) grants request
        worker).run before = .ok output before := by
  cases worker with
  | account => exact ⟨_, rfl⟩
  | meeting => exact ⟨_, rfl⟩
  | retrieval => exact absurd rfl inProcess

/-- The flow succeeds after `calls` searches and one response of the synthesis
model. -/
theorem flow_run (calls : Nat) (before : World Unit Unit) :
    ∃ prompt sources final,
      ((flow calls response).run (host pause) ctx.request ctx
          (services tracker)).run before =
        .ok ⟨some (.synthesis ⟨"", []⟩), true, "success", []⟩ final ∧
      final.trace =
        before.trace ++ [.agentStarted .retrieval prompt []] ++
          searchEvents calls ++
          [.agentEnded .retrieval (before.clock + (pause : ℚ)),
            .agentStarted .synthesis sources [],
            .modelResponded .synthesis response.inputTokens
              response.outputTokens,
            .agentEnded .synthesis
              (before.clock + (pause : ℚ) + (pause : ℚ))] := by
  obtain ⟨account, accountRun⟩ :=
    lookup_run tracker response pause calls {} ctx.request .account (by decide)
      before
  obtain ⟨meeting, meetingRun⟩ :=
    lookup_run tracker response pause calls {} ctx.request .meeting (by decide)
      before
  have order :
      (Turn.outside (modifyGet (flow calls response).gatherOrder) :
        Turn Unit Unit GatherOrder).run before = .ok ⟨_, .refl _⟩ before :=
    rfl
  have grants : grantsFor (services tracker).approvalGate = {} := rfl
  refine ⟨?prompt, ?sources, ?final, ?run, ?trace⟩
  case run =>
    unfold OrchestratorFlow.run OrchestratorFlow.gather
    simp only [EStateM.run_bind, order, grants, OrchestratorFlow.runWorkers,
      run_attempt, accountRun, meetingRun, retrieval_run, finalState_ok, answer_ok]
    rfl
  case trace =>
    simp only [List.append_assoc, List.cons_append, List.nil_append]
    rfl

/-! ## What the turn spends -/

theorem totalOf_searchEvents {component : RunUsage → Nat}
    (nothing : component {} = 0) (calls : Nat) :
    totalOf component (searchEvents calls) = calls * component ⟨0, 0, 1⟩ := by
  induction calls with
  | zero =>
      rw [searchEvents, totalOf_singleton, Nat.zero_mul]
      exact nothing
  | succ calls inductionHypothesis =>
      have split :
          searchEvents (calls + 1) =
            [.modelResponded .retrieval 0 0] ++
              ([.toolReturned .retrieval] ++ searchEvents calls) :=
        rfl
      have free : component (Interaction.modelResponded .retrieval 0 0).usage = 0 :=
        nothing
      rw [split, totalOf_append, totalOf_append, totalOf_singleton,
        totalOf_singleton, inductionHypothesis, free, Nat.succ_mul]
      change 0 + (component ⟨0, 0, 1⟩ + _) = _
      omega

theorem endTimes_searchEvents (calls : Nat) :
    (searchEvents calls).filterMap Interaction.endTime = [] := by
  induction calls with
  | zero => rfl
  | succ calls inductionHypothesis => exact inductionHypothesis

/-- A success that spent this much. -/
structure Succeeds (calls : Nat) (response : ModelResponse) (ended : ℚ)
    (outcome : Except TurnExc FlowResult) (trace : List Interaction) : Prop where
  succeeded : ∃ result, outcome = .ok result ∧ result.success = true
  toolCalls : totalOf RunUsage.toolCalls trace = calls
  input : totalOf RunUsage.inputTokens trace = response.inputTokens
  output : totalOf RunUsage.outputTokens trace = response.outputTokens
  ended : lastEnd trace = some ended

def loop (calls : Nat) : AgentLoop Unit Unit :=
  .harness (host pause) Idle.single (flow calls response)

theorem turn_succeeds (calls : Nat) :
    Succeeds calls response (tracker.start + (pause : ℚ) + (pause : ℚ))
      (answer
        ((loop response pause calls).turn ctx (services tracker) (world tracker)))
      (finalState
        ((loop response pause calls).turn ctx (services tracker)
          (world tracker))).trace := by
  have targeted :
      (loop response pause calls).target ctx (services tracker) (world tracker) =
        some OrchestratorFlow.flowName :=
    rfl
  obtain ⟨other, decision, env, metadata, found, routed, turnEnds⟩ :=
    AgentLoop.exists_routed targeted
  rcases AgentLoop.get?_harnessFlows found with ⟨different, _⟩ | ⟨_, same⟩
  · exact absurd different (by decide)
  · apply turnEnds
    rw [same]
    obtain ⟨prompt, sources, final, run, trace⟩ :=
      flow_run tracker response pause calls
        { (world tracker).untraced with env, metadata }
    have converted :
        (tryCatch
            ((flow calls response).run (host pause) ctx.request ctx
              (services tracker)) AgentLoop.convert).run
            { (world tracker).untraced with env, metadata } =
          .ok ⟨some (.synthesis ⟨"", []⟩), true, "success", []⟩ final := by
      rw [run_tryCatch, run]
    rw [List.append_assoc, List.append_assoc] at trace
    refine ends_of_ok converted trace ?_
    have total :
        ∀ component : RunUsage → Nat, component {} = 0 →
          totalOf component
              ([.agentStarted .retrieval prompt []] ++
                (searchEvents calls ++
                  [.agentEnded .retrieval (tracker.start + (pause : ℚ)),
                    .agentStarted .synthesis sources [],
                    .modelResponded .synthesis response.inputTokens
                      response.outputTokens,
                    .agentEnded .synthesis
                      (tracker.start + (pause : ℚ) + (pause : ℚ))])) =
            calls * component ⟨0, 0, 1⟩ +
              component ⟨response.inputTokens, response.outputTokens, 0⟩ := by
      intro component nothing
      rw [totalOf_append, totalOf_append, totalOf_searchEvents nothing]
      simp [totalOf, Interaction.usage, nothing]
    constructor
    · exact ⟨_, rfl, rfl⟩
    · exact (total _ rfl).trans (Nat.mul_one calls)
    · exact (total _ rfl).trans (by simp)
    · exact (total _ rfl).trans (by simp)
    · unfold lastEnd
      rw [List.filterMap_append, List.filterMap_append, endTimes_searchEvents]
      rfl

end Runaway

/-! ## Which budgets are ceilings -/

section Ceiling

variable {tracker : BudgetTracker}

/-- A ceiling for the orchestrator bounds whatever a runaway turn spends. -/
theorem withinBudget_of_keepsCeiling
    (keeps : KeepsCeiling tracker OrchestratorFlow.flowName) (calls : Nat)
    (response : ModelResponse) (pause : ℚ≥0) :
    ∃ trace,
      Runaway.Succeeds calls response
          (tracker.start + (pause : ℚ) + (pause : ℚ))
          (answer
            ((Runaway.loop response pause calls).turn Runaway.ctx
              (Runaway.services tracker) (Runaway.world tracker))) trace ∧
        WithinBudget tracker trace := by
  have succeeds := Runaway.turn_succeeds tracker response pause calls
  obtain ⟨result, returned, success⟩ := succeeds.succeeded
  refine ⟨_, succeeds, ?_⟩
  exact
    keeps Unit Unit (Runaway.host pause) Idle.single (Runaway.flow calls response)
      Runaway.ctx (Runaway.services tracker) (Runaway.world tracker) result rfl rfl
      le_rfl rfl returned success

theorem unexceedable_of_keepsCeiling
    (keeps : KeepsCeiling tracker OrchestratorFlow.flowName) :
    Unexceedable tracker := by
  constructor
  · cases present : tracker.budget.maxTotalTokens with
    | none => rfl
    | some limit =>
        obtain ⟨trace, succeeds, within⟩ :=
          withinBudget_of_keepsCeiling keeps 0 ⟨limit + 1, 0⟩ 0
        have bounded := within.tokens limit present
        rw [totalOf_totalTokens, succeeds.input, succeeds.output] at bounded
        change limit + 1 + 0 ≤ limit at bounded
        omega
  · cases present : tracker.budget.maxToolCalls with
    | none => rfl
    | some limit =>
        obtain ⟨trace, succeeds, within⟩ :=
          withinBudget_of_keepsCeiling keeps (limit + 1) {} 0
        have bounded := within.toolCalls limit present
        rw [succeeds.toolCalls] at bounded
        omega
  · cases present : tracker.budget.maxWallClockSeconds with
    | none => rfl
    | some limit =>
        obtain ⟨trace, succeeds, within⟩ :=
          withinBudget_of_keepsCeiling keeps 0 {} (limit.toNNRat + 1)
        have bounded := within.wallClock limit present _ succeeds.ended
        have above : limit ≤ (limit.toNNRat : ℚ) := le_max_left limit 0
        have positive : 0 ≤ (limit.toNNRat : ℚ) := NNRat.coe_nonneg _
        rw [NNRat.coe_add, NNRat.coe_one] at bounded
        linarith
  · intro limit present inputTokens outputTokens
    obtain ⟨trace, succeeds, within⟩ :=
      withinBudget_of_keepsCeiling keeps 0 ⟨inputTokens, outputTokens⟩ 0
    have bounded := within.cost limit present
    rw [succeeds.input, succeeds.output] at bounded
    exact bounded

/-- The budget is a ceiling for the single-agent flow, and for the orchestrator
exactly if nothing exceeds it. -/
theorem budget_ceiling_iff (tracker : BudgetTracker) (target : String)
    (known :
      target = SingleAgentFlow.flowName ∨ target = OrchestratorFlow.flowName) :
    KeepsCeiling tracker target ↔
      target = SingleAgentFlow.flowName ∨ Unexceedable tracker := by
  constructor
  · intro keeps
    rcases known with single | orchestrator
    · exact Or.inl single
    · rw [orchestrator] at keeps
      exact Or.inr (unexceedable_of_keepsCeiling keeps)
  · intro either
    rcases either with single | unexceedable
    · rw [single]
      exact keepsCeiling_single tracker
    · intro _ _ _ _ _ _ _ _ _ _ _ _ _ _ _
      exact withinBudget_of_unexceedable unexceedable _

end Ceiling

/-! ## A budget of ten tokens -/

/-- A budget of ten tokens. -/
def tenTokens : BudgetTracker where
  budget := { maxTotalTokens := some 10 }
  modelId := "model"
  start := 0

def overspent : EStateM.Result TurnExc (World Unit Unit) FlowResult :=
  (Runaway.loop ⟨11, 0⟩ 0 0).turn Runaway.ctx (Runaway.services tenTokens)
    (Runaway.world tenTokens)

/-- The orchestrator succeeds on eleven of ten tokens. -/
theorem orchestrator_succeeds_over_budget :
    (∃ result, answer overspent = .ok result ∧ result.success = true) ∧
      totalOf RunUsage.totalTokens (finalState overspent).trace = 11 ∧
      ¬ WithinBudget tenTokens (finalState overspent).trace := by
  have succeeds := Runaway.turn_succeeds tenTokens ⟨11, 0⟩ 0 0
  have spent : totalOf RunUsage.totalTokens (finalState overspent).trace = 11 := by
    rw [totalOf_totalTokens]
    exact congrArg₂ (· + ·) succeeds.input succeeds.output
  refine ⟨succeeds.succeeded, spent, ?_⟩
  intro within
  have bounded := within.tokens 10 rfl
  omega

/-- The same budget is a ceiling for the single agent. -/
theorem single_agent_keeps_ten_tokens :
    KeepsCeiling tenTokens "single_agent" :=
  (budget_ceiling_iff tenTokens "single_agent" (Or.inl rfl)).mpr (Or.inl rfl)

end FableHarness
