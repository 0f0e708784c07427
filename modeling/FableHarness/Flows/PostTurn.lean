import FableHarness.Flows.FanOut

/-!
# The step after the answer

Both flows have their answer before they extract and remember what the turn
said, but they return it only afterwards, from the same `run`.
-/

namespace FableHarness

open ExceptionState EventLog

variable {σ μ : Type}

/-- Extract facts, if the turn extracts any, and remember those that were
found. -/
def rememberFacts (services : HarnessServices σ μ) (ctx : RunContext) :
    Option (Turn σ μ (List MemoryItem)) → Turn σ μ Unit
  | none => pure ()
  | some extract => do
      let facts ← extract
      if facts ≠ [] then
        Turn.remember services facts ctx.userScope

/-- What is left of a run once its answer is there. -/
def finish (services : HarnessServices σ μ) (ctx : RunContext)
    (extraction : Option (Turn σ μ (List MemoryItem))) (result : FlowResult) :
    Turn σ μ FlowResult := do
  rememberFacts services ctx extraction
  return result

/-! ## The answers of the two flows -/

namespace SingleAgentFlow

variable (host : Host σ) (flow : SingleAgentFlow σ) (request : String)
  (ctx : RunContext) (services : HarnessServices σ μ)

/-- `run` up to its answer. -/
def respond : Turn σ μ (AgentResult String) := do
  modify resetCounters
  let memory ← Turn.recallContext services ctx request
  let result ←
    tryCatch
      (Agent.run host .singleAgent (some services.budget.usageLimits) flow.model
        (tool host services (grantsFor services.approvalGate))
        (prompt request memory) memory)
      convertUsageLimit
  settleBudget host services result.usage
  return result

def answered (result : AgentResult String) : FlowResult where
  output := some (.text result.output)
  success := true
  stopReason := "success"
  transcript := result.messages

/-- The extraction that follows an answer. -/
def extraction (output : String) : Option (Turn σ μ (List MemoryItem)) :=
  if ctx.ablations.memoryOn && output != "" then
    some (turnFacts host flow request output ctx.userScope)
  else
    none

theorem rememberTurn_eq (output : String) :
    rememberTurn host flow ctx services request output =
      rememberFacts services ctx (extraction host flow request ctx output) := by
  unfold rememberTurn extraction
  by_cases wanted : (ctx.ablations.memoryOn && output != "") = true
  · simp only [wanted, if_true, rememberFacts]
  · simp only [wanted, rememberFacts]
    rfl

theorem run_eq_respond :
    flow.run host request ctx services =
      respond host flow request ctx services >>= fun result =>
        finish services ctx (extraction host flow request ctx result.output)
          (answered result) := by
  unfold run respond finish answered
  simp only [bind_assoc, pure_bind, rememberTurn_eq]

end SingleAgentFlow

namespace OrchestratorFlow

variable (host : Host σ) (flow : OrchestratorFlow σ) (request : String)
  (ctx : RunContext) (services : HarnessServices σ μ)

/-- `run` up to its answer. -/
def respond : Turn σ μ SynthesisOutput := do
  let gathered ← gather flow (workers host flow request services)
  synthesize host flow request ctx services gathered

/-- The extraction that follows an answer. -/
def extraction (summary : String) : Option (Turn σ μ (List MemoryItem)) :=
  if ctx.ablations.memoryOn then
    flow.factExtractor.map fun extractor =>
      extractor.extract host request summary flowName
  else
    none

theorem rememberTurn_eq (summary : String) :
    rememberTurn host flow ctx services request summary =
      rememberFacts services ctx (extraction host flow request ctx summary) := by
  unfold rememberTurn extraction
  cases ctx.ablations.memoryOn with
  | false => rfl
  | true =>
      cases flow.factExtractor with
      | none => rfl
      | some extractor => rfl

theorem run_eq_respond :
    flow.run host request ctx services =
      respond host flow request ctx services >>= fun synthesis =>
        finish services ctx (extraction host flow request ctx synthesis.summary)
          (succeeded synthesis) := by
  rw [run_eq]
  unfold respond conclude finish
  simp only [bind_assoc, rememberTurn_eq]

end OrchestratorFlow

/-! ## Answers that survive -/

/-- Neither the extraction of the turn nor the memory write that follows it
raises. -/
def PostTurnReturns (services : HarnessServices σ μ) (ctx : RunContext)
    (extraction : Option (Turn σ μ (List MemoryItem))) (settled : World σ μ) :
    Prop :=
  ∀ extract, extraction = some extract →
    ∃ facts after,
      extract.run settled = .ok facts after ∧
        (facts ≠ [] →
          ∃ memory,
            (services.memory.remember facts ctx.userScope).run after.memory =
              .ok () memory)

theorem rememberFacts_returns_iff {services : HarnessServices σ μ}
    {ctx : RunContext} {extraction : Option (Turn σ μ (List MemoryItem))}
    {settled : World σ μ} :
    (∃ after,
      (rememberFacts services ctx extraction).run settled = .ok () after) ↔
      PostTurnReturns services ctx extraction settled := by
  cases extraction with
  | none =>
      constructor
      · intro _ extract absent
        cases absent
      · exact fun _ => ⟨settled, rfl⟩
  | some extract =>
      simp only [PostTurnReturns, rememberFacts, Option.some.injEq,
        forall_eq', run_bind_eq_ok]
      constructor
      · rintro ⟨after, facts, extracted, ran, stored⟩
        refine ⟨facts, extracted, ran, ?_⟩
        intro found
        rw [if_pos found, Turn.run_remember] at stored
        cases written :
            (services.memory.remember facts ctx.userScope).run
              extracted.memory with
        | ok done memory => exact ⟨memory, rfl⟩
        | error exc memory =>
            rw [written] at stored
            cases stored
      · rintro ⟨facts, extracted, ran, writes⟩
        by_cases found : facts = []
        · exact ⟨extracted, facts, extracted, ran, by simp [found]⟩
        · obtain ⟨memory, written⟩ := writes found
          have stored := Turn.run_remember services facts ctx.userScope extracted
          rw [written] at stored
          refine ⟨_, facts, extracted, ran, Eq.trans ?_ stored⟩
          rw [if_pos found]

theorem finish_returns_iff {services : HarnessServices σ μ} {ctx : RunContext}
    {extraction : Option (Turn σ μ (List MemoryItem))} {result : FlowResult}
    {settled : World σ μ} :
    (∃ after,
      (finish services ctx extraction result).run settled = .ok result after) ↔
      PostTurnReturns services ctx extraction settled := by
  rw [← rememberFacts_returns_iff]
  unfold finish
  simp only [run_bind_eq_ok]
  constructor
  · rintro ⟨after, _, stored, remembered, _⟩
    exact ⟨stored, remembered⟩
  · rintro ⟨stored, remembered⟩
    exact ⟨stored, (), stored, remembered, rfl⟩

/-- What a flow of the harness has answered, the extraction it goes on to, and
the world at that moment. -/
inductive Answers (host : Host σ) (single : SingleAgentFlow σ)
    (orchestrator : OrchestratorFlow σ) (ctx : RunContext)
    (services : HarnessServices σ μ) (started : World σ μ) :
    String → FlowResult → Option (Turn σ μ (List MemoryItem)) → World σ μ →
      Prop where
  | single (result : AgentResult String) (settled : World σ μ)
      (responds :
        (single.respond host ctx.request ctx services).run started =
          .ok result settled) :
      Answers host single orchestrator ctx services started
        SingleAgentFlow.flowName (SingleAgentFlow.answered result)
        (single.extraction host ctx.request ctx result.output) settled
  | orchestrator (synthesis : SynthesisOutput) (settled : World σ μ)
      (responds :
        (orchestrator.respond host ctx.request ctx services).run started =
          .ok synthesis settled) :
      Answers host single orchestrator ctx services started
        OrchestratorFlow.flowName (OrchestratorFlow.succeeded synthesis)
        (orchestrator.extraction host ctx.request ctx synthesis.summary) settled

namespace AgentLoop

variable {host : Host σ} {single : SingleAgentFlow σ}
  {orchestrator : OrchestratorFlow σ} {ctx : RunContext}
  {services : HarnessServices σ μ} {world routed settled : World σ μ}
  {decision : Option RouteDecision} {name : String} {flow : Flow σ μ}
  {result : FlowResult} {extraction : Option (Turn σ μ (List MemoryItem))}

/-- The flow that has answered goes on to `finish`. -/
theorem run_of_answers
    (found : (harnessFlows host single orchestrator).get? name = some flow)
    (answers :
      Answers host single orchestrator ctx services routed name result extraction
        settled) :
    (flow ctx.request ctx services).run routed =
      (finish services ctx extraction result).run settled := by
  have distinct : SingleAgentFlow.flowName ≠ OrchestratorFlow.flowName := by decide
  rcases get?_harnessFlows found with ⟨named, rfl⟩ | ⟨named, rfl⟩
  · cases answers with
    | single response settled responds =>
        rw [SingleAgentFlow.run_eq_respond, EStateM.run_bind, responds]
    | orchestrator synthesis settled responds => exact absurd named.symm distinct
  · cases answers with
    | single response settled responds => exact absurd named distinct
    | orchestrator synthesis settled responds =>
        rw [OrchestratorFlow.run_eq_respond, EStateM.run_bind, responds]

/-- What `run_turn` makes of an exception is never a success. -/
theorem failed_of_convert {exc : TurnExc} {before after : World σ μ}
    (converted : (convert exc).run before = .ok result after) :
    result.success = false := by
  cases exc with
  | toolError message => cases converted
  | repeatedFailure message =>
      cases converted
      rfl
  | budgetExhausted message =>
      cases converted
      rfl
  | outside raised =>
      cases raised with
      | permissionDenied message =>
          cases converted
          rfl
      | usageLimitExceeded message => cases converted
      | other className message => cases converted

/-- A turn that succeeds has the result of its flow. -/
theorem flow_of_turn {loop : AgentLoop σ μ} {final : World σ μ}
    (routes : (route ctx services).run world.untraced = .ok decision routed)
    (dispatched : loop.dispatch decision = .flow name flow)
    (succeeds : result.success = true)
    (returned : loop.turn ctx services world = .ok result final) :
    ∃ after, (flow ctx.request ctx services).run routed = .ok result after := by
  unfold turn runTurn at returned
  simp only [EStateM.run_bind, routes, dispatched, run_tryCatch] at returned
  cases ran : (flow ctx.request ctx services).run routed with
  | ok own after =>
      rw [ran] at returned
      cases returned
      exact ⟨after, rfl⟩
  | error exc after =>
      rw [ran] at returned
      cases converted : (convert exc : Turn σ μ FlowResult).run after with
      | error raised last =>
          simp only [converted] at returned
          cases returned
      | ok failure last =>
          have fails := failed_of_convert converted
          simp only [converted] at returned
          cases returned
          rw [succeeds] at fails
          cases fails

theorem success_of_answers
    (answers :
      Answers host single orchestrator ctx services routed name result extraction
        settled) :
    result.success = true := by
  cases answers with
  | single response settled responds => rfl
  | orchestrator synthesis settled responds => rfl

end AgentLoop

/-- An answer that is there is returned exactly when the turn can also be
remembered. -/
theorem answer_survives_iff {host : Host σ} {single : SingleAgentFlow σ}
    {orchestrator : OrchestratorFlow σ} {ctx : RunContext}
    {services : HarnessServices σ μ} {world routed settled : World σ μ}
    {decision : Option RouteDecision} {name : String} {flow : Flow σ μ}
    {result : FlowResult} {extraction : Option (Turn σ μ (List MemoryItem))}
    (routes :
      (AgentLoop.route ctx services).run world.untraced = .ok decision routed)
    (dispatched :
      (AgentLoop.harness host single orchestrator).dispatch decision =
        .flow name flow)
    (answers :
      Answers host single orchestrator ctx services routed name result extraction
        settled) :
    (∃ final,
      (AgentLoop.harness host single orchestrator).turn ctx services world =
        .ok result final) ↔
      PostTurnReturns services ctx extraction settled := by
  have found := AgentLoop.dispatch_eq_flow dispatched
  have ran := AgentLoop.run_of_answers found answers
  rw [← finish_returns_iff]
  constructor
  · rintro ⟨final, returned⟩
    rw [← ran]
    exact
      AgentLoop.flow_of_turn routes dispatched
        (AgentLoop.success_of_answers answers) returned
  · rintro ⟨after, finished⟩
    obtain ⟨metadata, returned⟩ :=
      AgentLoop.turn_of_flow routes dispatched (ran.trans finished)
    exact ⟨_, returned⟩

/-! ## A turn whose memory write raises -/

namespace RememberedTurn

def single : SingleAgentFlow Unit where
  model _ := pure (.answer {} "done" [])

/-- The memory write of the turn is `write`. -/
def services (write : Py Unit Unit) : HarnessServices Unit Unit where
  tools := {}
  memory := { nullMemoryStore Unit with remember _ _ := write }
  budget := { budget := {}, modelId := "model", start := 0 }

abbrev loop : AgentLoop Unit Unit := .harness Idle.host single Idle.orchestrator

def result : FlowResult where
  output := some (.text "done")
  success := true
  stopReason := "success"

/-- The flow has its answer before the memory is written. -/
theorem answers (write : Py Unit Unit) :
    ∃ settled,
      Answers Idle.host single Idle.orchestrator Idle.ctx (services write)
        Idle.world.untraced SingleAgentFlow.flowName result
        (single.extraction Idle.host Idle.ctx.request Idle.ctx "done") settled :=
  ⟨_, .single ⟨"done", {}, []⟩ _ rfl⟩

end RememberedTurn

/-- A memory that can be written keeps the answer. -/
theorem remembered_answer_survives :
    ∃ final,
      RememberedTurn.loop.turn Idle.ctx (RememberedTurn.services (pure ()))
        Idle.world = .ok RememberedTurn.result final := by
  obtain ⟨settled, answers⟩ := RememberedTurn.answers (pure ())
  refine (answer_survives_iff rfl rfl answers).mpr ?_
  intro extract extracts
  cases extracts
  exact ⟨_, _, rfl, fun _ => ⟨(), rfl⟩⟩

/-- A memory that is gone takes the answer with it. -/
theorem unreachable_memory_loses_answer :
    let write : Py Unit Unit := throw (.other "ConnectionError" "database is gone")
    Idle.ctx.ablations.memoryOn = true ∧
      (∃ extraction settled,
        Answers Idle.host RememberedTurn.single Idle.orchestrator Idle.ctx
          (RememberedTurn.services write) Idle.world.untraced
          SingleAgentFlow.flowName RememberedTurn.result extraction settled) ∧
      ¬ ∃ final,
          RememberedTurn.loop.turn Idle.ctx (RememberedTurn.services write)
            Idle.world = .ok RememberedTurn.result final := by
  intro write
  obtain ⟨settled, answers⟩ := RememberedTurn.answers write
  refine ⟨rfl, ⟨_, settled, answers⟩, ?_⟩
  rintro ⟨final, returned⟩
  cases returned

end FableHarness
