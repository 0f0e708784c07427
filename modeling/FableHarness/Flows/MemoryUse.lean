import FableHarness.Flows.Confinement
import FableHarness.Flows.Unreachable

/-!
# How a turn uses its memory

A turn recalls for its own request and remembers items that its flow has just
made, both under the scope of its context and only if the memory is on.  It comes
to the same with a store that answers nothing else.
-/

namespace FableHarness

open ExceptionState EventLog

variable {σ μ : Type}

/-- An item as the flows make it. -/
def MemoryItem.isOfFlow (item : MemoryItem) : Bool :=
  item.encoderId.isNone && item.validFrom.isNone && item.validTo.isNone &&
    (item.source == SingleAgentFlow.flowName ||
      item.source == OrchestratorFlow.flowName)

/-- The store for the calls that a turn in this context makes, and another one for
all other calls. -/
def MemoryStore.forTurn (store other : MemoryStore μ) (ctx : RunContext) :
    MemoryStore μ where
  recallItems query scope k :=
    if ctx.ablations.memoryOn ∧ query = ctx.request ∧ scope = ctx.userScope ∧
        k = 5 then
      store.recallItems query scope k
    else
      other.recallItems query scope k
  remember items scope :=
    if ctx.ablations.memoryOn ∧ items ≠ [] ∧ scope = ctx.userScope ∧
        items.all MemoryItem.isOfFlow then
      store.remember items scope
    else
      other.remember items scope
  invalidate := other.invalidate

/-- The services over another memory, which may have a state of its own. -/
def HarnessServices.swapMemory {ν : Type} (services : HarnessServices σ μ)
    (memory : MemoryStore ν) : HarnessServices σ ν where
  tools := services.tools
  memory := memory
  budget := services.budget
  router := services.router
  approvalGate := services.approvalGate

/-! ## What the flows remember -/

theorem isOfFlow_of_newMemoryItem {host : Host σ} {content scope source : String}
    (fromFlow : source = SingleAgentFlow.flowName ∨ source = OrchestratorFlow.flowName)
    {before after : World σ μ} {item : MemoryItem}
    (made : (newMemoryItem host content scope source).run before = .ok item after) :
    item.isOfFlow = true := by
  unfold newMemoryItem at made
  obtain ⟨uuid, middle, _, made⟩ := run_bind_eq_ok.mp made
  cases made
  rcases fromFlow with rfl | rfl
  · rfl
  · rfl

theorem FactExtractor.isOfFlow_of_extract {host : Host σ}
    {extractor : FactExtractor σ} {request response source : String}
    (fromFlow : source = SingleAgentFlow.flowName ∨ source = OrchestratorFlow.flowName)
    {before after : World σ μ} {facts : List MemoryItem}
    (extracted :
      (extractor.extract host request response source).run before =
        .ok facts after) :
    facts.all MemoryItem.isOfFlow = true := by
  unfold extract at extracted
  obtain ⟨result, middle, _, extracted⟩ := run_bind_eq_ok.mp extracted
  have each :
      ∀ (fact : ExtractedFact) (before : World σ μ) item after,
        (newMemoryItem host fact.content "" source).run before = .ok item after →
          item.isOfFlow = true :=
    fun _ _ _ _ made => isOfFlow_of_newMemoryItem fromFlow made
  rw [List.all_eq_true]
  exact forall_mem_of_mapM_eq_ok each extracted

theorem SingleAgentFlow.isOfFlow_of_turnFacts {host : Host σ}
    {flow : SingleAgentFlow σ} {request output userScope : String}
    {before after : World σ μ} {facts : List MemoryItem}
    (gathered :
      (turnFacts host flow request output userScope).run before = .ok facts after) :
    facts.all MemoryItem.isOfFlow = true := by
  unfold turnFacts at gathered
  cases extractorIs : flow.factExtractor with
  | some extractor =>
      rw [extractorIs] at gathered
      exact extractor.isOfFlow_of_extract (Or.inl rfl) gathered
  | none =>
      rw [extractorIs] at gathered
      obtain ⟨item, middle, made, gathered⟩ := run_bind_eq_ok.mp gathered
      cases gathered
      have ofFlow := isOfFlow_of_newMemoryItem (Or.inl rfl) made
      simp [ofFlow]

/-! ## The same turn over the restricted store -/

section Restricted

variable (host : Host σ) (services : HarnessServices σ μ) (other : MemoryStore μ)
  (ctx : RunContext)

/-- The services with the restricted store. -/
def HarnessServices.forTurn : HarnessServices σ μ :=
  services.swapMemory (services.memory.forTurn other ctx)

theorem Turn.recallContext_forTurn :
    (Turn.recallContext (services.forTurn other ctx) ctx ctx.request :
        Turn σ μ (List String)) =
      Turn.recallContext services ctx ctx.request := by
  unfold Turn.recallContext
  by_cases memoryOn : ctx.ablations.memoryOn = true
  · rw [if_pos memoryOn, if_pos memoryOn]
    have same :
        (services.forTurn other ctx).memory.recallItems ctx.request ctx.userScope 5 =
          services.memory.recallItems ctx.request ctx.userScope 5 :=
      if_pos ⟨memoryOn, rfl, rfl, rfl⟩
    unfold Turn.recallContents
    rw [same]
  · rw [if_neg memoryOn, if_neg memoryOn]

theorem Turn.remember_forTurn (memoryOn : ctx.ablations.memoryOn = true)
    {facts : List MemoryItem} (some : facts ≠ [])
    (ofFlow : facts.all MemoryItem.isOfFlow = true) :
    (Turn.remember (services.forTurn other ctx) facts ctx.userScope :
        Turn σ μ Unit) =
      Turn.remember services facts ctx.userScope := by
  have same :
      (services.forTurn other ctx).memory.remember facts ctx.userScope =
        services.memory.remember facts ctx.userScope :=
    if_pos ⟨memoryOn, some, rfl, ofFlow⟩
  unfold Turn.remember
  rw [same]

namespace SingleAgentFlow

theorem rememberTurn_forTurn (flow : SingleAgentFlow σ) (request output : String) :
    rememberTurn host flow ctx (services.forTurn other ctx) request output =
      rememberTurn host flow ctx services request output := by
  unfold rememberTurn
  by_cases remembers : (ctx.ablations.memoryOn && output != "") = true
  · rw [if_pos remembers, if_pos remembers]
    have memoryOn : ctx.ablations.memoryOn = true :=
      (Bool.and_eq_true _ _ ▸ remembers).1
    apply bind_congr_of_ok
    intro before facts after gathered
    by_cases some : facts ≠ []
    · rw [if_pos some, if_pos some]
      exact
        Turn.remember_forTurn services other ctx memoryOn some
          (isOfFlow_of_turnFacts gathered)
    · rw [if_neg some, if_neg some]
  · rw [if_neg remembers, if_neg remembers]

theorem run_forTurn (flow : SingleAgentFlow σ) :
    flow.run host ctx.request ctx (services.forTurn other ctx) =
      flow.run host ctx.request ctx services := by
  have sameTool :
      (tool host (services.forTurn other ctx) : _ → _ → _ → Turn σ μ _) =
        tool host services :=
    rfl
  unfold run
  simp only [Turn.recallContext_forTurn, rememberTurn_forTurn, sameTool]
  rfl

end SingleAgentFlow

namespace OrchestratorFlow

theorem rememberTurn_forTurn (flow : OrchestratorFlow σ) (request summary : String) :
    rememberTurn host flow ctx (services.forTurn other ctx) request summary =
      rememberTurn host flow ctx services request summary := by
  unfold rememberTurn
  split
  · rename_i extractor memoryOn _
    apply bind_congr_of_ok
    intro before facts after extracted
    by_cases some : facts ≠ []
    · rw [if_pos some, if_pos some]
      exact
        Turn.remember_forTurn services other ctx memoryOn some
          (extractor.isOfFlow_of_extract (Or.inr rfl) extracted)
    · rw [if_neg some, if_neg some]
  · rfl

theorem run_forTurn (flow : OrchestratorFlow σ) :
    flow.run host ctx.request ctx (services.forTurn other ctx) =
      flow.run host ctx.request ctx services := by
  have sameWork :
      (work host flow (services.forTurn other ctx) : _ → _ → _ → Turn σ μ _) =
        work host flow services :=
    rfl
  unfold run
  simp only [Turn.recallContext_forTurn, rememberTurn_forTurn, sameWork]
  rfl

end OrchestratorFlow

namespace AgentLoop

/-- A turn comes to the same over the restricted store. -/
theorem runTurn_forTurn (single : SingleAgentFlow σ)
    (orchestrator : OrchestratorFlow σ) :
    (harness host single orchestrator).runTurn ctx (services.forTurn other ctx) =
      (harness host single orchestrator).runTurn ctx services := by
  have sameRouter : (services.forTurn other ctx).router = services.router := rfl
  apply runTurn_congr sameRouter
  intro target
  show ((harnessFlows host single orchestrator).get? target).map _ =
    ((harnessFlows host single orchestrator).get? target).map _
  rw [get?_harnessFlows_eq]
  by_cases isOrchestrator : target = OrchestratorFlow.flowName
  · rw [if_pos isOrchestrator]
    exact congrArg some (orchestrator.run_forTurn host services other ctx)
  · rw [if_neg isOrchestrator]
    by_cases isSingle : target = SingleAgentFlow.flowName
    · rw [if_pos isSingle]
      exact congrArg some (single.run_forTurn host services other ctx)
    · rw [if_neg isSingle]
      rfl

end AgentLoop

end Restricted

end FableHarness
