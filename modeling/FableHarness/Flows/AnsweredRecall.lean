import FableHarness.Flows.Ablations

/-!
# Turns whose recall is already answered

The answer to the recall of a turn can be known before the turn comes to use it.
Over a store that gives this answer the turn does what it does over the store
itself, as long as the store would still answer so.
-/

namespace FableHarness

open ExceptionState

variable {σ μ : Type}

/-- The store for a turn whose recall has been answered. -/
def MemoryStore.answering (store : MemoryStore μ)
    (answered : Except PyExc (List MemoryItem)) : MemoryStore μ :=
  { store with recallItems := fun _ _ _ => MonadExcept.ofExcept answered }

/-- To a turn in this context that finds this memory, the other store is as good. -/
structure MemoryStore.ServesAs (other store : MemoryStore μ) (ctx : RunContext)
    (memory : μ) : Prop where
  recalling :
    (other.recallItems ctx.request ctx.userScope 5).run memory =
      (store.recallItems ctx.request ctx.userScope 5).run memory
  remembering : other.remember = store.remember

/-- What the store would answer now is as good as the store. -/
theorem MemoryStore.servesAs_answering {store : MemoryStore μ} {ctx : RunContext}
    {memory : μ} {answered : Except PyExc (List MemoryItem)}
    (current :
      (store.recallItems ctx.request ctx.userScope 5).run memory =
        resultOf answered memory) :
    (store.answering answered).ServesAs store ctx memory where
  recalling := by
    rw [current]
    exact run_ofExcept answered memory
  remembering := rfl

theorem MemoryFree.memory_eq {α : Type} {program : Turn σ μ α}
    (free : MemoryFree program) (world : World σ μ) :
    (finalState (program.run world)).memory = world.memory := by
  have kept : World.withMemory world.memory world = world := rfl
  have same := free world.memory
  exact (congrArg World.memory (same.finalState_eq kept)).trans rfl

section Alike

variable {services : HarnessServices σ μ} {other : MemoryStore μ} {ctx : RunContext}
  {world : World σ μ}

theorem Turn.run_recallContext_withStore
    (alike : other.ServesAs services.memory ctx world.memory) :
    (recallContext (services.withStore other) ctx ctx.request).run world =
      (recallContext services ctx ctx.request).run world := by
  unfold recallContext
  by_cases memoryOn : ctx.ablations.memoryOn = true
  · rw [if_pos memoryOn, if_pos memoryOn]
    have recalled :
        (inMemory
            ((services.withStore other).memory.recallItems ctx.request ctx.userScope
              5)).run world =
          (inMemory (services.memory.recallItems ctx.request ctx.userScope 5)).run
            world := by
      rw [run_inMemory, run_inMemory, ← alike.recalling]
      rfl
    unfold recallContents
    rw [EStateM.run_bind, EStateM.run_bind, recalled]
  · rw [if_neg memoryOn, if_neg memoryOn]

theorem finish_withStore (same : other.remember = services.memory.remember)
    (extraction : Option (Turn σ μ (List MemoryItem))) (result : FlowResult) :
    finish (services.withStore other) ctx extraction result =
      finish services ctx extraction result := by
  have remembers :
      (Turn.remember (services.withStore other) : _ → _ → Turn σ μ Unit) =
        Turn.remember services := by
    funext facts scope
    show (do Turn.inMemory (other.remember facts scope); _) = _
    rw [same]
    rfl
  unfold finish rememberFacts
  rw [remembers]

/-- A flow goes its way in the same stages. -/
theorem RecallingFlow.run_withStore (flow : RecallingFlow σ μ)
    (extractor : Option (FactExtractor σ))
    (alike : other.ServesAs services.memory ctx world.memory) :
    (flow.run extractor ctx.request ctx (services.withStore other)).run world =
      (flow.run extractor ctx.request ctx services).run world := by
  unfold run
  rw [flow.start_store, EStateM.run_bind, EStateM.run_bind]
  have kept := (flow.start_free services ctx.request).memory_eq world
  cases started : (flow.start services ctx.request).run world with
  | error exc middle => rfl
  | ok start middle =>
      rw [started] at kept
      have found : other.ServesAs services.memory ctx middle.memory := by
        rw [show middle.memory = world.memory from kept]
        exact alike
      simp only [EStateM.run_bind, Turn.run_recallContext_withStore found]
      cases (Turn.recallContext services ctx ctx.request).run middle with
      | error exc answering => rfl
      | ok memory answering =>
          have responds :
              flow.respond (services.withStore other) ctx ctx.request start memory =
                flow.respond services ctx ctx.request start memory :=
            flow.respond_store other services ctx.ablations.memoryOn ctx ctx.request
              start memory
          simp only [responds, finish_withStore alike.remembering]

end Alike

namespace AgentLoop

variable {services : HarnessServices σ μ} {other : MemoryStore μ} {ctx : RunContext}

/-- What a turn does depends on what its flow does from where it was routed. -/
theorem turn_withStore {loop : AgentLoop σ μ} {world : World σ μ}
    (flows :
      ∀ name flow routed, loop.flows.get? name = some flow →
        routed.memory = world.memory →
          (flow ctx.request ctx (services.withStore other)).run routed =
            (flow ctx.request ctx services).run routed) :
    loop.turn ctx (services.withStore other) world =
      loop.turn ctx services world := by
  have sameRoute :
      (route ctx (services.withStore other) : Turn σ μ _) = route ctx services :=
    rfl
  unfold turn runTurn
  rw [sameRoute, EStateM.run_bind, EStateM.run_bind]
  rcases run_route ctx services world.untraced with
    ⟨decision, env, metadata, routed⟩ | ⟨exc, env, metadata, failed⟩
  · rw [routed]
    cases dispatched : loop.dispatch decision with
    | answer result => simp only [dispatched]
    | flow name flow =>
        have same :=
          flows name flow { world.untraced with env, metadata }
            (dispatch_eq_flow dispatched) rfl
        simp only [dispatched, EStateM.run_bind, run_tryCatch, same]
  · rw [failed]

/-- Every flow of the harness recalls once and remembers last. -/
theorem exists_recallingFlow {host : Host σ} {single : SingleAgentFlow σ}
    {orchestrator : OrchestratorFlow σ} {name : String} {flow : Flow σ μ}
    (present : (harnessFlows host single orchestrator).get? name = some flow) :
    ∃ (stages : RecallingFlow σ μ) (extractor : Option (FactExtractor σ)),
      flow = stages.run extractor := by
  rcases get?_harnessFlows present with ⟨_, same⟩ | ⟨_, same⟩
  · refine ⟨SingleAgentFlow.recalling host single μ, single.factExtractor, ?_⟩
    rw [same, SingleAgentFlow.run_recalling]
    rfl
  · refine ⟨OrchestratorFlow.recalling host orchestrator μ, orchestrator.factExtractor, ?_⟩
    rw [same, OrchestratorFlow.run_recalling]
    rfl

/-- A turn over a store that serves as the other does what it does over that. -/
theorem harness_turn_withStore (host : Host σ) (single : SingleAgentFlow σ)
    (orchestrator : OrchestratorFlow σ) {world : World σ μ}
    (alike : other.ServesAs services.memory ctx world.memory) :
    (harness host single orchestrator).turn ctx (services.withStore other) world =
      (harness host single orchestrator).turn ctx services world := by
  apply turn_withStore
  intro name flow routed present kept
  obtain ⟨stages, extractor, rfl⟩ := exists_recallingFlow present
  apply stages.run_withStore
  rw [kept]
  exact alike

end AgentLoop

end FableHarness
