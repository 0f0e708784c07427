import FableHarness.Cli.SessionMemory

/-!
# Sessions that share a memory

One installation over one store is enough to show that two sessions are never
kept apart: what its first turn remembers, every later turn is shown.
-/

namespace FableHarness

open ExceptionState

namespace Leak

/-! ## The installation -/

def fact : String := "the client is moving abroad"

def request : String := "what is new?"

def store : PgVectorMemoryStore := ⟨plainBackend, defaultEmbeddingModel⟩

/-- The agent has an answer to the bare request only. -/
def answerTo (prompt : String) : String :=
  if prompt = request then "noted" else ""

/-- The extractor finds the fact in every answer. -/
def install : Installation Unit MemoryDb where
  host := Idle.host
  settings := { modelId := "anthropic:claude-sonnet-5" }
  config := { budgets := .ofList [("default", {})], permissionMatrix := .ok {} }
  setup := pure ()
  connectMemory := pure ()
  memory := store.memoryStore
  closeMemory := pure ()
  connectSessions := pure ()
  sessions := ⟨fun _ => none⟩
  closeSessions := pure ()
  tools := {}
  buildRouter _ := pure staticRouter
  models _ :=
    { singleAgent := fun prompt => pure (.answer {} (answerTo prompt) [])
      retrieval := Idle.orchestrator.retrievalModel
      synthesis := Idle.orchestrator.synthesisModel
      critic := Idle.orchestrator.criticModel
      extraction := fun _ => pure (.answer {} [⟨fact⟩] []) }
  server := Idle.orchestrator.server
  gatherOrder := Idle.orchestrator.gatherOrder

def invocation (sessionId : String) : Invocation Unit MemoryDb where
  install := install
  request := request
  sessionId := sessionId

def services (start : ℚ) : HarnessServices Unit MemoryDb where
  tools := {}
  memory := store.memoryStore
  budget :=
    { budget := {}, modelId := "anthropic:claude-sonnet-5", start := start }
  router := some staticRouter
  approvalGate := some ⟨{}, some autoApprove⟩

theorem prepares (sessionId : String) (machine : Machine Unit MemoryDb) :
    ∃ prepared ready start,
      (invocation sessionId).prepare.run machine = .ok prepared ready ∧
        prepared.services = services start ∧ ready.memory = machine.memory :=
  ⟨_, _, _, rfl, rfl, rfl⟩

/-! ## The store -/

/-- What the extractor makes of the fact. -/
def item : MemoryItem where
  content := fact
  scope := ""
  source := "single_agent"
  id := "00000000-0000-0000-0000-000000000000"

def row (validFrom : Timestamp) : MemoryRow where
  id := (Idle.host.uuid4 ()).1
  scope := "default"
  content := fact
  embedding := List.replicate embeddingDim 0
  encoderId := defaultEmbeddingModel
  source := "single_agent"
  validFrom := validFrom

def table (validFrom : Timestamp) : MemoryTable := ⟨[row validFrom], by simp⟩

open PgVectorMemoryStore

theorem embed_one (text : String) :
    store.embed [text] = .ok [List.replicate embeddingDim 0] :=
  embed_plainBackend _ _

/-- A single live row is recalled whatever the query. -/
theorem recall_of_few {query : String} {table : MemoryTable}
    {rows : List MemoryRow} (live : selectLive table "default" = rows)
    (few : rows.length ≤ 1) :
    store.recallItems query "default" 5 table =
      .ok (rows.map fun row => rowToItem row "default" row.validTo) := by
  have room : (selectLive table "default").length ≤ 5 := by
    rw [live]
    omega
  have recalled :=
    recallItems_plainBackend defaultEmbeddingModel query "default" (k := 5)
      (by decide) table
  rw [List.take_of_length_le room, live] at recalled
  exact recalled

theorem remember_item (now : Timestamp) :
    store.remember now [item] "default" ∅ = .ok (table now) := by
  have planned : store.plannedRows now [item] "default" = .ok [row now] := by
    unfold plannedRows prepareRows
    rw [List.map_singleton, embed_one]
    rfl
  rw [remember_eq_map, planned]
  rfl

/-! ## A turn -/

theorem run_extract (response : String) (before : World Unit MemoryDb)
    (sessionId : String) :
    ∃ clock trace,
      ((invocation sessionId).factExtractor.extract Idle.host request response
          SingleAgentFlow.flowName).run before =
        .ok [item] { before with clock, trace } := by
  refine ⟨?clock, ?trace, ?run⟩
  case run =>
    rw [FactExtractor.extract, EStateM.run_bind,
      Agent.run_of_answer Idle.host .extraction _ _ rfl rfl]
    rfl

/-- The agent run of a turn, and the settling of its budget. -/
theorem agent_answers (sessionId : String) (start : ℚ) (contents : List String)
    (before : World Unit MemoryDb) (fresh : before.status = {}) :
    ∃ answered settled : World Unit MemoryDb,
      (Agent.run Idle.host .singleAgent (some (services start).budget.usageLimits)
          (invocation sessionId).single.model
          (SingleAgentFlow.tool Idle.host (services start)
            (grantsFor (services start).approvalGate))
          (SingleAgentFlow.prompt request contents) contents).run before =
          .ok ⟨answerTo (SingleAgentFlow.prompt request contents), {}, []⟩
            answered ∧
        (SingleAgentFlow.settleBudget Idle.host (services start) {}).run answered =
          .ok () settled ∧
        settled.memory = before.memory ∧
        shownIn settled.trace = shownIn before.trace ++ contents ∧
        rememberedIn settled.trace = rememberedIn before.trace := by
  obtain ⟨env, memory, clock, status, metadata, detector, callCount, trace⟩ := before
  cases fresh
  let prompt := SingleAgentFlow.prompt request contents
  have chosen :
      ((invocation sessionId).single.model prompt).run env =
        .ok (.answer {} (answerTo prompt) []) env :=
    rfl
  have within :
      UsageLimits.checkTokens (some (services start).budget.usageLimits)
          (({} : RunUsage).add {}) =
        none :=
    rfl
  refine ⟨?answered, ?settled, ?answers, ?settles, ?memory, ?shown, ?remembered⟩
  case answers => exact Agent.run_of_answer Idle.host .singleAgent _ _ chosen within
  case settles => rfl
  case memory => rfl
  case shown =>
    rw [shownIn_append]
    simp [shownIn, Interaction.shows]
  case remembered =>
    rw [rememberedIn_append]
    simp [rememberedIn, Interaction.remembers]

/-- A turn shows what it recalls, and ends with what it remembers of its answer. -/
theorem turn_of_recall (sessionId : String) (start : ℚ)
    (ready : Machine Unit MemoryDb) {items : List MemoryItem}
    (recalled :
      store.recallItems request "default" 5 ready.memory.table = .ok items) :
    ∃ settled : World Unit MemoryDb,
      settled.memory = ready.memory ∧
        shownIn settled.trace = items.map MemoryItem.content ∧
        rememberedIn settled.trace = [] ∧
        ∀ after,
          (SingleAgentFlow.rememberTurn Idle.host (invocation sessionId).single
              (invocation sessionId).ctx (services start) request
              (answerTo
                (SingleAgentFlow.prompt request
                  (items.map MemoryItem.content)))).run settled =
            .ok () after →
          ∃ result metadata,
            (invocation sessionId).loop.turn (invocation sessionId).ctx
                (services start) ready.world =
              .ok result { after with metadata } := by
  let ctx := (invocation sessionId).ctx
  have routes :
      ∃ decision metadata,
        (AgentLoop.route ctx (services start)).run ready.world.untraced =
            .ok decision { ready.world.untraced with metadata } ∧
          (invocation sessionId).loop.dispatch decision =
            .flow SingleAgentFlow.flowName
              ((invocation sessionId).single.run Idle.host) :=
    ⟨_, _, rfl, rfl⟩
  obtain ⟨decision, metadata, routes, dispatched⟩ := routes
  let before : World Unit MemoryDb :=
    SingleAgentFlow.resetCounters { ready.world.untraced with metadata }
  have recalling :
      ((services start).memory.recallItems request ctx.userScope 5).run
          before.memory =
        .ok items ready.memory := by
    have memoryIs : (services start).memory = store.memoryStore := rfl
    have scopeIs : ctx.userScope = "default" := rfl
    have unchanged : before.memory = ready.memory := rfl
    rw [memoryIs, scopeIs, unchanged, store.run_recallItems, recalled]
  obtain ⟨answered, settled, answers, settles, memory, shown, remembered⟩ :=
    agent_answers sessionId start (items.map MemoryItem.content)
      { before with memory := ready.memory } rfl
  refine ⟨settled, memory, shown, remembered, ?_⟩
  intro after remembers
  have ran :=
    SingleAgentFlow.run_of_answered
      (Turn.run_recallContext_of_ok before rfl recalling) answers settles
  rw [remembers] at ran
  obtain ⟨stamped, turns⟩ := AgentLoop.turn_of_flow routes dispatched ran
  exact ⟨_, stamped, turns⟩

/-- A turn over an empty store remembers the fact. -/
theorem turn_first (sessionId : String) (start : ℚ)
    (ready : Machine Unit MemoryDb) (empty : ready.memory.table = ∅) :
    ∃ result after validFrom,
      (invocation sessionId).loop.turn (invocation sessionId).ctx
          (services start) ready.world = .ok result after ∧
        after.memory.table = table validFrom := by
  have recalled :
      store.recallItems request "default" 5 ready.memory.table = .ok [] := by
    rw [empty]
    exact recall_of_few rfl (Nat.zero_le _)
  obtain ⟨settled, memory, _, _, ends⟩ := turn_of_recall sessionId start ready recalled
  obtain ⟨clock, trace, extracts⟩ := run_extract "noted" settled sessionId
  have remembers :
      (SingleAgentFlow.rememberTurn Idle.host (invocation sessionId).single
          (invocation sessionId).ctx (services start) request "noted").run settled =
        .ok ()
          { settled with
            clock
            memory := { settled.memory.tick with table := table settled.memory.now }
            trace := trace ++ [.remembered [fact]] } := by
    have memoryIs : (services start).memory = store.memoryStore := rfl
    have scopeIs : (invocation sessionId).ctx.userScope = "default" := rfl
    rw [SingleAgentFlow.run_rememberTurn_of_extracted rfl rfl (by decide) extracts,
      if_pos (List.cons_ne_nil _ _), Turn.run_remember, memoryIs, scopeIs,
      store.run_remember, memory, empty, remember_item]
    rfl
  obtain ⟨result, metadata, turns⟩ := ends _ remembers
  exact ⟨result, _, _, turns, rfl⟩

/-- A turn over the fact shows it and remembers nothing. -/
theorem turn_later (sessionId : String) (start : ℚ)
    (ready : Machine Unit MemoryDb) {validFrom : Timestamp}
    (told : ready.memory.table = table validFrom) :
    ∃ result after,
      (invocation sessionId).loop.turn (invocation sessionId).ctx
          (services start) ready.world = .ok result after ∧
        after.memory = ready.memory ∧ shownIn after.trace = [fact] ∧
        rememberedIn after.trace = [] := by
  have recalled :
      store.recallItems request "default" 5 ready.memory.table =
        .ok [rowToItem (row validFrom) "default"] := by
    rw [told]
    exact recall_of_few rfl (Nat.le_refl _)
  obtain ⟨settled, memory, shown, remembered, ends⟩ :=
    turn_of_recall sessionId start ready recalled
  have silent : answerTo (SingleAgentFlow.prompt request [fact]) = "" := by decide
  have remembers :
      (SingleAgentFlow.rememberTurn Idle.host (invocation sessionId).single
          (invocation sessionId).ctx (services start) request
          (answerTo (SingleAgentFlow.prompt request [fact]))).run settled =
        .ok () settled := by
    rw [silent, SingleAgentFlow.rememberTurn_of_silent]
    rfl
  obtain ⟨result, metadata, turns⟩ := ends settled remembers
  exact ⟨result, _, turns, memory, shown, remembered⟩

/-! ## Several invocations -/

/-- The machine of an invocation is where its turn left it. -/
theorem stage_turned (sessionId : String) (machine : Machine Unit MemoryDb) :
    ∃ (ready : Machine Unit MemoryDb) (start : ℚ),
      ready.memory = machine.memory ∧
        let ran :=
          (invocation sessionId).loop.turn (invocation sessionId).ctx
            (services start) ready.world
        (machine.step (invocation sessionId)).turns =
            machine.turns ++ [⟨sessionId, answer ran, (finalState ran).trace⟩] ∧
          (machine.step (invocation sessionId)).memory = (finalState ran).memory := by
  obtain ⟨prepared, ready, start, preparing, servicesAre, kept⟩ :=
    prepares sessionId machine
  refine ⟨ready, start, kept, ?_⟩
  rw [← servicesAre]
  cases (invocation sessionId).stage machine with
  | unstarted unprepared turns kept => exact absurd preparing (unprepared _ _)
  | turned other found prepares isReady kept turns memory settles =>
      cases prepares.symm.trans preparing
      exact ⟨turns, memory⟩

theorem step_first (sessionId : String) {machine : Machine Unit MemoryDb}
    (empty : machine.memory.table = ∅) :
    ∃ entry validFrom,
      (machine.step (invocation sessionId)).turns = machine.turns ++ [entry] ∧
        entry.sessionId = sessionId ∧
        (machine.step (invocation sessionId)).memory.table = table validFrom := by
  obtain ⟨ready, start, kept, turns, memory⟩ := stage_turned sessionId machine
  obtain ⟨result, after, validFrom, ran, told⟩ :=
    turn_first sessionId start ready (by rw [kept, empty])
  rw [ran] at memory
  exact ⟨_, validFrom, turns, rfl, by rw [memory]; exact told⟩

/-- A turn that was shown the fact and remembered nothing. -/
def Informed (entry : TurnEntry) : Prop :=
  fact ∈ shownIn entry.trace ∧ rememberedIn entry.trace = []

theorem step_later (sessionId : String) {machine : Machine Unit MemoryDb}
    {validFrom : Timestamp} (told : machine.memory.table = table validFrom) :
    ∃ entry,
      (machine.step (invocation sessionId)).turns = machine.turns ++ [entry] ∧
        entry.sessionId = sessionId ∧ Informed entry ∧
        (machine.step (invocation sessionId)).memory.table = table validFrom := by
  obtain ⟨ready, start, kept, turns, memory⟩ := stage_turned sessionId machine
  obtain ⟨result, after, ran, same, shown, remembered⟩ :=
    turn_later sessionId start ready (by rw [kept, told])
  rw [ran] at memory turns
  refine ⟨_, turns, rfl, ⟨?_, remembered⟩, ?_⟩
  · change fact ∈ shownIn after.trace
    rw [shown]
    exact List.mem_singleton_self fact
  · rw [memory]
    change after.memory.table = _
    rw [same, kept, told]

/-- Every invocation after the first is informed. -/
theorem run_later (sessionIds : List String) {machine : Machine Unit MemoryDb}
    {validFrom : Timestamp} (told : machine.memory.table = table validFrom) :
    ∃ later,
      (machine.run (sessionIds.map invocation)).turns = machine.turns ++ later ∧
        later.map TurnEntry.sessionId = sessionIds ∧
        ∀ entry ∈ later, Informed entry := by
  induction sessionIds generalizing machine with
  | nil => exact ⟨[], (List.append_nil _).symm, rfl, by simp⟩
  | cons sessionId rest inductionHypothesis =>
      obtain ⟨entry, turns, session, informed, still⟩ := step_later sessionId told
      obtain ⟨later, laterTurns, laterIds, laterInformed⟩ := inductionHypothesis still
      refine ⟨entry :: later, ?_, ?_, ?_⟩
      · rw [List.map_cons, Machine.run_cons, laterTurns, turns,
          List.append_assoc]
        rfl
      · rw [List.map_cons, session, laterIds]
      · intro other member
        rcases List.mem_cons.mp member with rfl | member
        · exact informed
        · exact laterInformed other member

/-- The store is empty, and the clock stands still. -/
def start : Machine Unit MemoryDb := .start () { readings := fun _ => 0 } 0

/-- The machine after invocations with these session ids. -/
def after (sessionIds : List String) : Machine Unit MemoryDb :=
  start.run (sessionIds.map invocation)

/-- A session other than the first is shown what the first one remembered. -/
theorem not_apart {first other : String} {rest : List String}
    (present : other ∈ rest) (different : first ≠ other) :
    ¬ SessionsApart (after (first :: rest)).turns := by
  intro apart
  have empty : start.memory.table = ∅ := rfl
  obtain ⟨opening, validFrom, turns, openingId, told⟩ := step_first first empty
  obtain ⟨later, laterTurns, laterIds, informed⟩ := run_later rest told
  have whole : (after (first :: rest)).turns = opening :: later := by
    rw [after, List.map_cons, Machine.run_cons, laterTurns, turns]
    rfl
  rw [← laterIds] at present
  obtain ⟨entry, member, rfl⟩ := List.mem_map.mp present
  obtain ⟨before, behind, rfl⟩ := List.append_of_mem member
  obtain ⟨source, earlier, session, remembered⟩ :=
    apart (opening :: before) entry behind whole fact (informed entry member).1
  rcases List.mem_cons.mp earlier with rfl | earlier
  · exact different (openingId.symm.trans session)
  · rw [(informed source (List.mem_append_left _ earlier)).2] at remembered
    cases remembered

/-- All sessions are the first one, if they are kept apart. -/
theorem eq_of_keepsSessionsApart {first other : String} {rest : List String}
    (keeps : KeepsSessionsApart (first :: rest)) (present : other ∈ rest) :
    first = other := by
  by_contra different
  refine not_apart present different ?_
  apply keeps Unit store
  · rw [List.map_map]
    exact List.map_id _
  · intro other member
    obtain ⟨sessionId, _, rfl⟩ := List.mem_map.mp member
    exact ⟨rfl, rfl⟩

end Leak

/-- The sessions of a run are kept apart exactly if there is only one. -/
theorem sessions_kept_apart_iff (sessionIds : List String) :
    KeepsSessionsApart sessionIds ↔
      ∀ left ∈ sessionIds, ∀ right ∈ sessionIds, left = right := by
  constructor
  · intro keeps
    cases sessionIds with
    | nil => simp
    | cons first rest =>
        have same : ∀ other ∈ first :: rest, first = other := by
          intro other member
          rcases List.mem_cons.mp member with rfl | present
          · rfl
          · exact Leak.eq_of_keepsSessionsApart keeps present
        intro left leftMember right rightMember
        exact (same left leftMember).symm.trans (same right rightMember)
  · exact keepsSessionsApart_of_one

/-- Bob is shown what Alice told the agent. -/
theorem bob_is_shown_the_fact_of_alice :
    ¬ SessionsApart (Leak.after ["alice", "bob"]).turns :=
  Leak.not_apart List.mem_cons_self (by decide)

end FableHarness
