import Mathlib.Data.List.Forall2
import FableHarness.Cli.SharedMemory
import FableHarness.Flows.MemoryUse
import FableHarness.Flows.WholeTurn

/-!
# The memory of the command line

No invocation changes, closes or removes a row: the table only grows, by open rows
for what the turns remembered, in the order in which they did.
-/

namespace FableHarness

open ExceptionState EventLog

variable {σ : Type}

/-- A row as a turn in this context adds it, over a store with this encoder. -/
structure MemoryRow.AddedIn (ctx : RunContext) (encoderId : String)
    (row : MemoryRow) : Prop where
  memoryOn : ctx.ablations.memoryOn = true
  isOpen : row.validTo = none
  inScope : row.scope = ctx.userScope
  encoded : row.encoderId = encoderId
  ofFlow :
    row.source = SingleAgentFlow.flowName ∨ row.source = OrchestratorFlow.flowName

/-! ## What a turn sends to the table -/

/-- Rows for what was remembered, one for each content and in the same order, were
inserted in the table, and nothing else was done to it. -/
def Inserts (isNew : MemoryRow → Prop) (before : World σ MemoryDb)
    (events : List Interaction) (after : World σ MemoryDb) : Prop :=
  ∃ sent,
    after.memory.table = before.memory.table.insertAll sent ∧
      sent.map MemoryRow.content = rememberedIn events ∧
      ∀ row ∈ sent, isNew row

section Inserts

variable {isNew : MemoryRow → Prop}

theorem inserts_of_same {before after : World σ MemoryDb}
    (same : after.memory.table = before.memory.table) {events : List Interaction}
    (nothing : rememberedIn events = []) : Inserts isNew before events after := by
  refine ⟨[], ?_, nothing.symm, by simp⟩
  rw [same, KeyedTable.insertAll_nil]

instance :
    Composes (Inserts isNew : World σ MemoryDb → _ → World σ MemoryDb → Prop) where
  nil _ := inserts_of_same rfl rfl
  append := by
    intro before middle after earlier later ⟨first, firstTable, firstTold, firstNew⟩
      ⟨second, secondTable, secondTold, secondNew⟩
    refine ⟨first ++ second, ?_, ?_, ?_⟩
    · rw [secondTable, firstTable, KeyedTable.insertAll_append]
    · rw [List.map_append, firstTold, secondTold, rememberedIn_append]
    · intro row member
      rcases List.mem_append.mp member with early | late
      · exact firstNew row early
      · exact secondNew row late

end Inserts

/-! ## What a turn adds -/

/-- The table has new rows for some of what was remembered, in the same order, and
is otherwise as before. -/
def Grows (isNew : MemoryRow → Prop) (before : World σ MemoryDb)
    (events : List Interaction) (after : World σ MemoryDb) : Prop :=
  ∃ added,
    after.memory.table.rows = before.memory.table.rows ++ added ∧
      (added.map MemoryRow.content).Sublist (rememberedIn events) ∧
      ∀ row ∈ added, isNew row

section Grows

variable {isNew : MemoryRow → Prop}

theorem grows_of_same {before after : World σ MemoryDb}
    (same : after.memory.table = before.memory.table) (events : List Interaction) :
    Grows isNew before events after := by
  refine ⟨[], ?_, List.nil_sublist _, by simp⟩
  rw [same, List.append_nil]

instance : Composes (Grows isNew : World σ MemoryDb → _ → World σ MemoryDb → Prop)
    where
  nil _ := grows_of_same rfl []
  append := by
    rintro before middle after earlier later ⟨first, firstRows, firstTold, firstNew⟩
      ⟨second, secondRows, secondTold, secondNew⟩
    refine ⟨first ++ second, ?_, ?_, ?_⟩
    · rw [secondRows, firstRows, List.append_assoc]
    · rw [List.map_append, rememberedIn_append]
      exact firstTold.append secondTold
    · intro row member
      rcases List.mem_append.mp member with early | late
      · exact firstNew row early
      · exact secondNew row late

/-- Of the rows that were sent, those are new whose ids were not taken. -/
theorem grows_of_inserts {before after : World σ MemoryDb}
    {events : List Interaction} (inserts : Inserts isNew before events after) :
    Grows isNew before events after := by
  obtain ⟨sent, table, told, made⟩ := inserts
  obtain ⟨added, grown, fromSent⟩ := before.memory.table.sublist_insertAll sent
  refine ⟨added, ?_, ?_, ?_⟩
  · rw [table, grown]
  · rw [← told]
    exact fromSent.map MemoryRow.content
  · exact fun row member => made row (fromSent.subset member)

end Grows

namespace PgVectorMemoryStore

theorem Aligned.contents_eq {store : PgVectorMemoryStore} {now : Timestamp}
    {scope : String} {items : List MemoryItem} {vectors : List (List ℚ)}
    {rows : List MemoryRow}
    (aligned : Aligned store now scope items vectors rows) :
    rows.map MemoryRow.content = items.map MemoryItem.content := by
  apply List.ext_getElem?
  intro i
  rw [List.getElem?_map, List.getElem?_map]
  cases present : items[i]? with
  | none =>
      have beyond : rows.length ≤ i := by
        rw [aligned.rows_length]
        exact List.getElem?_eq_none_iff.mp present
      rw [List.getElem?_eq_none beyond]
      rfl
  | some item =>
      obtain ⟨row, vector, rowAt, _, built⟩ := aligned.row_of_item present
      rw [rowAt, Option.map_some, Option.map_some, (rowOf_of_buildRow built).content]

/-- What a `remember` of items sends to the table. -/
theorem sent_of_remember {store : PgVectorMemoryStore} {now : Timestamp}
    {items : List MemoryItem} {scope : String} {before after : MemoryTable}
    (remembered : store.remember now items scope before = .ok after) :
    ∃ sent,
      after = before.insertAll sent ∧
        sent.map MemoryRow.content = items.map MemoryItem.content ∧
        ∀ row ∈ sent,
          ∃ item ∈ items, ∃ vector, RowOf store now scope item vector row := by
  obtain ⟨rows, planned, inserted⟩ := remember_eq_ok remembered
  obtain ⟨vectors, _, aligned⟩ := aligned_of_plannedRows planned
  refine ⟨rows, inserted, aligned.contents_eq, ?_⟩
  intro row member
  obtain ⟨item, present, vector, built⟩ := item_of_mem_plannedRows planned member
  exact ⟨item, present, vector, rowOf_of_buildRow built⟩

end PgVectorMemoryStore

/-- Where an item of a flow says that it comes from. -/
theorem MemoryItem.source_of_isOfFlow {item : MemoryItem}
    (ofFlow : item.isOfFlow = true) :
    item.source = SingleAgentFlow.flowName ∨
      item.source = OrchestratorFlow.flowName := by
  unfold isOfFlow at ofFlow
  simp only [Bool.and_eq_true, Bool.or_eq_true, beq_iff_eq] at ofFlow
  exact ofFlow.2

section Turn

/-- A memory that remembers as the store does and does not change when it is asked
to recall. -/
structure RemembersAs (memory : MemoryStore MemoryDb) (store : PgVectorMemoryStore) :
    Prop where
  remember : memory.remember = store.memoryStore.remember
  recalling :
    ∀ query scope k db,
      (finalState ((memory.recallItems query scope k).run db)).table = db.table

theorem remembersAs_memoryStore (store : PgVectorMemoryStore) :
    RemembersAs store.memoryStore store where
  remember := rfl
  recalling query scope k db := by
    rw [store.run_recallItems]
    cases store.recallItems query scope k db.table <;> rfl

/-- Remembers nothing, and says so. -/
def refusingStore : MemoryStore MemoryDb :=
  { nullMemoryStore MemoryDb with
    remember := fun _ _ => throw (.other "RuntimeError" "not a call of a turn") }

variable {memory : MemoryStore MemoryDb} {store : PgVectorMemoryStore}

theorem allowsMemory_inserts (remembers : RemembersAs memory store)
    (ctx : RunContext) :
    AllowsMemory
      (Inserts (MemoryRow.AddedIn ctx store.encoderId) :
        World σ MemoryDb → _ → World σ MemoryDb → Prop)
      (memory.forTurn refusingStore ctx) where
  recalling query scope k world := by
    refine inserts_of_same ?_ rfl
    show
      (finalState
        ((ite _ (memory.recallItems query scope k)
          (refusingStore.recallItems query scope k)).run world.memory)).table = _
    split
    · exact remembers.recalling query scope k world.memory
    · rfl
  remembering items scope world after remembered := by
    intro event
    have ran :
        (ite _ (memory.remember items scope)
            (refusingStore.remember items scope)).run world.memory =
          .ok () after :=
      remembered
    split at ran
    · rename_i called
      obtain ⟨memoryOn, _, own, ofFlow⟩ := called
      rw [remembers.remember] at ran
      obtain ⟨sent, table, told, made⟩ :=
        store.sent_of_remember (store.remember_of_run_ok ran)
      refine ⟨sent, table, ?_, ?_⟩
      · simpa [rememberedIn, event, Interaction.remembers] using told
      · intro row member
        obtain ⟨item, present, vector, isRow⟩ := made row member
        have fromFlow := item.source_of_isOfFlow (List.all_eq_true.mp ofFlow _ present)
        constructor
        · exact memoryOn
        · exact isRow.isOpen
        · rw [isRow.inScope, own]
        · exact isRow.encoderId
        · rw [isRow.source]
          exact fromFlow
    · cases ran
  failing items scope world exc after raised := by
    have ran :
        (ite _ (memory.remember items scope)
            (refusingStore.remember items scope)).run world.memory =
          .error exc after :=
      raised
    refine inserts_of_same ?_ rfl
    split at ran
    · rw [remembers.remember] at ran
      exact store.table_of_remember_raised ran
    · cases ran
      rfl

theorem allowsTurn_inserts {isNew : MemoryRow → Prop}
    (allowsMemory :
      AllowsMemory (Inserts isNew : World σ MemoryDb → _ → World σ MemoryDb → Prop)
        memory) :
    AllowsTurn (Inserts isNew : World σ MemoryDb → _ → World σ MemoryDb → Prop)
      memory where
  steps := {
    working := fun _ _ _ memory _ _ =>
      inserts_of_same (congrArg MemoryDb.table memory) rfl
    recording := by
      intro event isWork world
      refine inserts_of_same rfl ?_
      cases event with
      | remembered contents => exact absurd isWork id
      | _ => rfl
    outside := fun _ => trivial }
  memory := allowsMemory
  settling _ _ := inserts_of_same rfl rfl

/-- A turn over the store inserts rows for exactly what it says it remembered. -/
theorem AgentLoop.turn_inserts (ctx : RunContext) (host : Host σ)
    (single : SingleAgentFlow σ) (orchestrator : OrchestratorFlow σ)
    {services : HarnessServices σ MemoryDb}
    (remembers : RemembersAs services.memory store) (world : World σ MemoryDb) :
    let ran := (harness host single orchestrator).turn ctx services world
    Inserts (MemoryRow.AddedIn ctx store.encoderId) world.untraced
      (finalState ran).trace (finalState ran) := by
  -- A turn makes no other calls, so the store may refuse them.
  let used := services.forTurn refusingStore ctx
  have sameTurn :
      (harness host single orchestrator).runTurn ctx used =
        (harness host single orchestrator).runTurn ctx services :=
    runTurn_forTurn host services refusingStore ctx single orchestrator
  have allows :
      AllowsTurn
        (Inserts (MemoryRow.AddedIn ctx store.encoderId) :
          World σ MemoryDb → _ → World σ MemoryDb → Prop)
        used.memory :=
    allowsTurn_inserts (allowsMemory_inserts remembers ctx)
  unfold turn
  rw [← sameTurn]
  exact turn_keeps host allows single orchestrator ctx world

theorem allowsTurn_grows_null (isNew : MemoryRow → Prop) :
    AllowsTurn (Grows isNew : World σ MemoryDb → _ → World σ MemoryDb → Prop)
      (nullMemoryStore MemoryDb) where
  steps := {
    working := fun _ _ _ memory _ _ => grows_of_same (congrArg MemoryDb.table memory) []
    recording := fun event _ _ => grows_of_same rfl [event]
    outside := fun _ => trivial }
  memory := {
    recalling := fun _ _ _ _ => grows_of_same rfl []
    remembering := by
      intro items scope world after remembered
      cases remembered
      exact grows_of_same rfl _
    failing := by
      intro items scope world exc after raised
      cases raised }
  settling _ _ := grows_of_same rfl []

/-- A turn over the store, or over none, only adds rows for what it remembered. -/
theorem AgentLoop.turn_grows (store : PgVectorMemoryStore) (ctx : RunContext)
    (host : Host σ) (single : SingleAgentFlow σ) (orchestrator : OrchestratorFlow σ)
    {services : HarnessServices σ MemoryDb}
    (stored :
      services.memory = store.memoryStore ∨
        services.memory = nullMemoryStore MemoryDb)
    (world : World σ MemoryDb) :
    let ran := (harness host single orchestrator).turn ctx services world
    Grows (MemoryRow.AddedIn ctx store.encoderId) world.untraced
      (finalState ran).trace (finalState ran) := by
  rcases stored with same | same
  · have remembers : RemembersAs services.memory store := by
      rw [same]
      exact remembersAs_memoryStore store
    exact
      grows_of_inserts
        (turn_inserts ctx host single orchestrator remembers world)
  · have allows :
        AllowsTurn
          (Grows (MemoryRow.AddedIn ctx store.encoderId) :
            World σ MemoryDb → _ → World σ MemoryDb → Prop)
          services.memory := by
      rw [same]
      exact allowsTurn_grows_null _
    exact turn_keeps host allows single orchestrator ctx world

end Turn

/-! ## What an invocation adds -/

/-- The turns and the rows that an invocation adds. -/
structure Addition where
  turns : List TurnEntry
  rows : List MemoryRow

/-- The invocation adds at most one turn, of its own session, and open rows for
some of what this turn remembered. -/
structure Invocation.Adds {μ : Type} (encoderId : String)
    (invocation : Invocation σ μ) (addition : Addition) : Prop where
  single : addition.turns.length ≤ 1
  session : ∀ entry ∈ addition.turns, entry.sessionId = invocation.sessionId
  remembered :
    (addition.rows.map MemoryRow.content).Sublist
      (addition.turns.flatMap fun entry => rememberedIn entry.trace)
  rows : ∀ row ∈ addition.rows, row.AddedIn invocation.ctx encoderId

theorem Invocation.adds {store : PgVectorMemoryStore}
    {invocation : Invocation σ MemoryDb}
    (stored : invocation.install.memory = store.memoryStore)
    (machine : Machine σ MemoryDb) :
    ∃ addition,
      invocation.Adds store.encoderId addition ∧
        (machine.step invocation).turns = machine.turns ++ addition.turns ∧
        (machine.step invocation).memory.table.rows =
          machine.memory.table.rows ++ addition.rows := by
  cases invocation.stage machine with
  | unstarted unprepared turns kept =>
      have memory : (machine.step invocation).memory = machine.memory :=
        congrArg Prod.fst kept
      refine ⟨⟨[], []⟩, ⟨?_, ?_, ?_, ?_⟩, ?_, ?_⟩
      · exact Nat.zero_le 1
      · simp
      · exact List.nil_sublist _
      · simp
      · rw [turns, List.append_nil]
      · rw [memory, List.append_nil]
  | turned prepared ready prepares isReady kept turns memory settles =>
      have before : ready.memory = machine.memory := congrArg Prod.fst kept
      have ready' :
          prepared.services.memory = store.memoryStore ∨
            prepared.services.memory = nullMemoryStore MemoryDb := by
        rw [← stored]
        exact isReady.memory
      obtain ⟨added, grown, told, made⟩ :=
        AgentLoop.turn_grows store invocation.ctx invocation.install.host
          invocation.single invocation.orchestrator ready' ready.world
      refine ⟨⟨[_], added⟩, ⟨?_, ?_, ?_, made⟩, turns, ?_⟩
      · exact Nat.le_refl 1
      · intro entry member
        rw [List.mem_singleton.mp member]
      · rw [List.flatMap_singleton]
        exact told
      · rw [memory, ← before]
        exact grown

/-- Over every sequence of invocations the memory only grows: what each invocation
adds to the table are open rows, in the scope of its context and with its store's
encoder, for some of what its turn remembered, in the order in which it did. -/
theorem cli_memory_only_grows (machine : Machine σ MemoryDb)
    (storeOf : Invocation σ MemoryDb → PgVectorMemoryStore)
    (invocations : List (Invocation σ MemoryDb))
    (stored :
      ∀ invocation ∈ invocations,
        invocation.install.memory = (storeOf invocation).memoryStore) :
    ∃ additions,
      List.Forall₂
          (fun invocation addition =>
            invocation.Adds (storeOf invocation).encoderId addition)
          invocations additions ∧
        (machine.run invocations).turns =
          machine.turns ++ additions.flatMap Addition.turns ∧
        (machine.run invocations).memory.table.rows =
          machine.memory.table.rows ++ additions.flatMap Addition.rows := by
  induction invocations generalizing machine with
  | nil => exact ⟨[], .nil, (List.append_nil _).symm, (List.append_nil _).symm⟩
  | cons invocation rest inductionHypothesis =>
      obtain ⟨addition, adds, turns, rows⟩ :=
        invocation.adds (stored invocation List.mem_cons_self) machine
      obtain ⟨additions, later, laterTurns, laterRows⟩ :=
        inductionHypothesis (machine.step invocation)
          fun other member => stored other (List.mem_cons_of_mem _ member)
      refine ⟨addition :: additions, .cons adds later, ?_, ?_⟩
      · rw [Machine.run_cons, laterTurns, turns, List.append_assoc]
        rfl
      · rw [Machine.run_cons, laterRows, rows, List.append_assoc]
        rfl

/-- Two sessions over one store. -/
theorem two_sessions_grow :
    let machine : Machine Unit MemoryDb := Machine.start () { readings := fun _ => 0 } 0
    let invocations := [Leak.invocation "a", Leak.invocation "b"]
    ∃ additions,
      List.Forall₂
          (fun (invocation : Invocation Unit MemoryDb) addition =>
            invocation.Adds Leak.store.encoderId addition)
          invocations additions ∧
        (machine.run invocations).turns =
          machine.turns ++ additions.flatMap Addition.turns ∧
        (machine.run invocations).memory.table.rows =
          machine.memory.table.rows ++ additions.flatMap Addition.rows := by
  intro machine invocations
  apply cli_memory_only_grows machine (fun _ => Leak.store) invocations
  intro invocation member
  rcases List.mem_cons.mp member with rfl | last
  · rfl
  · rw [List.mem_singleton.mp last]
    rfl

end FableHarness
