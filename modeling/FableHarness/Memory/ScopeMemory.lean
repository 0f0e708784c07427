import FableHarness.Flows.MemorySimulation
import FableHarness.Memory.MemoryDb

/-!
# The memory that a scope sees

Used in one scope, the pgvector store is a list of live facts to which facts with
new ids are added and from which closed ones disappear.  Rows of other scopes and
closed rows matter only in that their ids are taken.  `ORDER BY ... LIMIT` is taken
to be exact: an approximate index could let other rows crowd out a fact.
-/

namespace FableHarness

open ExceptionState

/-- The live facts of a scope, in the order in which they were stored, and the ids
that no new fact can have. -/
structure ScopeMemory where
  live : List MemoryRow := []
  taken : List Uuid := []
  readings : Nat → Timestamp

namespace ScopeMemory

def now (memory : ScopeMemory) : Timestamp := memory.readings 0

def tick (memory : ScopeMemory) : ScopeMemory :=
  { memory with readings := fun index => memory.readings (index + 1) }

def add (memory : ScopeMemory) (row : MemoryRow) : ScopeMemory :=
  if row.id ∈ memory.taken then
    memory
  else
    { memory with live := memory.live ++ [row], taken := memory.taken ++ [row.id] }

def addAll (memory : ScopeMemory) (rows : List MemoryRow) : ScopeMemory :=
  rows.foldl add memory

def close (memory : ScopeMemory) (ids : List Uuid) : ScopeMemory :=
  { memory with live := memory.live.filter fun row => row.id ∉ ids }

/-- What a scope sees of the table. -/
def of (scope : String) (db : MemoryDb) : ScopeMemory where
  live := PgVectorMemoryStore.selectLive db.table scope
  taken := db.table.keys
  readings := db.readings

end ScopeMemory

namespace PgVectorMemoryStore

/-- `recall` over the live rows of a scope. -/
def recallFrom (store : PgVectorMemoryStore) (query scope : String) (k : Int)
    (live : List MemoryRow) : Except PyExc (List MemoryItem) := do
  match ← store.embed [query] with
  | [vector] =>
      raiseIf (store.backend.rejectsText scope)
      let limit ← rowLimit k
      let records := (store.ranked vector live).take limit
      return records.map fun row => rowToItem row scope row.validTo
  | vectors => .error (notOneVector vectors)

/-- The choice of `invalidate` among the live rows of a scope. -/
def chooseFrom (store : PgVectorMemoryStore) (predicate : MemoryPredicate)
    (live : List MemoryRow) : Except PyExc (List Uuid) := do
  raiseIf (store.backend.rejectsText predicate.scope)
  selectIds predicate live

/-- The store as a program over what one scope sees. -/
def scopeStore (store : PgVectorMemoryStore) : MemoryStore ScopeMemory where
  remember items scope := fun memory =>
    match store.plannedRows memory.now items scope with
    | .ok rows => .ok () (memory.tick.addAll rows)
    | .error exc => .error exc memory.tick
  recallItems query scope k := fun memory =>
    match store.recallFrom query scope k memory.live with
    | .ok items => .ok items memory
    | .error exc => .error exc memory
  invalidate predicate := fun memory =>
    match store.chooseFrom predicate memory.live with
    | .ok ids => .ok ids.length (memory.tick.close ids)
    | .error exc => .error exc memory.tick

end PgVectorMemoryStore

/-! ## Statements, as a scope sees them -/

namespace ScopeMemory

open PgVectorMemoryStore

theorem of_insertAbsent {scope : String} (db : MemoryDb) {row : MemoryRow}
    (live : isLiveIn scope row = true) :
    of scope { db with table := db.table.insertAbsent row } =
      (of scope db).add row := by
  unfold of add selectLive
  by_cases taken : row.id ∈ db.table.keys
  · have same : db.table.insertAbsent row = db.table := by
      apply KeyedTable.ext
      rw [KeyedTable.rows_insertAbsent, if_pos taken]
    rw [if_pos taken, same]
  · have grown : (db.table.insertAbsent row).rows = db.table.rows ++ [row] := by
      rw [KeyedTable.rows_insertAbsent, if_neg taken]
    rw [if_neg taken]
    simp only [grown, KeyedTable.keys, List.filter_append, List.map_append,
      List.map_singleton, List.filter_singleton, live, cond_true]

theorem of_insertAll {scope : String} {rows : List MemoryRow}
    (live : ∀ row ∈ rows, isLiveIn scope row = true) (db : MemoryDb) :
    of scope { db with table := db.table.insertAll rows } =
      (of scope db).addAll rows := by
  induction rows generalizing db with
  | nil => rfl
  | cons row rest inductionHypothesis =>
      have first := of_insertAbsent db (live row List.mem_cons_self)
      have later :=
        inductionHypothesis
          (fun other member => live other (List.mem_cons_of_mem _ member))
          { db with table := db.table.insertAbsent row }
      rw [KeyedTable.insertAll_cons]
      exact later.trans (congrArg (fun memory => addAll memory rest) first)

theorem isLiveIn_closeRow (scope : String) (now : Timestamp) (ids : List Uuid)
    (row : MemoryRow) :
    isLiveIn scope (closeRow now ids row) =
      (decide (row.id ∉ ids) && isLiveIn scope row) := by
  unfold closeRow isLiveIn
  by_cases chosen : row.id ∈ ids
  · simp [chosen]
  · simp [chosen]

theorem of_closeRows (scope : String) (now : Timestamp) (ids : List Uuid)
    (db : MemoryDb) :
    of scope { db with table := closeRows db.table now ids } =
      (of scope db).close ids := by
  have live :
      selectLive (closeRows db.table now ids) scope =
        (selectLive db.table scope).filter fun row => row.id ∉ ids := by
    have closing :
        isLiveIn scope ∘ closeRow now ids =
          fun row => decide (row.id ∉ ids) && isLiveIn scope row :=
      funext (isLiveIn_closeRow scope now ids)
    unfold selectLive
    rw [rows_closeRows, List.filter_map, List.filter_filter, closing]
    apply map_closeRow_of_disjoint
    intro row member
    have stays := (List.mem_filter.mp member).2
    exact of_decide_eq_true (Bool.and_eq_true _ _ ▸ stays).1
  unfold of close
  rw [live, keys_closeRows]

/-- A row that is sent is live in its scope. -/
theorem isLiveIn_of_mem_plannedRows {store : PgVectorMemoryStore} {now : Timestamp}
    {items : List MemoryItem} {scope : String} {rows : List MemoryRow}
    (planned : store.plannedRows now items scope = .ok rows) :
    ∀ row ∈ rows, isLiveIn scope row = true := by
  intro row member
  obtain ⟨item, _, vector, built⟩ := item_of_mem_plannedRows planned member
  have isRow := rowOf_of_buildRow built
  simp [isLiveIn, isRow.inScope, isRow.isOpen]

end ScopeMemory

/-! ## The store, as a scope sees it -/

open PgVectorMemoryStore

/-- The memory is what the scope sees of the table. -/
def SeenFrom (scope : String) (db : MemoryDb) (memory : ScopeMemory) : Prop :=
  memory = ScopeMemory.of scope db

/-- What `invalidate` does once it has chosen its rows; an empty choice changes
nothing. -/
theorem PgVectorMemoryStore.run_invalidate_of_chosen {store : PgVectorMemoryStore}
    {predicate : MemoryPredicate} {db : MemoryDb} {ids : List Uuid}
    (chosen : store.chooseIds predicate db.table = .ok ids) :
    ∃ after,
      (store.memoryStore.invalidate predicate).run db = .ok ids.length after ∧
        ScopeMemory.of predicate.scope after =
          (ScopeMemory.of predicate.scope db).tick.close ids := by
  cases ids with
  | nil =>
      have invalidated :
          store.invalidate db.now predicate db.table = .ok (0, db.table) := by
        unfold invalidate
        rw [chosen]
        rfl
      refine ⟨db.tick, ?_, ?_⟩
      · simp only [memoryStore, EStateM.run, invalidated]
        rfl
      · have all :
            ∀ live : List MemoryRow, live.filter (fun row => row.id ∉ []) = live := by
          intro live
          simp
        unfold ScopeMemory.close
        rw [all]
        rfl
  | cons id rest =>
      have invalidated :
          store.invalidate db.now predicate db.table =
            .ok ((id :: rest).length, closeRows db.table db.now (id :: rest)) := by
        unfold invalidate
        rw [chosen]
        rfl
      refine ⟨{ db.tick with table := closeRows db.table db.now (id :: rest) }, ?_, ?_⟩
      · simp only [memoryStore, EStateM.run, invalidated]
      · exact ScopeMemory.of_closeRows predicate.scope db.now (id :: rest) db.tick

/-- Used in one scope, the store does what it does over what the scope sees. -/
theorem PgVectorMemoryStore.simulated_scopeStore (store : PgVectorMemoryStore)
    (scope : String) :
    MemoryStore.Simulated (SeenFrom scope) scope store.memoryStore
      store.scopeStore where
  recalling query k := by
    rintro db _ rfl
    have seen :
        store.recallFrom query scope k (ScopeMemory.of scope db).live =
          store.recallItems query scope k db.table :=
      rfl
    cases recalled : store.recallItems query scope k db.table with
    | ok items =>
        rw [recalled] at seen
        simp only [memoryStore, scopeStore, EStateM.run, recalled, seen]
        exact .ok rfl rfl
    | error exc =>
        rw [recalled] at seen
        simp only [memoryStore, scopeStore, EStateM.run, recalled, seen]
        exact .error rfl
  remembering items := by
    rintro db _ rfl
    have sameNow : (ScopeMemory.of scope db).now = db.now := rfl
    cases planned : store.plannedRows db.now items scope with
    | ok rows =>
        have live := ScopeMemory.isLiveIn_of_mem_plannedRows planned
        have seen := ScopeMemory.of_insertAll live db.tick
        have remembered :
            store.remember db.now items scope db.table =
              .ok (db.table.insertAll rows) := by
          rw [remember_eq_map, planned]
          rfl
        simp only [memoryStore, scopeStore, EStateM.run, remembered, sameNow, planned]
        exact .ok rfl seen.symm
    | error exc =>
        have remembered :
            store.remember db.now items scope db.table = .error exc := by
          rw [remember_eq_map, planned]
          rfl
        simp only [memoryStore, scopeStore, EStateM.run, remembered, sameNow, planned]
        exact .error rfl
  invalidating predicate own := by
    subst own
    rintro db _ rfl
    have seen :
        store.chooseFrom predicate (ScopeMemory.of predicate.scope db).live =
          store.chooseIds predicate db.table :=
      rfl
    cases chosen : store.chooseIds predicate db.table with
    | ok ids =>
        obtain ⟨after, ran, view⟩ := store.run_invalidate_of_chosen chosen
        rw [chosen] at seen
        rw [ran]
        simp only [scopeStore, EStateM.run, seen]
        exact .ok rfl view.symm
    | error exc =>
        have invalidated :
            store.invalidate db.now predicate db.table = .error exc := by
          unfold invalidate
          rw [chosen]
          rfl
        rw [chosen] at seen
        simp only [memoryStore, scopeStore, EStateM.run, invalidated, seen]
        exact .error rfl

end FableHarness
