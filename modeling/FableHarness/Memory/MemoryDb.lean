import FableHarness.Flows.Provenance
import FableHarness.Memory.PgVectorStore

/-!
# The pgvector store behind the seam

The store as the flows see it: a program over the table and the readings of the
clock that are still to come.
-/

namespace FableHarness

open ExceptionState

structure MemoryDb where
  table : MemoryTable := ∅
  readings : Nat → Timestamp

namespace MemoryDb

def now (db : MemoryDb) : Timestamp := db.readings 0

/-- One reading of the clock is used up. -/
def tick (db : MemoryDb) : MemoryDb :=
  { db with readings := fun index => db.readings (index + 1) }

/-- Some row has this content, live or closed, whatever its scope. -/
def Holds (db : MemoryDb) (content : String) : Prop :=
  ∃ row ∈ db.table.rows, row.content = content

end MemoryDb

namespace PgVectorMemoryStore

def memoryStore (store : PgVectorMemoryStore) : MemoryStore MemoryDb where
  remember items scope := fun db =>
    match store.remember db.now items scope db.table with
    | .ok table => .ok () { db.tick with table }
    | .error exc => .error exc db.tick
  recallItems query scope k := fun db =>
    match store.recallItems query scope k db.table with
    | .ok items => .ok items db
    | .error exc => .error exc db
  invalidate predicate := fun db =>
    match store.invalidate db.now predicate db.table with
    | .ok (count, table) => .ok count { db.tick with table }
    | .error exc => .error exc db.tick

theorem run_remember (store : PgVectorMemoryStore) (items : List MemoryItem)
    (scope : String) (db : MemoryDb) :
    (store.memoryStore.remember items scope).run db =
      match store.remember db.now items scope db.table with
      | .ok table => .ok () { db.tick with table }
      | .error exc => .error exc db.tick :=
  rfl

section Remember

variable {store : PgVectorMemoryStore} {items : List MemoryItem} {scope : String}
  {db after : MemoryDb}

theorem remember_of_run_ok
    (run : (store.memoryStore.remember items scope).run db = .ok () after) :
    store.remember db.now items scope db.table = .ok after.table := by
  rw [run_remember] at run
  cases remembered : store.remember db.now items scope db.table with
  | error exc =>
      rw [remembered] at run
      cases run
  | ok table =>
      rw [remembered] at run
      cases run
      rfl

/-- A `remember` that raises leaves the table as it was. -/
theorem table_of_remember_raised {exc : PyExc}
    (run : (store.memoryStore.remember items scope).run db = .error exc after) :
    after.table = db.table := by
  rw [run_remember] at run
  cases remembered : store.remember db.now items scope db.table with
  | error raised =>
      rw [remembered] at run
      cases run
      rfl
  | ok table =>
      rw [remembered] at run
      cases run

end Remember

theorem run_recallItems (store : PgVectorMemoryStore) (query scope : String)
    (k : Int) (db : MemoryDb) :
    (store.memoryStore.recallItems query scope k).run db =
      match store.recallItems query scope k db.table with
      | .ok items => .ok items db
      | .error exc => .error exc db :=
  rfl

/-- A row of the table after a `remember` was there before or has the content of
an item. -/
theorem content_of_mem_remember {store : PgVectorMemoryStore} {now : Timestamp}
    {items : List MemoryItem} {scope : String} {before after : MemoryTable}
    (remembered : store.remember now items scope before = .ok after)
    {row : MemoryRow} (member : row ∈ after.rows) :
    row ∈ before.rows ∨ row.content ∈ items.map MemoryItem.content := by
  obtain ⟨rows, planned, rfl⟩ := remember_eq_ok remembered
  rcases KeyedTable.mem_or_mem_of_mem_insertAll member with old | new
  · exact Or.inl old
  · obtain ⟨item, present, vector, built⟩ := item_of_mem_plannedRows planned new
    rw [(rowOf_of_buildRow built).content]
    exact Or.inr (List.mem_map_of_mem present)

theorem retains_memoryStore (store : PgVectorMemoryStore) :
    Retains store.memoryStore MemoryDb.Holds where
  recalled {query scope k before items after} run item member := by
    rw [run_recallItems] at run
    cases recalled : store.recallItems query scope k before.table with
    | error exc =>
        rw [recalled] at run
        cases run
    | ok found =>
        rw [recalled] at run
        cases run
        obtain ⟨row, inTable, _, same⟩ := live_of_mem_recall recalled member
        exact ⟨row, inTable, by rw [same]; rfl⟩
  recalling query scope k before content held := by
    rw [run_recallItems] at held
    cases recalled : store.recallItems query scope k before.table with
    | error exc =>
        rw [recalled] at held
        exact held
    | ok found =>
        rw [recalled] at held
        exact held
  remembering {items scope before after} run content held := by
    obtain ⟨row, member, same⟩ := held
    rw [← same]
    rcases content_of_mem_remember (remember_of_run_ok run) member with old | new
    · exact Or.inl ⟨row, old, rfl⟩
    · exact Or.inr new
  failing {items scope before exc after} run content held := by
    obtain ⟨row, member, same⟩ := held
    rw [table_of_remember_raised run] at member
    exact ⟨row, member, same⟩

end PgVectorMemoryStore

end FableHarness
