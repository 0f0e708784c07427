import FableHarness.Library.LabelledRun
import FableHarness.Memory.Reconstruction

/-!
# Replaying a remember

No call removes a key, and a `remember` that returned has put the key of every
item of its batch into the table.  So at any later time its batch meets only
conflicts.
-/

namespace FableHarness

open LabelledRun PgVectorMemoryStore

namespace MemoryHistory

/-- A call on a store whose encoders, and whose database, are its own. -/
abbrev BackendCall := MemoryBackend × MemoryCall

def stepOn (history : MemoryHistory) (label : BackendCall) : MemoryHistory :=
  step label.1 history label.2

/-- Every item of the batch has its key in the table, as far as it has one. -/
def HoldsIds (items : List MemoryItem) (table : MemoryTable) : Prop :=
  ∀ item ∈ items, ∀ id, Uuid.parse item.id = .ok id → id ∈ table.keys

variable {backend : MemoryBackend} {table : MemoryTable}
  {items : List MemoryItem} {scope : String}

/-- No call removes a key. -/
theorem keys_subset_perform (backend : MemoryBackend) (table : MemoryTable)
    (call : MemoryCall) : table.keys ⊆ (perform backend table call).2.keys := by
  rcases perform_cases backend table call with
    unchanged | ⟨items, scope, rows, _, _, grown⟩ | ⟨predicate, ids, _, _, closed⟩
  · rw [unchanged]
    exact List.Subset.refl _
  · rw [grown]
    exact table.keys_subset_insertAll rows
  · have sameKeys : (perform backend table call).2.keys = table.keys := by
      rw [KeyedTable.keys, closed]
      exact keys_closeRows table call.now ids
    rw [sameKeys]
    exact List.Subset.refl _

theorem holdsIds_perform (call : MemoryCall) (held : HoldsIds items table) :
    HoldsIds items (perform backend table call).2 := by
  intro item member id parsed
  exact keys_subset_perform backend table call (held item member id parsed)

theorem holdsIds_run (start : MemoryHistory) (held : HoldsIds items start.table)
    (calls : List BackendCall) :
    HoldsIds items (run stepOn start calls).table := by
  have keeps :
      ∀ (history : MemoryHistory) (call : BackendCall),
        HoldsIds items history.table →
          HoldsIds items (stepOn history call).table :=
    fun _ call heldBefore => holdsIds_perform call.2 heldBefore
  exact run_invariant stepOn keeps held calls

/-- What `remember` inserted it holds. -/
theorem holdsIds_insertAll {store : PgVectorMemoryStore} {now : Timestamp}
    {rows : List MemoryRow}
    (planned : store.plannedRows now items scope = .ok rows)
    (table : MemoryTable) : HoldsIds items (table.insertAll rows) := by
  intro item member id parsed
  obtain ⟨vectors, _, aligned⟩ := aligned_of_plannedRows planned
  obtain ⟨i, itemAt⟩ := List.mem_iff_getElem?.mp member
  obtain ⟨row, _, rowAt, _, built⟩ := aligned.row_of_item itemAt
  have sameId : row.id = id :=
    Except.ok.inj ((rowOf_of_buildRow built).parsed.symm.trans parsed)
  rw [← sameId]
  exact table.key_mem_keys_insertAll (List.mem_of_getElem? rowAt)

theorem holdsIds_of_returned {call : MemoryCall}
    (operation : call.operation = .remember items scope)
    (returned : (perform backend table call).1 = .remembered (.ok ())) :
    HoldsIds items (perform backend table call).2 := by
  unfold perform at returned ⊢
  simp only [operation, remember_eq_map] at returned ⊢
  cases planned : (storeFor backend call).plannedRows call.now items scope with
  | error exc =>
      rw [planned] at returned
      cases returned
  | ok rows => exact holdsIds_insertAll planned table

/-- A batch whose keys are all in the table changes nothing. -/
theorem perform_of_holdsIds {call : MemoryCall}
    (operation : call.operation = .remember items scope)
    (held : HoldsIds items table) : (perform backend table call).2 = table := by
  rcases perform_cases backend table call with
    unchanged | ⟨others, otherScope, rows, remembers, planned, grown⟩ |
      ⟨predicate, ids, invalidates, _, _⟩
  · exact unchanged
  · cases operation.symm.trans remembers
    rw [grown]
    apply KeyedTable.insertAll_of_taken
    intro row member
    obtain ⟨item, inBatch, vector, built⟩ := item_of_mem_plannedRows planned member
    exact held item inBatch row.id (rowOf_of_buildRow built).parsed
  · cases operation.symm.trans invalidates

/-- After any history, sending the items of a `remember` that returned again,
through any store at any time and under any scope, leaves the table as it is. -/
theorem replay_leaves_table (start : MemoryHistory)
    (earlier : List BackendCall) (original : BackendCall)
    (later : List BackendCall) (items : List MemoryItem) (scope : String)
    (operation : original.2.operation = .remember items scope)
    (returned :
      (perform original.1 (run stepOn start earlier).table original.2).1 =
        .remembered (.ok ())) :
    ∀ (backend : MemoryBackend) (replay : MemoryCall) (otherScope : String),
      replay.operation = .remember items otherScope →
        (perform backend
            (run stepOn start (earlier ++ original :: later)).table replay).2 =
          (run stepOn start (earlier ++ original :: later)).table := by
  intro backend replay otherScope replays
  apply perform_of_holdsIds replays
  rw [run_append, run_cons]
  exact holdsIds_run _ (holdsIds_of_returned operation returned) later

def remembersFact : BackendCall :=
  (plainBackend, ⟨defaultEmbeddingModel, 10, .remember [callItem] "default"⟩)

def closesFact : BackendCall :=
  (plainBackend, ⟨defaultEmbeddingModel, 20, .invalidate everyItem⟩)

/-- A fact that was closed after it was remembered stays closed. -/
theorem replay_leaves_closed_fact :
    (perform plainBackend (run stepOn {} [remembersFact, closesFact]).table
        ⟨defaultEmbeddingModel, 30, .remember [callItem] "other"⟩).2 =
      (run stepOn {} [remembersFact, closesFact]).table := by
  refine
    replay_leaves_table {} [] remembersFact [closesFact] [callItem] "default" rfl
      ?_ plainBackend _ "other" rfl
  obtain ⟨id, parsed⟩ : ∃ id, Uuid.parse callItem.id = .ok id := ⟨_, rfl⟩
  unfold perform remembersFact
  simp only [remember_eq_map]
  unfold storeFor
  rw [plannedRows_plainBackend parsed]
  rfl

end MemoryHistory

end FableHarness
