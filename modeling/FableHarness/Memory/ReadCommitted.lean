import FableHarness.Library.LabelledRun
import FableHarness.Memory.PgVectorStore

/-!
# Concurrent transactions at READ COMMITTED

The committed table, one clock and the transactions in flight.  Every statement
reads what is committed when it starts.  The update of `invalidate` takes its
row locks one by one, in any order, waiting while another transaction holds
one; because its condition names ids only, it goes through whatever has been
committed to the row in the meantime.  `now()` is the time of `BEGIN`.
-/

namespace FableHarness

open LabelledRun

/-- Where the transaction of one call stands. -/
inductive Transaction where
  | begun (store : PgVectorMemoryStore) (predicate : MemoryPredicate)
      (now : Timestamp)
  /-- The ids to close are chosen; the update has locked some of them. -/
  | updating (now : Timestamp) (toClose locked : List Uuid)
  /-- Committed; the call returned `toClose.length`. -/
  | invalidated (toClose : List Uuid)
  /-- The rows of a `remember`, stamped and not yet inserted. -/
  | inserting (rows : List MemoryRow)
  | remembered
  | raised (exc : PyExc)

namespace Transaction

/-- The rows a `remember` is about to insert. -/
def pending : Transaction → List MemoryRow
  | .inserting rows => rows
  | _ => []

def locks : Transaction → List Uuid
  | .updating _ _ locked => locked
  | _ => []

/-- The rows counted in the value the call returned. -/
def reported : Transaction → List Uuid
  | .invalidated toClose => toClose
  | _ => []

/-- The rows an `invalidate` has chosen, before or after its commit. -/
def chosen : Transaction → List Uuid
  | .updating _ toClose _ => toClose
  | .invalidated toClose => toClose
  | _ => []

/-- The value an `invalidate` returned. -/
def count? : Transaction → Option Nat
  | .invalidated toClose => some toClose.length
  | _ => none

end Transaction

structure ReadCommitted where
  table : MemoryTable
  clock : Timestamp
  transactions : List Transaction := []

namespace ReadCommitted

inductive Label where
  | tick (elapsed : Nat)
  | begin (store : PgVectorMemoryStore) (predicate : MemoryPredicate)
  | select (index : Nat)
  | lock (index : Nat) (id : Uuid)
  | commit (index : Nat)
  | abort (index : Nat) (exc : PyExc)
  | stamp (store : PgVectorMemoryStore) (items : List MemoryItem) (scope : String)
  | insert (index : Nat)

/-- The row lock is held by another transaction. -/
def Locked (db : ReadCommitted) (index : Nat) (id : Uuid) : Prop :=
  ∃ other ∈ db.transactions.zipIdx,
    other.2 ≠ index ∧ id ∈ other.1.locks

instance (db : ReadCommitted) (index : Nat) (id : Uuid) :
    Decidable (db.Locked index id) :=
  inferInstanceAs (Decidable (∃ other ∈ db.transactions.zipIdx, _))

def put (db : ReadCommitted) (index : Nat) (transaction : Transaction) :
    ReadCommitted :=
  { db with transactions := db.transactions.set index transaction }

def spawn (db : ReadCommitted) (transaction : Transaction) : ReadCommitted :=
  { db with transactions := db.transactions ++ [transaction] }

/-- The `SELECT` and the predicate; an exception rolls back. -/
def afterSelect (store : PgVectorMemoryStore) (predicate : MemoryPredicate)
    (now : Timestamp) (table : MemoryTable) : Transaction :=
  match store.chooseIds predicate table with
  | .ok toClose => .updating now toClose []
  | .error exc => .raised exc

/-- The ids of an update that may commit: all its locks are taken. -/
def committing (db : ReadCommitted) (index : Nat) :
    Option (Timestamp × List Uuid) :=
  match db.transactions[index]? with
  | some (.updating now toClose locked) =>
      if toClose ⊆ locked then some (now, toClose) else none
  | _ => none

/-- One step; a label that is not enabled changes nothing. -/
def step (db : ReadCommitted) : Label → ReadCommitted
  | .tick elapsed => { db with clock := db.clock + elapsed }
  | .begin store predicate => db.spawn (.begun store predicate db.clock)
  | .select index =>
      match db.transactions[index]? with
      | some (.begun store predicate now) =>
          db.put index (afterSelect store predicate now db.table)
      | _ => db
  | .lock index id =>
      match db.transactions[index]? with
      | some (.updating now toClose locked) =>
          if id ∈ toClose ∧ ¬ db.Locked index id then
            db.put index (.updating now toClose (id :: locked))
          else
            db
      | _ => db
  | .commit index =>
      match db.committing index with
      | some (now, toClose) =>
          { db.put index (.invalidated toClose) with
            table := PgVectorMemoryStore.closeRows db.table now toClose }
      | none => db
  | .abort index exc =>
      match db.transactions[index]? with
      | some (.begun ..) | some (.updating ..) | some (.inserting _) =>
          db.put index (.raised exc)
      | _ => db
  | .stamp store items scope =>
      match store.plannedRows db.clock items scope with
      | .ok rows => db.spawn (.inserting rows)
      | .error exc => db.spawn (.raised exc)
  | .insert index =>
      match db.transactions[index]? with
      | some (.inserting rows) =>
          { db.put index .remembered with table := db.table.insertAll rows }
      | _ => db

/-! ## What a step can do -/

/-- The step from `db` to `after` under `label`, by its effect. -/
inductive Change (db : ReadCommitted) (label : Label) (after : ReadCommitted) :
    Prop where
  | idle (table : after.table = db.table)
      (transactions : after.transactions = db.transactions)
  | spawned (transaction : Transaction) (table : after.table = db.table)
      (transactions : after.transactions = db.transactions ++ [transaction])
      (chosen : transaction.chosen = []) (reported : transaction.reported = [])
      (pending : ∀ row ∈ transaction.pending, row.validTo = none)
  | moved (index : Nat) (old new : Transaction) (table : after.table = db.table)
      (found : db.transactions[index]? = some old)
      (transactions : after.transactions = db.transactions.set index new)
      (oldReported : old.reported = []) (newReported : new.reported = [])
      (pending : new.pending = [])
      (chosen :
        new.chosen = [] ∨ new.chosen = old.chosen ∨
          ∃ store predicate,
            PgVectorMemoryStore.chooseIds store predicate db.table =
              .ok new.chosen)
  | committed (index : Nat) (now : Timestamp) (toClose locked : List Uuid)
      (taken : label = .commit index)
      (ready : db.committing index = some (now, toClose))
      (found : db.transactions[index]? = some (.updating now toClose locked))
      (table :
        after.table = PgVectorMemoryStore.closeRows db.table now toClose)
      (transactions :
        after.transactions = db.transactions.set index (.invalidated toClose))
  | inserted (index : Nat) (rows : List MemoryRow)
      (found : db.transactions[index]? = some (.inserting rows))
      (table : after.table = db.table.insertAll rows)
      (transactions :
        after.transactions = db.transactions.set index .remembered)

theorem committing_eq_some {db : ReadCommitted} {index : Nat}
    {now : Timestamp} {toClose : List Uuid}
    (ready : db.committing index = some (now, toClose)) :
    ∃ locked,
      db.transactions[index]? = some (.updating now toClose locked) ∧
        toClose ⊆ locked := by
  unfold committing at ready
  split at ready
  · rename_i start ids locked found
    split at ready
    · rename_i allLocked
      cases ready
      exact ⟨locked, found, allLocked⟩
    · cases ready
  · cases ready

theorem change_step (db : ReadCommitted) (label : Label) :
    Change db label (step db label) := by
  cases label with
  | tick elapsed =>
      exact .idle rfl rfl
  | begin store predicate =>
      exact .spawned _ rfl rfl rfl rfl (by simp [Transaction.pending])
  | select index =>
      simp only [step]
      split
      · rename_i store predicate now found
        unfold afterSelect
        split
        · rename_i toClose chosen
          exact
            .moved index _ _ rfl found rfl rfl rfl rfl
              (Or.inr (Or.inr ⟨store, predicate, chosen⟩))
        · exact .moved index _ _ rfl found rfl rfl rfl rfl (Or.inl rfl)
      · exact .idle rfl rfl
  | lock index id =>
      simp only [step]
      split
      · rename_i now toClose locked found
        split
        · exact
            .moved index _ _ rfl found rfl rfl rfl rfl (Or.inr (Or.inl rfl))
        · exact .idle rfl rfl
      · exact .idle rfl rfl
  | commit index =>
      simp only [step]
      split
      · rename_i now toClose ready
        obtain ⟨locked, found, _⟩ := committing_eq_some ready
        exact .committed index now toClose locked rfl ready found rfl rfl
      · exact .idle rfl rfl
  | abort index exc =>
      simp only [step]
      split
      · rename_i found
        exact .moved index _ _ rfl found rfl rfl rfl rfl (Or.inl rfl)
      · rename_i found
        exact .moved index _ _ rfl found rfl rfl rfl rfl (Or.inl rfl)
      · rename_i found
        exact .moved index _ _ rfl found rfl rfl rfl rfl (Or.inl rfl)
      · exact .idle rfl rfl
  | stamp store items scope =>
      simp only [step]
      split
      · rename_i rows planned
        refine .spawned _ rfl rfl rfl rfl ?_
        intro row member
        obtain ⟨item, _, vector, built⟩ :=
          PgVectorMemoryStore.item_of_mem_plannedRows planned member
        exact (PgVectorMemoryStore.rowOf_of_buildRow built).isOpen
      · exact .spawned _ rfl rfl rfl rfl (by simp [Transaction.pending])
  | insert index =>
      simp only [step]
      split
      · rename_i rows found
        exact .inserted index rows found rfl rfl
      · exact .idle rfl rfl

/-! ## An invalidation that nothing interrupts -/

section Uninterrupted

variable {table : MemoryTable} {clock now : Timestamp}
  {earlier : List Transaction} {toClose locked : List Uuid}

theorem getElem?_last (earlier : List Transaction) (last : Transaction) :
    (earlier ++ [last])[earlier.length]? = some last := by
  simp

theorem set_last (earlier : List Transaction) (last next : Transaction) :
    (earlier ++ [last]).set earlier.length next = earlier ++ [next] := by
  simp

theorem not_locked_of_alone (unlocked : ∀ other ∈ earlier, other.locks = [])
    (last : Transaction) (id : Uuid) :
    ¬ Locked ⟨table, clock, earlier ++ [last]⟩ earlier.length id := by
  rintro ⟨⟨other, index⟩, member, different, held⟩
  rw [List.zipIdx_append, List.mem_append] at member
  rcases member with before | here
  · have inEarlier := List.fst_mem_of_mem_zipIdx before
    rw [unlocked other inEarlier] at held
    cases held
  · rw [Nat.zero_add, List.zipIdx_singleton, List.mem_singleton] at here
    cases here
    exact different rfl

/-- Alone, an update gets every lock it asks for. -/
theorem run_locks (unlocked : ∀ other ∈ earlier, other.locks = [])
    {ids : List Uuid} (subset : ids ⊆ toClose) :
    run step ⟨table, clock, earlier ++ [.updating now toClose locked]⟩
        (ids.map (.lock earlier.length)) =
      ⟨table, clock,
        earlier ++ [.updating now toClose (ids.reverse ++ locked)]⟩ := by
  induction ids generalizing locked with
  | nil =>
      rfl
  | cons id rest inductionHypothesis =>
      have free :
          ¬ Locked ⟨table, clock, earlier ++ [.updating now toClose locked]⟩
            earlier.length id :=
        not_locked_of_alone unlocked _ id
      have locks :
          step ⟨table, clock, earlier ++ [.updating now toClose locked]⟩
              (.lock earlier.length id) =
            ⟨table, clock,
              earlier ++ [.updating now toClose (id :: locked)]⟩ := by
        simp only [step, getElem?_last]
        rw [if_pos ⟨subset List.mem_cons_self, free⟩, put, set_last]
      rw [List.map_cons, run_cons, locks,
        inductionHypothesis fun _ later => subset (List.mem_cons_of_mem _ later),
        List.reverse_cons, List.append_assoc]
      rfl

/-- The steps of one `invalidate` call that runs alone. -/
def uninterrupted (index : Nat) (store : PgVectorMemoryStore)
    (predicate : MemoryPredicate) (toClose : List Uuid) : List Label :=
  [.begin store predicate, .select index] ++ toClose.map (.lock index) ++
    [.commit index]

/-- The sequential `invalidate` is the run of a transaction that nothing
interrupts. -/
theorem invalidate_refines_transaction {store : PgVectorMemoryStore}
    {predicate : MemoryPredicate} {count : Nat} {after : MemoryTable}
    (unlocked : ∀ other ∈ earlier, other.locks = [])
    (invalidated :
      store.invalidate clock predicate table = .ok (count, after)) :
    ∃ toClose,
      toClose.length = count ∧
        run step ⟨table, clock, earlier⟩
            (uninterrupted earlier.length store predicate toClose) =
          ⟨after, clock, earlier ++ [.invalidated toClose]⟩ := by
  obtain ⟨toClose, chosen, rfl, closed⟩ :=
    PgVectorMemoryStore.invalidate_eq_ok invalidated
  refine ⟨toClose, rfl, ?_⟩
  have selects :
      run step ⟨table, clock, earlier⟩
          [.begin store predicate, .select earlier.length] =
        ⟨table, clock, earlier ++ [.updating clock toClose []]⟩ := by
    simp only [run_cons, run_nil, step, spawn, getElem?_last, put, set_last,
      afterSelect, chosen]
  have commits :
      step ⟨table, clock,
            earlier ++ [.updating clock toClose (toClose.reverse ++ [])]⟩
          (.commit earlier.length) =
        ⟨PgVectorMemoryStore.closeRows table clock toClose, clock,
          earlier ++ [.invalidated toClose]⟩ := by
    have allLocked : toClose ⊆ toClose.reverse ++ [] := by simp
    simp only [step, committing, getElem?_last, if_pos allLocked, put, set_last]
  rw [uninterrupted, run_append, run_append, selects,
    run_locks unlocked (List.Subset.refl _), run_cons, run_nil, commits]
  congr 1
  exact KeyedTable.ext closed.symm

end Uninterrupted

end ReadCommitted

end FableHarness
