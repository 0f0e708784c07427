import FableHarness.Library.CommitOrder
import FableHarness.Memory.ReadCommitted

/-!
# The calls behind the transactions

Which call each transaction belongs to, and which step commits it.  A call is
kept with the clock reading it works with: `now()` of an `invalidate` is read at
its `BEGIN`, and a `remember` reads the clock before it opens a connection.
-/

namespace FableHarness

open PgVectorMemoryStore

/-- A call of a store that writes. -/
inductive StoreCall where
  | invalidate (store : PgVectorMemoryStore) (predicate : MemoryPredicate)
      (now : Timestamp)
  | remember (store : PgVectorMemoryStore) (items : List MemoryItem)
      (scope : String) (now : Timestamp)

namespace StoreCall

def scope : StoreCall → String
  | .invalidate _ predicate _ => predicate.scope
  | .remember _ _ scope _ => scope

/-- The call, made while nothing else is going on. -/
def perform (call : StoreCall) (table : MemoryTable) :
    MemoryAnswer × MemoryTable :=
  match call with
  | .invalidate store predicate now =>
      MemoryHistory.perform store.backend table
        ⟨store.encoderId, now, .invalidate predicate⟩
  | .remember store items scope now =>
      MemoryHistory.perform store.backend table
        ⟨store.encoderId, now, .remember items scope⟩

theorem perform_invalidate_of_chosen {store : PgVectorMemoryStore}
    {predicate : MemoryPredicate} {table : MemoryTable} {ids : List Uuid}
    (chosen : store.chooseIds predicate table = .ok ids) (now : Timestamp) :
    perform (.invalidate store predicate now) table =
      (.invalidated (.ok ids.length), closeRows table now ids) := by
  have invalidated :
      store.invalidate now predicate table =
        .ok (ids.length, closeRows table now ids) := by
    unfold PgVectorMemoryStore.invalidate
    rw [chosen]
    cases ids with
    | nil =>
        have unchanged : closeRows table now [] = table :=
          KeyedTable.ext (map_closeRow_of_disjoint fun _ _ => List.not_mem_nil)
        rw [unchanged]
        rfl
    | cons id rest => rfl
  have sameStore :
      (⟨store.backend, store.encoderId⟩ : PgVectorMemoryStore) = store := rfl
  simp only [perform, MemoryHistory.perform, MemoryHistory.storeFor, sameStore,
    invalidated]

theorem perform_invalidate_of_raised {store : PgVectorMemoryStore}
    {predicate : MemoryPredicate} {table : MemoryTable} {exc : PyExc}
    (raised : store.chooseIds predicate table = .error exc) (now : Timestamp) :
    perform (.invalidate store predicate now) table =
      (.invalidated (.error exc), table) := by
  have invalidated : store.invalidate now predicate table = .error exc := by
    unfold PgVectorMemoryStore.invalidate
    rw [raised]
    rfl
  have sameStore :
      (⟨store.backend, store.encoderId⟩ : PgVectorMemoryStore) = store := rfl
  simp only [perform, MemoryHistory.perform, MemoryHistory.storeFor, sameStore,
    invalidated]

theorem perform_remember_of_planned {store : PgVectorMemoryStore}
    {items : List MemoryItem} {scope : String} {now : Timestamp}
    {rows : List MemoryRow}
    (planned : store.plannedRows now items scope = .ok rows)
    (table : MemoryTable) :
    perform (.remember store items scope now) table =
      (.remembered (.ok ()), table.insertAll rows) := by
  have remembered :
      store.remember now items scope table = .ok (table.insertAll rows) := by
    rw [remember_eq_map, planned]
    rfl
  have sameStore :
      (⟨store.backend, store.encoderId⟩ : PgVectorMemoryStore) = store := rfl
  simp only [perform, MemoryHistory.perform, MemoryHistory.storeFor, sameStore,
    remembered]

end StoreCall

namespace Transaction

/-- What the call has returned, once it has. -/
def answer : Transaction → Option MemoryAnswer
  | .invalidated toClose => some (.invalidated (.ok toClose.length))
  | .remembered => some (.remembered (.ok ()))
  | _ => none

/-- The ids that an update has chosen and not yet closed. -/
def closing : Transaction → Option (Timestamp × List Uuid)
  | .updating now toClose _ => some (now, toClose)
  | _ => none

def isUpdating (transaction : Transaction) : Bool :=
  transaction.closing.isSome

/-- The transaction is one of this call. -/
def Serves (call : StoreCall) : Transaction → Prop
  | .begun store predicate now => call = .invalidate store predicate now
  | .updating now toClose _ =>
      toClose.Nodup ∧ ∃ store predicate, call = .invalidate store predicate now
  | .inserting rows =>
      ∃ store items scope now,
        call = .remember store items scope now ∧
          store.plannedRows now items scope = .ok rows
  | _ => True

end Transaction

namespace ReadCommitted

def startedCall (db : ReadCommitted) : Label → Option StoreCall
  | .begin store predicate => some (.invalidate store predicate db.clock)
  | .stamp store items scope => some (.remember store items scope db.clock)
  | _ => none

def committedCall (db : ReadCommitted) : Label → Option Nat
  | .commit index => (db.committing index).map fun _ => index
  | .insert index =>
      match db.transactions[index]? with
      | some (.inserting _) => some index
      | _ => none
  | _ => none

def answerOf (db : ReadCommitted) (index : Nat) : Option MemoryAnswer :=
  db.transactions[index]?.bind Transaction.answer

/-- What the transaction of a call has chosen and not yet closed. -/
def closingOf (db : ReadCommitted) (index : Nat) : Option (Timestamp × List Uuid) :=
  db.transactions[index]?.bind Transaction.closing

/-- The database as a machine on which calls are started and committed. -/
def machine :
    CommitOrder.Machine ReadCommitted Label StoreCall MemoryTable
      MemoryAnswer where
  step := step
  starts := startedCall
  commits := committedCall
  data := table
  answer := answerOf
  perform := StoreCall.perform

/-- The state with the calls that were started and the order of the commits. -/
abbrev Recorded := CommitOrder.Recorded ReadCommitted StoreCall

/-- Every transaction serves the call of its number. -/
structure Consistent (recorded : Recorded) : Prop where
  sameLength : recorded.calls.length = recorded.state.transactions.length
  serves :
    ∀ (index : Nat) call transaction,
      recorded.calls[index]? = some call →
        recorded.state.transactions[index]? = some transaction →
          transaction.Serves call

theorem consistent_start (table : MemoryTable) (clock : Timestamp) :
    Consistent { state := { table, clock } } where
  sameLength := rfl
  serves index call transaction found := by
    cases found

/-! ## What a step does to the calls -/

/-- The step under `label`, by its effect on the calls and their transactions. -/
inductive Effect (db : ReadCommitted) (label : Label) (after : ReadCommitted) :
    Prop where
  | idle (starts : db.startedCall label = none)
      (commits : db.committedCall label = none) (table : after.table = db.table)
      (transactions : after.transactions = db.transactions)
  | started (call : StoreCall) (transaction : Transaction)
      (starts : db.startedCall label = some call)
      (commits : db.committedCall label = none) (table : after.table = db.table)
      (transactions : after.transactions = db.transactions ++ [transaction])
      (serves : transaction.Serves call) (waits : transaction.closing = none)
  | moved (index : Nat) (old new : Transaction)
      (starts : db.startedCall label = none)
      (commits : db.committedCall label = none) (table : after.table = db.table)
      (found : db.transactions[index]? = some old)
      (transactions : after.transactions = db.transactions.set index new)
      (unanswered : old.answer = none)
      (serves : ∀ call, old.Serves call → new.Serves call)
      (selects :
        ∀ now toClose, new.closing = some (now, toClose) →
          old.closing = some (now, toClose) ∨
            ∃ store predicate,
              old = .begun store predicate now ∧
                store.chooseIds predicate db.table = .ok toClose)
  | closed (index : Nat) (now : Timestamp) (toClose locked : List Uuid)
      (starts : db.startedCall label = none)
      (commits : db.committedCall label = some index)
      (found : db.transactions[index]? = some (.updating now toClose locked))
      (table : after.table = closeRows db.table now toClose)
      (transactions :
        after.transactions = db.transactions.set index (.invalidated toClose))
  | inserted (index : Nat) (rows : List MemoryRow)
      (starts : db.startedCall label = none)
      (commits : db.committedCall label = some index)
      (found : db.transactions[index]? = some (.inserting rows))
      (table : after.table = db.table.insertAll rows)
      (transactions :
        after.transactions = db.transactions.set index .remembered)

theorem effect_step (db : ReadCommitted) (label : Label) :
    Effect db label (step db label) := by
  cases label with
  | tick elapsed =>
      exact .idle rfl rfl rfl rfl
  | begin store predicate =>
      exact .started _ _ rfl rfl rfl rfl rfl rfl
  | select index =>
      simp only [step]
      split
      · rename_i store predicate now found
        refine .moved index _ _ rfl rfl rfl found rfl rfl ?serves ?selects
        case serves =>
          rintro call rfl
          unfold afterSelect
          split
          · rename_i toClose chosen
            exact ⟨nodup_of_chooseIds chosen, store, predicate, rfl⟩
          · trivial
        case selects =>
          intro begun toClose chosen
          unfold afterSelect at chosen
          split at chosen
          · rename_i ids selected
            cases chosen
            exact Or.inr ⟨store, predicate, rfl, selected⟩
          · cases chosen
      · exact .idle rfl rfl rfl rfl
  | lock index id =>
      simp only [step]
      split
      · rename_i now toClose locked found
        split
        · exact
            .moved index _ _ rfl rfl rfl found rfl rfl (fun _ serves => serves)
              fun _ _ same => Or.inl same
        · exact .idle rfl rfl rfl rfl
      · exact .idle rfl rfl rfl rfl
  | commit index =>
      simp only [step]
      split
      · rename_i now toClose ready
        obtain ⟨locked, found, _⟩ := committing_eq_some ready
        have commits : db.committedCall (.commit index) = some index := by
          simp only [committedCall, ready, Option.map_some]
        exact .closed index now toClose locked rfl commits found rfl rfl
      · rename_i ready
        have commits : db.committedCall (.commit index) = none := by
          simp only [committedCall, ready, Option.map_none]
        exact .idle rfl commits rfl rfl
  | abort index exc =>
      have noSelection : ∀ now toClose,
          (Transaction.raised exc).closing ≠ some (now, toClose) := by
        intro now toClose same
        cases same
      simp only [step]
      split
      · rename_i found
        exact
          .moved index _ _ rfl rfl rfl found rfl rfl (fun _ _ => trivial)
            fun _ _ same => absurd same (noSelection _ _)
      · rename_i found
        exact
          .moved index _ _ rfl rfl rfl found rfl rfl (fun _ _ => trivial)
            fun _ _ same => absurd same (noSelection _ _)
      · rename_i found
        exact
          .moved index _ _ rfl rfl rfl found rfl rfl (fun _ _ => trivial)
            fun _ _ same => absurd same (noSelection _ _)
      · exact .idle rfl rfl rfl rfl
  | stamp store items scope =>
      simp only [step]
      split
      · rename_i rows planned
        exact
          .started _ _ rfl rfl rfl rfl ⟨store, items, scope, _, rfl, planned⟩ rfl
      · exact .started _ _ rfl rfl rfl rfl trivial rfl
  | insert index =>
      simp only [step]
      split
      · rename_i rows found
        have commits : db.committedCall (.insert index) = some index := by
          simp only [committedCall, found]
        exact .inserted index rows rfl commits found rfl rfl
      · have commits : db.committedCall (.insert index) = none := by
          simp only [committedCall]
        exact .idle rfl commits rfl rfl

section Step

variable {recorded : Recorded} {label : Label} {index : Nat}

/-- The call of a transaction. -/
theorem Consistent.exists_call (consistent : Consistent recorded)
    {transaction : Transaction}
    (found : recorded.state.transactions[index]? = some transaction) :
    ∃ call, recorded.calls[index]? = some call ∧ transaction.Serves call := by
  have inside : index < recorded.calls.length := by
    rw [consistent.sameLength]
    exact (List.getElem?_eq_some_iff.mp found).1
  have called : recorded.calls[index]? = some recorded.calls[index] :=
    List.getElem?_eq_getElem inside
  exact ⟨_, called, consistent.serves index _ _ called found⟩

/-- One transaction has moved on, and it still serves its call. -/
theorem Consistent.of_set (consistent : Consistent recorded) {after : Recorded}
    {old new : Transaction}
    (found : recorded.state.transactions[index]? = some old)
    (calls : after.calls = recorded.calls)
    (transactions :
      after.state.transactions = recorded.state.transactions.set index new)
    (moves : ∀ call, old.Serves call → new.Serves call) : Consistent after where
  sameLength := by
    rw [calls, transactions, List.length_set, consistent.sameLength]
  serves other call transaction called present := by
    rw [calls] at called
    rw [transactions] at present
    by_cases same : index = other
    · subst same
      have inside := (List.getElem?_eq_some_iff.mp found).1
      rw [List.getElem?_set_self inside] at present
      cases present
      exact moves call (consistent.serves index call old called found)
    · rw [List.getElem?_set_ne same] at present
      exact consistent.serves other call transaction called present

/-- A call has been started, with a transaction that serves it. -/
theorem Consistent.of_spawn (consistent : Consistent recorded) {after : Recorded}
    {call : StoreCall} {transaction : Transaction}
    (calls : after.calls = recorded.calls ++ [call])
    (transactions :
      after.state.transactions = recorded.state.transactions ++ [transaction])
    (serves : transaction.Serves call) : Consistent after where
  sameLength := by
    rw [calls, transactions, List.length_append, List.length_append,
      consistent.sameLength]
    rfl
  serves other otherCall otherTransaction called present := by
    rw [calls] at called
    rw [transactions] at present
    by_cases old : other < recorded.calls.length
    · rw [List.getElem?_append_left old] at called
      rw [List.getElem?_append_left (consistent.sameLength ▸ old)] at present
      exact consistent.serves other _ _ called present
    · have last : other = recorded.calls.length := by
        have inside := (List.getElem?_eq_some_iff.mp called).1
        rw [List.length_append, List.length_singleton] at inside
        omega
      subst last
      rw [List.getElem?_concat_length] at called
      rw [consistent.sameLength, List.getElem?_concat_length] at present
      cases called
      cases present
      exact serves

theorem calls_record (recorded : Recorded) (label : Label) :
    (machine.record recorded label).calls =
      recorded.calls ++ (startedCall recorded.state label).toList :=
  rfl

theorem calls_record_of_none (starts : startedCall recorded.state label = none) :
    (machine.record recorded label).calls = recorded.calls := by
  rw [calls_record, starts, Option.toList_none, List.append_nil]

theorem consistent_record (consistent : Consistent recorded) (label : Label) :
    Consistent (machine.record recorded label) := by
  cases effect_step recorded.state label with
  | idle starts commits table transactions =>
      have calls := calls_record_of_none starts
      constructor
      · rw [calls, consistent.sameLength]
        exact congrArg List.length transactions.symm
      · intro index call transaction called present
        rw [calls] at called
        exact
          consistent.serves index call transaction called (transactions ▸ present)
  | started call transaction starts commits table transactions serves =>
      refine consistent.of_spawn ?_ transactions serves
      rw [calls_record, starts, Option.toList_some]
  | moved index old new starts commits table found transactions _ serves =>
      exact
        consistent.of_set found (calls_record_of_none starts) transactions serves
  | closed index now toClose locked starts commits found table transactions =>
      exact
        consistent.of_set found (calls_record_of_none starts) transactions
          fun _ _ => trivial
  | inserted index rows starts commits found table transactions =>
      exact
        consistent.of_set found (calls_record_of_none starts) transactions
          fun _ _ => trivial

/-- The transaction of a call that has returned stays as it is. -/
theorem transaction_step_of_answered {db : ReadCommitted}
    {transaction : Transaction} {answer : MemoryAnswer}
    (found : db.transactions[index]? = some transaction)
    (answered : transaction.answer = some answer) :
    (step db label).transactions[index]? = some transaction := by
  have kept : ∀ (other : Nat) (old new : Transaction),
      db.transactions[other]? = some old → old.answer = none →
        (db.transactions.set other new)[index]? = some transaction := by
    intro other old new present unanswered
    have different : other ≠ index := by
      rintro rfl
      cases present.symm.trans found
      rw [answered] at unanswered
      cases unanswered
    rw [List.getElem?_set_ne different, found]
  cases effect_step db label with
  | idle starts commits table transactions => rw [transactions, found]
  | started call new starts commits table transactions =>
      rw [transactions,
        List.getElem?_append_left (List.getElem?_eq_some_iff.mp found).1, found]
  | moved other old new starts commits table present transactions unanswered =>
      rw [transactions, kept other old new present unanswered]
  | closed other now toClose locked starts commits present table transactions =>
      rw [transactions, kept other _ _ present rfl]
  | inserted other rows starts commits present table transactions =>
      rw [transactions, kept other _ _ present rfl]

/-- An answer that was given stays. -/
theorem answerOf_step {db : ReadCommitted} {answer : MemoryAnswer}
    (given : db.answerOf index = some answer) :
    (step db label).answerOf index = some answer := by
  unfold answerOf at given ⊢
  obtain ⟨transaction, found, answered⟩ := Option.bind_eq_some_iff.mp given
  rw [transaction_step_of_answered found answered, Option.bind_some, answered]

/-- What is chosen after one transaction has moved. -/
theorem closingOf_of_set {db after : ReadCommitted} {other : Nat}
    {old new : Transaction} (found : db.transactions[other]? = some old)
    (transactions : after.transactions = db.transactions.set other new) :
    after.closingOf index =
      if other = index then new.closing else db.closingOf index := by
  unfold closingOf
  rw [transactions]
  by_cases same : other = index
  · subst same
    have inside := (List.getElem?_eq_some_iff.mp found).1
    rw [if_pos rfl, List.getElem?_set_self inside, Option.bind_some]
  · rw [if_neg same, List.getElem?_set_ne same]

/-- The rows of an update were chosen before the step, or they are chosen by it. -/
theorem Consistent.closing_cases (consistent : Consistent recorded)
    {now : Timestamp} {toClose : List Uuid} {store : PgVectorMemoryStore}
    {predicate : MemoryPredicate}
    (closing :
      (step recorded.state label).closingOf index = some (now, toClose))
    (called :
      (machine.record recorded label).calls[index]? =
        some (.invalidate store predicate now)) :
    recorded.state.committedCall label ≠ some index ∧
        recorded.state.closingOf index = some (now, toClose) ∧
        recorded.calls[index]? = some (.invalidate store predicate now) ∨
      (step recorded.state label).table = recorded.state.table ∧
        store.chooseIds predicate recorded.state.table = .ok toClose := by
  cases effect_step recorded.state label with
  | idle starts commits table transactions =>
      rw [calls_record_of_none starts] at called
      rw [closingOf, transactions] at closing
      exact Or.inl ⟨by simp [commits], closing, called⟩
  | started call transaction starts commits table transactions _ waits =>
      rw [closingOf, transactions] at closing
      obtain ⟨present, found, chosen⟩ := Option.bind_eq_some_iff.mp closing
      by_cases old : index < recorded.state.transactions.length
      · rw [List.getElem?_append_left old] at found
        rw [calls_record, List.getElem?_append_left (consistent.sameLength ▸ old)]
          at called
        refine Or.inl ⟨by simp [commits], ?_, called⟩
        rw [closingOf, found, Option.bind_some, chosen]
      · rw [List.getElem?_append_right (Nat.not_lt.mp old)] at found
        have last := List.mem_of_getElem? found
        rw [List.mem_singleton.mp last, waits] at chosen
        cases chosen
  | moved other old new starts commits table found transactions _ serves selects =>
      rw [calls_record_of_none starts] at called
      rw [closingOf_of_set found transactions] at closing
      split at closing
      · rename_i same
        subst same
        rcases selects now toClose closing with before | ⟨_, _, rfl, chosen⟩
        · refine Or.inl ⟨by simp [commits], ?_, called⟩
          rw [closingOf, found, Option.bind_some, before]
        · have begun := consistent.serves other _ _ called found
          cases begun
          exact Or.inr ⟨table, chosen⟩
      · exact Or.inl ⟨by simp [commits], closing, called⟩
  | closed other closedAt ids locked starts commits found table transactions =>
      rw [calls_record_of_none starts] at called
      rw [closingOf_of_set found transactions] at closing
      split at closing
      · cases closing
      · rename_i different
        exact Or.inl ⟨by simp [commits, different], closing, called⟩
  | inserted other rows starts commits found table transactions =>
      rw [calls_record_of_none starts] at called
      rw [closingOf_of_set found transactions] at closing
      split at closing
      · cases closing
      · rename_i different
        exact Or.inl ⟨by simp [commits, different], closing, called⟩

end Step

/-- The recording of every run is in order. -/
theorem lawful : machine.Lawful Consistent where
  quiet recorded label _ quiet := by
    cases effect_step recorded.state label with
    | idle starts commits table => exact table
    | started call transaction starts commits table => exact table
    | moved index old new starts commits table => exact table
    | closed index now toClose locked starts commits =>
        cases quiet.symm.trans commits
    | inserted index rows starts commits =>
        cases quiet.symm.trans commits
  stays _ _ _ _ _ given := answerOf_step given
  started recorded label index consistent committed := by
    have inside : ∀ {transaction},
        recorded.state.transactions[index]? = some transaction →
          index < recorded.calls.length := by
      intro transaction found
      rw [consistent.sameLength]
      exact (List.getElem?_eq_some_iff.mp found).1
    cases effect_step recorded.state label with
    | idle starts commits => cases committed.symm.trans commits
    | started call transaction starts commits => cases committed.symm.trans commits
    | moved other old new starts commits => cases committed.symm.trans commits
    | closed other now toClose locked starts commits found =>
        cases committed.symm.trans commits
        exact inside found
    | inserted other rows starts commits found =>
        cases committed.symm.trans commits
        exact inside found
  kept _ label consistent := consistent_record consistent label

end ReadCommitted

end FableHarness
