import Mathlib.Data.List.Perm.Subperm
import FableHarness.Memory.RecordedCalls

/-!
# Serial and concurrent writers

`remember` never looks at the table before it inserts, so it always acts as if it
ran alone.  An `invalidate` chooses its rows at one time and closes them at
another.  Concurrent writers are serializable in the order of their commits
exactly if every update still closes what its predicate would choose.
-/

namespace FableHarness

open LabelledRun PgVectorMemoryStore

namespace ReadCommitted

/-- An update that commits closes the rows that its predicate would choose in the
table of the moment. -/
def ClosesCurrent (recorded : Recorded) (label : Label) : Prop :=
  ∀ index now toClose store predicate,
    recorded.state.committedCall label = some index →
      recorded.state.closingOf index = some (now, toClose) →
        recorded.calls[index]? = some (.invalidate store predicate now) →
          ∃ ids,
            store.chooseIds predicate recorded.state.table = .ok ids ∧
              ids.Perm toClose

/-! ## One commit -/

section Commit

variable {table : MemoryTable} {now : Timestamp} {ids toClose : List Uuid}

theorem closeRows_congr (perm : ids.Perm toClose) :
    closeRows table now ids = closeRows table now toClose := by
  apply KeyedTable.ext
  rw [rows_closeRows, rows_closeRows]
  apply List.map_congr_left
  intro row _
  unfold closeRow
  simp only [perm.mem_iff]

/-- Closing other rows than the chosen ones leaves another table. -/
theorem subset_of_closeRows_eq {store : PgVectorMemoryStore}
    {predicate : MemoryPredicate}
    (chosen : store.chooseIds predicate table = .ok ids)
    (same : closeRows table now toClose = closeRows table now ids) :
    ids ⊆ toClose := by
  intro id member
  obtain ⟨row, inTable, rfl, live⟩ := live_of_mem_chooseIds chosen member
  have isOpen : row.validTo = none := by
    simp only [isLiveIn, Bool.and_eq_true, Option.isNone_iff_eq_none] at live
    exact live.2
  have closed : closeRow now ids row ∈ (closeRows table now toClose).rows := by
    rw [same, rows_closeRows]
    exact List.mem_map_of_mem inTable
  rw [rows_closeRows] at closed
  obtain ⟨other, otherInTable, equal⟩ := List.mem_map.mp closed
  have sameId := congrArg MemoryRow.id equal
  rw [id_closeRow, id_closeRow] at sameId
  cases table.eq_of_key_eq otherInTable inTable sameId
  by_contra absent
  have validTo := congrArg MemoryRow.validTo equal
  rw [closeRow_of_not_mem absent, closeRow, if_pos member, isOpen] at validTo
  cases validTo

theorem answerOf_of_set {db after : ReadCommitted} {index : Nat}
    {old new : Transaction} (found : db.transactions[index]? = some old)
    (transactions : after.transactions = db.transactions.set index new) :
    after.answerOf index = new.answer := by
  have inside := (List.getElem?_eq_some_iff.mp found).1
  unfold answerOf
  rw [transactions, List.getElem?_set_self inside, Option.bind_some]

variable {recorded : Recorded} {label : Label}

/-- A commit acts atomically exactly if what it closes is current. -/
theorem actsAtomically_iff (consistent : Consistent recorded) :
    machine.ActsAtomically recorded label ↔ ClosesCurrent recorded label := by
  unfold CommitOrder.Machine.ActsAtomically ClosesCurrent
  simp only [machine]
  cases effect_step recorded.state label with
  | idle starts commits => simp [commits]
  | started call transaction starts commits => simp [commits]
  | moved index old new starts commits => simp [commits]
  | closed index now toClose locked starts commits found table transactions =>
      have answered :
          (step recorded.state label).answerOf index =
            some (.invalidated (.ok toClose.length)) :=
        answerOf_of_set found transactions
      have closing : recorded.state.closingOf index = some (now, toClose) := by
        rw [closingOf, found]
        rfl
      obtain ⟨_, called, nodup, store, predicate, rfl⟩ :=
        consistent.exists_call found
      constructor
      · intro atomic _ _ _ _ _ committed closing' called'
        cases commits.symm.trans committed
        cases closing.symm.trans closing'
        cases called.symm.trans called'
        obtain ⟨answer, left⟩ := atomic index _ commits called
        rw [answered] at answer
        rw [table] at left
        cases chosen : store.chooseIds predicate recorded.state.table with
        | error exc =>
            rw [StoreCall.perform_invalidate_of_raised chosen] at answer
            cases answer
        | ok ids =>
            rw [StoreCall.perform_invalidate_of_chosen chosen] at answer left
            have sameLength : toClose.length = ids.length := by
              simpa using answer
            have subset := subset_of_closeRows_eq chosen left
            refine ⟨ids, rfl, ?_⟩
            exact
              (List.subperm_of_subset (nodup_of_chooseIds chosen)
                subset).perm_of_length_le sameLength.le
      · intro current other call committed started
        cases commits.symm.trans committed
        cases called.symm.trans started
        obtain ⟨ids, chosen, perm⟩ :=
          current index now toClose store predicate commits closing called
        rw [StoreCall.perform_invalidate_of_chosen chosen, answered, table,
          perm.length_eq, closeRows_congr perm]
        exact ⟨rfl, rfl⟩
  | inserted index rows starts commits found table transactions =>
      have answered :
          (step recorded.state label).answerOf index =
            some (.remembered (.ok ())) :=
        answerOf_of_set found transactions
      obtain ⟨_, called, store, items, scope, now, rfl, planned⟩ :=
        consistent.exists_call found
      refine iff_of_true ?_ ?_
      · intro other call committed started
        cases commits.symm.trans committed
        cases called.symm.trans started
        rw [StoreCall.perform_remember_of_planned planned, answered, table]
        exact ⟨rfl, rfl⟩
      · intro other _ _ _ _ committed _ called'
        cases commits.symm.trans committed
        cases called.symm.trans called'

end Commit

/-- Concurrent writers leave the table, and give the answers, of the same calls
made one after the other in the order of their commits, in every state of the
run, exactly if every update that commits closes what is current. -/
theorem writers_serializable_iff (table : MemoryTable) (clock : Timestamp)
    (schedule : List Label) :
    machine.Serializable { table, clock } schedule ↔
      Permitted machine.record ClosesCurrent { state := { table, clock } }
        schedule := by
  have begins := consistent_start table clock
  rw [lawful.serializable_iff begins schedule]
  unfold Permitted
  refine forall_congr' fun initial => forall_congr' fun label => ?_
  refine forall_congr' fun rest => imp_congr_right fun _ => ?_
  exact actsAtomically_iff (lawful.valid_recordedRun begins initial)

/-! ## Scopes that are worked on one at a time -/

/-- When a call commits, no other update with rows chosen works on its scope. -/
def UpdatesElsewhere (recorded : Recorded) (label : Label) : Prop :=
  ∀ index ∈ recorded.state.committedCall label,
    ∀ call ∈ recorded.calls[index]?,
      ∀ other ∈ (recorded.calls.zip recorded.state.transactions).zipIdx,
        other.2 ≠ index → other.1.2.isUpdating = true →
          other.1.1.scope ≠ call.scope

instance (recorded : Recorded) (label : Label) :
    Decidable (UpdatesElsewhere recorded label) := by
  unfold UpdatesElsewhere
  infer_instance

/-- Whatever an update has chosen, its predicate would still choose. -/
def ChoicesCurrent (recorded : Recorded) : Prop :=
  ∀ index now toClose store predicate,
    recorded.state.closingOf index = some (now, toClose) →
      recorded.calls[index]? = some (.invalidate store predicate now) →
        store.chooseIds predicate recorded.state.table = .ok toClose

section Scopes

variable {recorded : Recorded} {label : Label}

theorem UpdatesElsewhere.scope_ne (elsewhere : UpdatesElsewhere recorded label)
    {index other : Nat} {call otherCall : StoreCall} {now : Timestamp}
    {toClose : List Uuid}
    (commits : recorded.state.committedCall label = some index)
    (called : recorded.calls[index]? = some call)
    (otherCalled : recorded.calls[other]? = some otherCall)
    (closing : recorded.state.closingOf other = some (now, toClose))
    (different : other ≠ index) : otherCall.scope ≠ call.scope := by
  obtain ⟨transaction, present, chosen⟩ := Option.bind_eq_some_iff.mp closing
  have paired :
      ((otherCall, transaction), other) ∈
        (recorded.calls.zip recorded.state.transactions).zipIdx := by
    rw [List.mem_zipIdx_iff_getElem?, List.getElem?_zip_eq_some]
    exact ⟨otherCalled, present⟩
  apply elsewhere index commits call called _ paired different
  rw [Transaction.isUpdating, chosen]
  rfl

theorem chooseIds_congr {store : PgVectorMemoryStore} {predicate : MemoryPredicate}
    {left right : MemoryTable}
    (same : selectLive left predicate.scope = selectLive right predicate.scope) :
    store.chooseIds predicate left = store.chooseIds predicate right := by
  unfold chooseIds
  rw [same]

/-- Closing rows of one scope leaves the live rows of another alone. -/
theorem selectLive_closeRows_of_ne {store : PgVectorMemoryStore}
    {predicate : MemoryPredicate} {table : MemoryTable} {toClose : List Uuid}
    {scope : String} (now : Timestamp)
    (chosen : store.chooseIds predicate table = .ok toClose)
    (different : scope ≠ predicate.scope) :
    selectLive (closeRows table now toClose) scope = selectLive table scope := by
  have untouched : ∀ row ∈ table.rows, row.scope = scope → row.id ∉ toClose := by
    intro row inTable inScope member
    obtain ⟨other, otherInTable, sameId, live⟩ :=
      live_of_mem_chooseIds chosen member
    cases table.eq_of_key_eq otherInTable inTable sameId
    simp only [isLiveIn, Bool.and_eq_true, beq_iff_eq] at live
    exact different (inScope.symm.trans live.1)
  unfold selectLive
  rw [rows_closeRows, List.filter_map]
  have sameTest : ∀ row ∈ table.rows,
      (isLiveIn scope ∘ closeRow now toClose) row = isLiveIn scope row := by
    intro row inTable
    rw [Function.comp_apply]
    by_cases inScope : row.scope = scope
    · rw [closeRow_of_not_mem (untouched row inTable inScope)]
    · have outside : (row.scope == scope) = false := beq_false_of_ne inScope
      simp [isLiveIn, outside]
  rw [List.filter_congr sameTest]
  apply map_closeRow_of_disjoint
  intro row member
  obtain ⟨inTable, live⟩ := List.mem_filter.mp member
  simp only [isLiveIn, Bool.and_eq_true, beq_iff_eq] at live
  exact untouched row inTable live.1

/-- Inserting rows of one scope leaves the live rows of another alone. -/
theorem selectLive_insertAll_of_ne {store : PgVectorMemoryStore}
    {items : List MemoryItem} {now : Timestamp} {rows : List MemoryRow}
    {scope itemScope : String} (table : MemoryTable)
    (planned : store.plannedRows now items itemScope = .ok rows)
    (different : scope ≠ itemScope) :
    selectLive (table.insertAll rows) scope = selectLive table scope := by
  apply KeyedTable.filter_insertAll_of_outside
  intro row member
  obtain ⟨item, _, vector, built⟩ := item_of_mem_plannedRows planned member
  have inScope := (rowOf_of_buildRow built).inScope
  simp [isLiveIn, inScope, different.symm]

/-- Choices stay current as long as what commits works elsewhere. -/
theorem choicesCurrent_record (consistent : Consistent recorded)
    (elsewhere : UpdatesElsewhere recorded label)
    (current : ChoicesCurrent recorded) :
    ChoicesCurrent (machine.record recorded label) := by
  intro index now toClose store predicate closing called
  change store.chooseIds predicate (step recorded.state label).table = .ok toClose
  rcases consistent.closing_cases closing called with
    ⟨different, closing, called⟩ | ⟨table, chosen⟩
  · have before := current index now toClose store predicate closing called
    cases effect_step recorded.state label with
    | idle starts commits table => rw [table, before]
    | started call transaction starts commits table => rw [table, before]
    | moved other old new starts commits table => rw [table, before]
    | closed other closedAt ids locked starts commits found table =>
        have notIndex : index ≠ other := by
          rintro rfl
          exact different commits
        obtain ⟨_, otherCalled, _, otherStore, otherPredicate, rfl⟩ :=
          consistent.exists_call found
        have chosen :
            otherStore.chooseIds otherPredicate recorded.state.table = .ok ids := by
          apply current other closedAt ids otherStore otherPredicate _ otherCalled
          rw [closingOf, found]
          rfl
        have apart := elsewhere.scope_ne commits otherCalled called closing notIndex
        rw [table, ← before]
        exact chooseIds_congr (selectLive_closeRows_of_ne closedAt chosen apart)
    | inserted other rows starts commits found table =>
        have notIndex : index ≠ other := by
          rintro rfl
          exact different commits
        obtain ⟨_, otherCalled, otherStore, items, scope, stamped, rfl, planned⟩ :=
          consistent.exists_call found
        have apart := elsewhere.scope_ne commits otherCalled called closing notIndex
        rw [table, ← before]
        exact
          chooseIds_congr
            (selectLive_insertAll_of_ne recorded.state.table planned apart)
  · rw [table, chosen]

end Scopes

/-- Writers are serializable if, whenever a call commits, every other update with
rows chosen works on another scope. -/
theorem serializable_of_updates_elsewhere (table : MemoryTable) (clock : Timestamp)
    (schedule : List Label)
    (elsewhere :
      Permitted machine.record UpdatesElsewhere { state := { table, clock } }
        schedule) :
    machine.Serializable { table, clock } schedule := by
  rw [writers_serializable_iff]
  intro initial label rest equality
  have before : Permitted machine.record UpdatesElsewhere
      { state := { table, clock } } initial :=
    permitted_append_left (equality ▸ elsewhere)
  have begins :
      Consistent { state := { table, clock } } ∧
        ChoicesCurrent { state := { table, clock } } := by
    refine ⟨consistent_start table clock, ?_⟩
    intro index now toClose store predicate closing
    cases closing
  have keeps :
      ∀ recorded taken,
        UpdatesElsewhere recorded taken →
          Consistent recorded ∧ ChoicesCurrent recorded →
            Consistent (machine.record recorded taken) ∧
              ChoicesCurrent (machine.record recorded taken) := by
    intro recorded taken permits ⟨consistent, current⟩
    exact
      ⟨consistent_record consistent taken,
        choicesCurrent_record consistent permits current⟩
  have invariant := run_invariant_of_permitted keeps before begins
  intro index now toClose store predicate _ closing called
  exact
    ⟨toClose, invariant.2 index now toClose store predicate closing called,
      List.Perm.refl toClose⟩

/-! ### Two scopes at a time -/

def defaultId : Uuid := ⟨List.replicate 32 ⟨1, by decide⟩, rfl⟩

def clientsId : Uuid := ⟨List.replicate 32 ⟨2, by decide⟩, rfl⟩

def rowIn (id : Uuid) (scope : String) : MemoryRow where
  id := id
  scope := scope
  content := "prefers calls"
  embedding := []
  encoderId := defaultEmbeddingModel
  source := "unknown"
  validFrom := 0

/-- One live row in each of two scopes. -/
def twoScopesTable : MemoryTable :=
  (∅ : MemoryTable).insertAll [rowIn defaultId "default", rowIn clientsId "clients"]

def everythingIn (scope : String) : Label :=
  .begin ⟨plainBackend, defaultEmbeddingModel⟩ ⟨scope, fun _ => .ok true⟩

/-- The updates of two scopes overlap. -/
def twoScopes : List Label :=
  [everythingIn "default", everythingIn "clients", .select 0, .tick 5, .select 1,
    .lock 0 defaultId, .lock 1 clientsId, .commit 1, .commit 0]

theorem two_scopes_serializable :
    machine.Serializable { table := twoScopesTable, clock := 10 } twoScopes :=
  serializable_of_updates_elsewhere twoScopesTable 10 twoScopes (by decide)

end ReadCommitted

end FableHarness
