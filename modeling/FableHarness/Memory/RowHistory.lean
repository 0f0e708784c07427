import FableHarness.Memory.RecordedCalls

/-!
# Where a row comes from, and who closed it

Under every interleaving, no row is deleted or rewritten: of a row only
`valid_to` changes, and it never becomes null again.  Every row goes back to an
item of a `remember` call that returned, and every `valid_to` to an `invalidate`
call that returned, counted the row, and whose predicate accepted it.
-/

namespace FableHarness

open LabelledRun PgVectorMemoryStore

/-- The row at a later time: nothing but its `valid_to` may have changed, and a
closed row is not open again. -/
structure Aged (old new : MemoryRow) : Prop where
  frozen : new = { old with validTo := new.validTo }
  staysClosed : old.validTo.isSome → new.validTo.isSome

namespace Aged

theorem refl (row : MemoryRow) : Aged row row := ⟨rfl, id⟩

theorem trans {first second third : MemoryRow} (earlier : Aged first second)
    (later : Aged second third) : Aged first third where
  frozen := by
    rw [later.frozen, earlier.frozen]
  staysClosed closed := later.staysClosed (earlier.staysClosed closed)

theorem closeRow (now : Timestamp) (ids : List Uuid) (row : MemoryRow) :
    Aged row (PgVectorMemoryStore.closeRow now ids row) := by
  unfold PgVectorMemoryStore.closeRow
  split
  · exact ⟨rfl, fun _ => rfl⟩
  · exact refl row

end Aged

/-- Every row is still in its place. -/
def MemoryTable.Retains (before after : MemoryTable) : Prop :=
  ∀ (place : Nat) (old : MemoryRow), before.rows[place]? = some old →
    ∃ new, after.rows[place]? = some new ∧ Aged old new

namespace MemoryTable

theorem retains_refl (table : MemoryTable) : table.Retains table :=
  fun _ old found => ⟨old, found, Aged.refl old⟩

theorem Retains.trans {first second third : MemoryTable}
    (earlier : first.Retains second) (later : second.Retains third) :
    first.Retains third := by
  intro place old found
  obtain ⟨middle, foundMiddle, aged⟩ := earlier place old found
  obtain ⟨new, foundNew, agedLater⟩ := later place middle foundMiddle
  exact ⟨new, foundNew, aged.trans agedLater⟩

theorem retains_closeRows (table : MemoryTable) (now : Timestamp)
    (ids : List Uuid) : table.Retains (closeRows table now ids) := by
  intro place old found
  refine ⟨closeRow now ids old, ?_, Aged.closeRow now ids old⟩
  rw [rows_closeRows, List.getElem?_map, found]
  rfl

theorem retains_insertAll (table : MemoryTable) (rows : List MemoryRow) :
    table.Retains (table.insertAll rows) := by
  obtain ⟨added, grown, _⟩ := table.rows_insertAll rows
  intro place old found
  refine ⟨old, ?_, Aged.refl old⟩
  rw [grown, List.getElem?_append_left (List.getElem?_eq_some_iff.mp found).1, found]

end MemoryTable

namespace ReadCommitted

/-! ## What the calls account for -/

/-- The row was there from the start, or a `remember` that returned has inserted
it. -/
def Originates (start : MemoryTable) (recorded : Recorded) (row : MemoryRow) :
    Prop :=
  (∃ old ∈ start.rows, Aged old row) ∨
    ∃ (index : Nat) (store : PgVectorMemoryStore) (items : List MemoryItem)
        (scope : String) (now : Timestamp) (item : MemoryItem) (vector : List ℚ)
        (origin : MemoryRow),
      recorded.calls[index]? = some (.remember store items scope now) ∧
        recorded.state.transactions[index]? = some .remembered ∧
          item ∈ items ∧ RowOf store now scope item vector origin ∧
            Aged origin row

/-- The row is in the predicate's scope, and the predicate accepts it. -/
def Accepted (predicate : MemoryPredicate) (row : MemoryRow) : Prop :=
  row.scope = predicate.scope ∧
    predicate.matchItem (rowToItem row predicate.scope) = .ok true

/-- An `invalidate` that began at `closedAt` and returned has counted the row, and
its predicate accepts it. -/
def ClosedByCall (recorded : Recorded) (row : MemoryRow) (closedAt : Timestamp) :
    Prop :=
  ∃ (index : Nat) (store : PgVectorMemoryStore) (predicate : MemoryPredicate)
      (toClose : List Uuid),
    recorded.calls[index]? = some (.invalidate store predicate closedAt) ∧
      recorded.state.transactions[index]? = some (.invalidated toClose) ∧
        row.id ∈ toClose ∧ Accepted predicate row

/-- The calls account for the row and for its `valid_to`. -/
structure AccountsFor (start : MemoryTable) (recorded : Recorded)
    (row : MemoryRow) : Prop where
  origin : Originates start recorded row
  closing :
    ∀ closedAt, row.validTo = some closedAt →
      row ∈ start.rows ∨ ClosedByCall recorded row closedAt

/-- What is known of the rows of a table that a run has led to. -/
structure Documented (start : MemoryTable) (recorded : Recorded) : Prop where
  consistent : Consistent recorded
  rows : ∀ row ∈ recorded.state.table.rows, AccountsFor start recorded row
  /-- What is about to be closed was accepted. -/
  chosen :
    ∀ index now toClose store predicate,
      recorded.state.closingOf index = some (now, toClose) →
        recorded.calls[index]? = some (.invalidate store predicate now) →
          ∀ id ∈ toClose,
            ∃ row ∈ recorded.state.table.rows, row.id = id ∧ Accepted predicate row

section Step

variable {start : MemoryTable} {recorded after : Recorded} {row : MemoryRow}

/-- What a later recording still knows of an earlier one. -/
structure Extends (recorded after : Recorded) : Prop where
  calls :
    ∀ (index : Nat) call, recorded.calls[index]? = some call →
      after.calls[index]? = some call
  returned :
    ∀ (index : Nat) transaction answer,
      recorded.state.transactions[index]? = some transaction →
        transaction.answer = some answer →
          after.state.transactions[index]? = some transaction

theorem extends_record (recorded : Recorded) (label : Label) :
    Extends recorded (machine.record recorded label) where
  calls index call found := by
    rw [calls_record,
      List.getElem?_append_left (List.getElem?_eq_some_iff.mp found).1, found]
  returned _ _ _ found answered := transaction_step_of_answered found answered

theorem AccountsFor.later (accounts : AccountsFor start recorded row)
    (extended : Extends recorded after) : AccountsFor start after row where
  origin := by
    rcases accounts.origin with old |
      ⟨index, store, items, scope, now, item, vector, origin, called, returned, rest⟩
    · exact Or.inl old
    · exact
        Or.inr
          ⟨index, store, items, scope, now, item, vector, origin,
            extended.calls _ _ called, extended.returned _ _ _ returned rfl, rest⟩
  closing closedAt closed := by
    rcases accounts.closing closedAt closed with old |
      ⟨index, store, predicate, toClose, called, returned, rest⟩
    · exact Or.inl old
    · exact
        Or.inr
          ⟨index, store, predicate, toClose, extended.calls _ _ called,
            extended.returned _ _ _ returned rfl, rest⟩

theorem Originates.aged {new : MemoryRow} (origin : Originates start recorded row)
    (aged : Aged row new) : Originates start recorded new := by
  rcases origin with ⟨old, inStart, before⟩ |
    ⟨index, store, items, scope, now, item, vector, origin, called, returned,
      member, isRow, before⟩
  · exact Or.inl ⟨old, inStart, before.trans aged⟩
  · exact
      Or.inr
        ⟨index, store, items, scope, now, item, vector, origin, called, returned,
          member, isRow, before.trans aged⟩

/-- A predicate sees nothing of a row that can change. -/
theorem Accepted.aged {predicate : MemoryPredicate} {new : MemoryRow}
    (accepted : Accepted predicate row) (aged : Aged row new) :
    Accepted predicate new := by
  rw [aged.frozen]
  exact accepted

/-- Rows that were accepted are still there after a step, and still accepted. -/
theorem exists_accepted_of_retains {before later : MemoryTable}
    (retains : before.Retains later) {predicate : MemoryPredicate} {id : Uuid}
    (present : ∃ row ∈ before.rows, row.id = id ∧ Accepted predicate row) :
    ∃ row ∈ later.rows, row.id = id ∧ Accepted predicate row := by
  obtain ⟨row, member, sameId, accepted⟩ := present
  obtain ⟨place, found⟩ := List.mem_iff_getElem?.mp member
  obtain ⟨new, foundNew, aged⟩ := retains place row found
  refine ⟨new, List.mem_of_getElem? foundNew, ?_, accepted.aged aged⟩
  rw [aged.frozen]
  exact sameId

/-- Everything the predicate chose is accepted. -/
theorem accepted_of_mem_chooseIds {store : PgVectorMemoryStore}
    {predicate : MemoryPredicate} {table : MemoryTable} {toClose : List Uuid}
    (chosen : store.chooseIds predicate table = .ok toClose) {id : Uuid}
    (member : id ∈ toClose) :
    ∃ row ∈ table.rows, row.id = id ∧ Accepted predicate row := by
  obtain ⟨_, selected⟩ := selectIds_eq_ok_iff.mp (chooseIds_eq_ok.mp chosen).2
  rw [selected] at member
  obtain ⟨row, matched, sameId⟩ := List.mem_map.mp member
  obtain ⟨live, answers⟩ := List.mem_filter.mp matched
  obtain ⟨inTable, inScope⟩ := List.mem_filter.mp live
  simp only [isLiveIn, Bool.and_eq_true, beq_iff_eq] at inScope
  refine ⟨row, inTable, sameId, inScope.1, ?_⟩
  cases verdict : predicate.verdict row with
  | error exc =>
      rw [verdict] at answers
      cases answers
  | ok answer =>
      rw [verdict] at answers
      cases answers
      exact verdict

/-! ## One step -/

/-- The table of an earlier state is retained. -/
def RowsRetained (before after : ReadCommitted) : Prop :=
  before.table.Retains after.table

instance : Std.Refl RowsRetained where
  refl db := MemoryTable.retains_refl db.table

instance : IsTrans ReadCommitted RowsRetained where
  trans _ _ _ earlier later := earlier.trans later

theorem retains_step (db : ReadCommitted) (label : Label) :
    RowsRetained db (step db label) := by
  unfold RowsRetained
  cases effect_step db label with
  | idle starts commits table =>
      rw [table]
      exact MemoryTable.retains_refl db.table
  | started call transaction starts commits table =>
      rw [table]
      exact MemoryTable.retains_refl db.table
  | moved index old new starts commits table =>
      rw [table]
      exact MemoryTable.retains_refl db.table
  | closed index now toClose locked starts commits found table =>
      rw [table]
      exact MemoryTable.retains_closeRows db.table now toClose
  | inserted index rows starts commits found table =>
      rw [table]
      exact MemoryTable.retains_insertAll db.table rows

/-- Rows that a step has left as they are. -/
theorem Documented.rows_of_same (documented : Documented start recorded)
    {label : Label} (table : (step recorded.state label).table = recorded.state.table) :
    ∀ row ∈ (machine.record recorded label).state.table.rows,
      AccountsFor start (machine.record recorded label) row := by
  intro row member
  have before : row ∈ recorded.state.table.rows := table ▸ member
  exact (documented.rows row before).later (extends_record recorded label)

/-- The rows after an update. -/
theorem Documented.rows_of_closed (documented : Documented start recorded)
    {label : Label} {index : Nat} {now : Timestamp} {toClose locked : List Uuid}
    (found :
      recorded.state.transactions[index]? = some (.updating now toClose locked))
    (table :
      (step recorded.state label).table = closeRows recorded.state.table now toClose)
    (transactions :
      (step recorded.state label).transactions =
        recorded.state.transactions.set index (.invalidated toClose)) :
    ∀ row ∈ (machine.record recorded label).state.table.rows,
      AccountsFor start (machine.record recorded label) row := by
  have extended := extends_record recorded label
  obtain ⟨_, called, _, store, predicate, rfl⟩ :=
    documented.consistent.exists_call found
  have closing : recorded.state.closingOf index = some (now, toClose) := by
    rw [closingOf, found]
    rfl
  have returned :
      (step recorded.state label).transactions[index]? =
        some (.invalidated toClose) := by
    rw [transactions, List.getElem?_set_self (List.getElem?_eq_some_iff.mp found).1]
  intro row member
  have closed : row ∈ (closeRows recorded.state.table now toClose).rows :=
    table ▸ member
  rw [rows_closeRows] at closed
  obtain ⟨old, inTable, rfl⟩ := List.mem_map.mp closed
  have before := (documented.rows old inTable).later extended
  by_cases counted : old.id ∈ toClose
  · refine ⟨before.origin.aged (Aged.closeRow now toClose old), ?_⟩
    intro closedAt validTo
    rw [closeRow, if_pos counted] at validTo
    cases validTo
    obtain ⟨other, otherInTable, sameId, accepted⟩ :=
      documented.chosen index now toClose store predicate closing called _ counted
    cases recorded.state.table.eq_of_key_eq otherInTable inTable sameId
    refine
      Or.inr
        ⟨index, store, predicate, toClose, extended.calls _ _ called, returned, ?_,
          accepted.aged (Aged.closeRow now toClose old)⟩
    rw [id_closeRow]
    exact counted
  · rw [closeRow_of_not_mem counted]
    exact before

/-- The rows after an insertion. -/
theorem Documented.rows_of_inserted (documented : Documented start recorded)
    {label : Label} {index : Nat} {rows : List MemoryRow}
    (found : recorded.state.transactions[index]? = some (.inserting rows))
    (table : (step recorded.state label).table = recorded.state.table.insertAll rows)
    (transactions :
      (step recorded.state label).transactions =
        recorded.state.transactions.set index .remembered) :
    ∀ row ∈ (machine.record recorded label).state.table.rows,
      AccountsFor start (machine.record recorded label) row := by
  have extended := extends_record recorded label
  obtain ⟨_, called, store, items, scope, now, rfl, planned⟩ :=
    documented.consistent.exists_call found
  have returned :
      (step recorded.state label).transactions[index]? = some .remembered := by
    rw [transactions, List.getElem?_set_self (List.getElem?_eq_some_iff.mp found).1]
  intro row member
  have grown : row ∈ (recorded.state.table.insertAll rows).rows := table ▸ member
  rcases KeyedTable.mem_or_mem_of_mem_insertAll grown with old | new
  · exact (documented.rows row old).later extended
  · obtain ⟨item, itemMember, vector, built⟩ := item_of_mem_plannedRows planned new
    have isRow := rowOf_of_buildRow built
    constructor
    · exact
        Or.inr
          ⟨index, store, items, scope, now, item, vector, row,
            extended.calls _ _ called, returned, itemMember, isRow, Aged.refl row⟩
    · intro closedAt closed
      rw [isRow.isOpen] at closed
      cases closed

theorem documented_record (documented : Documented start recorded) (label : Label) :
    Documented start (machine.record recorded label) where
  consistent := consistent_record documented.consistent label
  rows := by
    cases effect_step recorded.state label with
    | idle starts commits table => exact documented.rows_of_same table
    | started call transaction starts commits table =>
        exact documented.rows_of_same table
    | moved index old new starts commits table => exact documented.rows_of_same table
    | closed index now toClose locked starts commits found table transactions =>
        exact documented.rows_of_closed found table transactions
    | inserted index rows starts commits found table transactions =>
        exact documented.rows_of_inserted found table transactions
  chosen := by
    intro index now toClose store predicate closing called id member
    apply exists_accepted_of_retains (retains_step recorded.state label)
    rcases documented.consistent.closing_cases closing called with
      ⟨_, before, begun⟩ | ⟨_, chosen⟩
    · exact documented.chosen index now toClose store predicate before begun id member
    · exact accepted_of_mem_chooseIds chosen member

end Step

/-! ## Whole runs -/

/-- Under every interleaving, every row of the table is still there at any later
time, with nothing changed but a `valid_to` that may have been set, and the
calls account for every row and for its `valid_to`. -/
theorem rows_never_lost_or_rewritten (table : MemoryTable) (clock : Timestamp)
    (schedule : List Label) :
    (∀ earlier later,
      schedule = earlier ++ later →
        (run step { table, clock } earlier).table.Retains
          (run step { table, clock } schedule).table) ∧
      ∀ row ∈ (run step { table, clock } schedule).table.rows,
        AccountsFor table (machine.recordedRun { table, clock } schedule) row := by
  constructor
  · rintro earlier later rfl
    rw [run_append]
    exact run_related retains_step (run step { table, clock } earlier) later
  · have begins : Documented table { state := { table, clock } } :=
      { consistent := consistent_start table clock
        rows := fun row member =>
          ⟨Or.inl ⟨row, member, Aged.refl row⟩, fun _ _ => Or.inl member⟩
        chosen := fun index now toClose store predicate closing => by cases closing }
    have documented : Documented table (machine.recordedRun { table, clock } schedule) := by
      apply run_invariant machine.record _ begins schedule
      exact fun recorded label holds => documented_record holds label
    have state := machine.state_recordedRun { table, clock } schedule
    intro row member
    apply documented.rows
    rw [state]
    exact member

end ReadCommitted

end FableHarness
