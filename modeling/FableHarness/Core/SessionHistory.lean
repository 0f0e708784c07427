import Mathlib.Algebra.Order.Ring.Rat
import FableHarness.Core.SessionStatements
import FableHarness.Library.StableRanking

/-!
# The history of a session

`history` lists the rows of a session by `created_at`, newest first.  A row
becomes visible some time after its `created_at`, so what is listed below a row
is settled exactly when no older statement of the session is in flight.
-/

namespace FableHarness

open LabelledRun StableRanking

/-- The order in which a query plan reads rows: it decides between equal times. -/
structure Scan where
  order : List LedgerRow → List LedgerRow
  perm : ∀ rows, (order rows).Perm rows

namespace SessionLedger

/-- `ORDER BY created_at DESC` -/
def listed (scan : Scan) (ledger : SessionLedger) (sessionId : String) :
    List LedgerRow :=
  ranking LedgerRow.createdAt (scan.order (ledger.rowsOf sessionId))

end SessionLedger

namespace PostgresSessionStore

/-- What Postgres makes of `LIMIT $2` with a `bigint` argument. -/
def historyLimit (limit : Int) : Except PyExc Nat :=
  if limit < -(2 ^ 63) ∨ 2 ^ 63 ≤ limit then
    .error (.other "DataError" "invalid input for query argument $2")
  else if limit < 0 then
    .error
      (.other "InvalidRowCountInLimitClauseError" "LIMIT must not be negative")
  else
    .ok limit.toNat

def history (store : PostgresSessionStore) (scan : Scan) (ledger : SessionLedger)
    (sessionId : String) (limit : Int) : Except PyExc (List LedgerRow) := do
  match store.rejectsText sessionId with
  | some exc => .error exc
  | none =>
      let count ← historyLimit limit
      return (ledger.listed scan sessionId).take count

/-- A history fails on its arguments only. -/
theorem history_cases (store : PostgresSessionStore) (scan : Scan)
    (ledger : SessionLedger) (sessionId : String) (limit : Int) :
    store.history scan ledger sessionId limit =
        .ok ((ledger.listed scan sessionId).take limit.toNat) ∨
      (store.rejectsText sessionId ≠ none ∨ limit < 0 ∨ 2 ^ 63 ≤ limit) ∧
        ∃ exc, store.history scan ledger sessionId limit = .error exc := by
  unfold history
  cases rejected : store.rejectsText sessionId with
  | some exc =>
      exact Or.inr ⟨Or.inl (by simp), exc, rfl⟩
  | none =>
      unfold historyLimit
      by_cases outside : limit < -(2 ^ 63) ∨ 2 ^ 63 ≤ limit
      · refine Or.inr ⟨Or.inr ?_, _, by rw [if_pos outside]; rfl⟩
        omega
      · rw [if_neg outside]
        by_cases negative : limit < 0
        · exact Or.inr ⟨Or.inr (Or.inl negative), _, by rw [if_pos negative]; rfl⟩
        · rw [if_neg negative]
          exact Or.inl rfl

end PostgresSessionStore

namespace SessionStatement

/-- The row of a `record_run` that returned. -/
def returnedRow : SessionStatement → Option LedgerRow
  | .answered (.record _ row) (.ok ()) => some row
  | _ => none

/-- The row that a `record_run` under way can still insert. -/
def pendingRow : SessionStatement → Option LedgerRow
  | .sent (.record store row) =>
      if (SessionCall.record store row).rejected = none then some row else none
  | .checked _ row => some row
  | _ => none

theorem pendingRow_sent {call : SessionCall} {row : LedgerRow}
    (pending : (sent call).pendingRow = some row) :
    ∃ store, call = .record store row ∧ call.rejected = none := by
  cases call with
  | ensure store session => cases pending
  | record store inserted =>
      rw [pendingRow] at pending
      by_cases accepted : (SessionCall.record store inserted).rejected = none
      · rw [if_pos accepted] at pending
        cases pending
        exact ⟨store, rfl, accepted⟩
      · rw [if_neg accepted] at pending
        cases pending

end SessionStatement

namespace SessionDb

/-- The rows of the `record_run` calls for a session that have returned. -/
def returnedRows (db : SessionDb) (sessionId : String) : List LedgerRow :=
  (db.statements.filterMap SessionStatement.returnedRow).filter
    fun row => row.record.sessionId = sessionId

/-- The rows of a session that calls under way can still insert. -/
def pendingRows (db : SessionDb) (sessionId : String) : List LedgerRow :=
  (db.statements.filterMap SessionStatement.pendingRow).filter
    fun row => row.record.sessionId = sessionId

/-- What is known of a database whose tables started empty. -/
structure Orderly (db : SessionDb) : Prop where
  returned :
    db.ledger.runRecords.Perm (db.statements.filterMap SessionStatement.returnedRow)
  known :
    ∀ row ∈ db.ledger.runRecords, row.record.sessionId ∈ db.ledger.sessions.keys
  checked :
    ∀ store row,
      .checked store row ∈ db.statements →
        row.record.sessionId ∈ db.ledger.sessions.keys
  /-- No row carries a time to come. -/
  past : ∀ row ∈ db.ledger.runRecords, row.createdAt ≤ db.clock
  stamped :
    ∀ statement ∈ db.statements, ∀ store row,
      statement.call = .record store row → row.createdAt ≤ db.clock

theorem orderly_start (clock : Timestamp) : Orderly { clock } where
  returned := List.Perm.refl []
  known _ member := by cases member
  checked _ _ member := by cases member
  past _ member := by cases member
  stamped _ member := by cases member

section Step

variable {db : SessionDb} {label : Label}

/-- A statement that had not returned a row is replaced. -/
theorem returned_set {statements : List SessionStatement} {index : Nat}
    {old : SessionStatement} (new : SessionStatement)
    (found : statements[index]? = some old) (unreturned : old.returnedRow = none) :
    ((statements.set index new).filterMap SessionStatement.returnedRow).Perm
      (new.returnedRow.toList ++
        statements.filterMap SessionStatement.returnedRow) := by
  induction statements generalizing index with
  | nil => cases found
  | cons head rest inductionHypothesis =>
      cases index with
      | zero =>
          cases found
          rw [List.set_cons_zero, List.filterMap_cons, List.filterMap_cons,
            unreturned]
          cases new.returnedRow with
          | none => exact List.Perm.refl _
          | some row => exact List.Perm.refl _
      | succ index =>
          rw [List.set_cons_succ, List.filterMap_cons, List.filterMap_cons]
          have later := inductionHypothesis found
          cases head.returnedRow with
          | none => exact later
          | some row => exact (later.cons row).trans List.perm_middle.symm

/-- A call without a row to insert returns no row. -/
theorem returnedRow_of_rowToInsert {call : SessionCall}
    (noRow : db.rowToInsert call = none) :
    (SessionStatement.answered call (call.perform db.ledger).1).returnedRow =
      none := by
  cases call with
  | ensure store row => rfl
  | record store row =>
      rcases (SessionCall.record store row).perform_cases db.ledger with
        ⟨exc, performed⟩ | ⟨_, _, isEnsure, _⟩ | ⟨_, _, isRecord, _, _, performed⟩
      · rw [performed]
        rfl
      · cases isEnsure
      · cases isRecord
        simp only [rowToInsert, performed] at noRow
        cases noRow

theorem returnedRow_of_unanswered {statement : SessionStatement}
    (unanswered : statement.answer? = none) : statement.returnedRow = none := by
  cases statement with
  | answered call answer => cases unanswered
  | sent | checked | aborted => rfl

/-- A row becomes visible when its call returns. -/
theorem returned_step
    (returned :
      db.ledger.runRecords.Perm
        (db.statements.filterMap SessionStatement.returnedRow)) :
    (db.step label).ledger.runRecords.Perm
      ((db.step label).statements.filterMap SessionStatement.returnedRow) := by
  cases effect_step db label with
  | idle elapsed starts commits after =>
      rw [after]
      exact returned
  | sent call starts commits stamped after =>
      have silent :
          [SessionStatement.sent call].filterMap SessionStatement.returnedRow = [] :=
        rfl
      rw [after, send, List.filterMap_append, silent, List.append_nil]
      exact returned
  | checked index store row starts commits found accepted known after =>
      rw [after]
      exact returned.trans (returned_set (.checked store row) found rfl).symm
  | finished index call starts commits found noRow after =>
      have kept :=
        returned_set (.answered call (call.perform db.ledger).1) found rfl
      rw [returnedRow_of_rowToInsert noRow] at kept
      rw [after, finish, runRecords_of_rowToInsert noRow]
      exact returned.trans kept.symm
  | committed index store row starts commits found after =>
      rw [after]
      have appeared :=
        returned_set (.answered (.record store row) (.ok ())) found rfl
      refine List.Perm.trans ?_ appeared.symm
      exact (List.perm_append_singleton row _).trans (returned.cons row)
  | aborted index old exc starts commits found unanswered after =>
      rw [after]
      have silent := returnedRow_of_unanswered unanswered
      exact returned.trans (returned_set (.aborted old.call exc) found silent).symm

/-- A visible row was visible before, or was checked. -/
theorem mem_runRecords_step {row : LedgerRow}
    (member : row ∈ (db.step label).ledger.runRecords) :
    row ∈ db.ledger.runRecords ∨ ∃ store, .checked store row ∈ db.statements := by
  cases effect_step db label with
  | idle elapsed starts commits after =>
      rw [after] at member
      exact Or.inl member
  | sent call starts commits stamped after =>
      rw [after] at member
      exact Or.inl member
  | checked index store inserted starts commits found accepted known after =>
      rw [after] at member
      exact Or.inl member
  | finished index call starts commits found noRow after =>
      rw [after, finish, runRecords_of_rowToInsert noRow] at member
      exact Or.inl member
  | committed index store inserted starts commits found after =>
      rw [after] at member
      rcases List.mem_append.mp member with old | new
      · exact Or.inl old
      · cases List.mem_singleton.mp new
        exact Or.inr ⟨store, List.mem_of_getElem? found⟩
  | aborted index old exc starts commits found unanswered after =>
      rw [after] at member
      exact Or.inl member

theorem clock_le_step (db : SessionDb) (label : Label) :
    db.clock ≤ (db.step label).clock := by
  cases effect_step db label with
  | idle elapsed starts commits after =>
      rw [after]
      exact Int.le_add_of_nonneg_right (Int.natCast_nonneg elapsed)
  | sent call starts commits stamped after => rw [after]; exact Int.le_refl _
  | checked index store row starts commits found accepted known after =>
      rw [after]
      exact Int.le_refl _
  | finished index call starts commits found noRow after =>
      rw [after]
      exact Int.le_refl _
  | committed index store row starts commits found after =>
      rw [after]
      exact Int.le_refl _
  | aborted index old exc starts commits found unanswered after =>
      rw [after]
      exact Int.le_refl _

/-- The calls under way after a step: those before it, and the one it starts. -/
theorem call_of_mem_step {statement : SessionStatement}
    (member : statement ∈ (db.step label).statements) :
    (∃ old ∈ db.statements, old.call = statement.call) ∨
      db.starts label = some statement.call := by
  have called : statement.call ∈ (db.step label).statements.map SessionStatement.call :=
    List.mem_map_of_mem member
  rw [map_call_step] at called
  rcases List.mem_append.mp called with old | new
  · exact Or.inl (List.mem_map.mp old)
  · exact Or.inr (Option.mem_toList.mp new)

theorem createdAt_of_starts {store : PostgresSessionStore} {row : LedgerRow}
    (starts : db.starts label = some (.record store row)) :
    row.createdAt = db.clock := by
  cases label with
  | record other record =>
      cases starts
      rfl
  | tick | ensure | execute | commit | abort => cases starts

theorem orderly_step (orderly : Orderly db) (label : Label) :
    Orderly (db.step label) where
  returned := returned_step orderly.returned
  known row member := by
    apply keys_subset_step db label
    rcases mem_runRecords_step member with old | ⟨store, checked⟩
    · exact orderly.known row old
    · exact orderly.checked store row checked
  checked store row member := by
    apply keys_subset_step db label
    rcases checked_of_step member with old | ⟨_, known⟩
    · exact orderly.checked store row old
    · exact known
  past row member := by
    refine Int.le_trans ?_ (clock_le_step db label)
    rcases mem_runRecords_step member with old | ⟨store, checked⟩
    · exact orderly.past row old
    · exact orderly.stamped _ checked store row rfl
  stamped statement member store row isRecord := by
    refine Int.le_trans ?_ (clock_le_step db label)
    rcases call_of_mem_step member with ⟨old, before, sameCall⟩ | started
    · exact orderly.stamped old before store row (sameCall.trans isRecord)
    · rw [isRecord] at started
      exact (createdAt_of_starts started).le

end Step

theorem orderly_run (clock : Timestamp) (schedule : List Label) :
    Orderly (run step { clock } schedule) := by
  apply run_invariant step _ (orderly_start clock)
  exact fun _ label orderly => orderly_step orderly label

/-! ## What a history lists -/

/-- The newest of the returned rows of a session, newest first. -/
structure ListsNewest (db : SessionDb) (sessionId : String) (limit : Nat)
    (rows : List LedgerRow) : Prop where
  length_le : rows.length ≤ limit
  newestFirst : rows.Pairwise fun upper lower => lower.createdAt ≤ upper.createdAt
  fromCalls :
    ∃ omitted,
      (rows ++ omitted).Perm (db.returnedRows sessionId) ∧
        (∀ row ∈ rows, ∀ other ∈ omitted, other.createdAt ≤ row.createdAt) ∧
          (omitted ≠ [] → rows.length = limit)

theorem listed_perm (scan : Scan) (ledger : SessionLedger) (sessionId : String) :
    (ledger.listed scan sessionId).Perm (ledger.rowsOf sessionId) :=
  (ranking_perm _ _).trans (scan.perm _)

theorem Orderly.rowsOf_perm {db : SessionDb} (orderly : Orderly db)
    (sessionId : String) :
    (db.ledger.rowsOf sessionId).Perm (db.returnedRows sessionId) :=
  orderly.returned.filter _

theorem Orderly.listsNewest {db : SessionDb} (orderly : Orderly db) (scan : Scan)
    (sessionId : String) (limit : Nat) :
    ListsNewest db sessionId limit ((db.ledger.listed scan sessionId).take limit) where
  length_le := List.length_take_le _ _
  newestFirst := (pairwise_ranking _ _).sublist (List.take_sublist _ _)
  fromCalls := by
    refine ⟨(db.ledger.listed scan sessionId).drop limit, ?_, ?_, ?_⟩
    · rw [List.take_append_drop]
      exact (listed_perm scan _ _).trans (orderly.rowsOf_perm sessionId)
    · have ordered := pairwise_ranking LedgerRow.createdAt
        (scan.order (db.ledger.rowsOf sessionId))
      rw [← List.take_append_drop limit (ranking _ _), List.pairwise_append] at ordered
      exact ordered.2.2
    · intro omitted
      have room : limit < (db.ledger.listed scan sessionId).length := by
        by_contra full
        exact omitted (List.drop_eq_nil_of_le (Nat.le_of_not_lt full))
      rw [List.length_take]
      omega

/-- In every state of every run from empty tables, a history lists the newest of
the rows whose `record_run` has returned, and fails on its arguments only; every
row belongs to a session that was ensured. -/
theorem history_lists_returned_runs (clock : Timestamp) (schedule : List Label) :
    let db := run step { clock } schedule
    (∀ store scan sessionId limit rows,
        PostgresSessionStore.history store scan db.ledger sessionId limit = .ok rows →
          ListsNewest db sessionId limit.toNat rows) ∧
      (∀ store scan sessionId limit exc,
        PostgresSessionStore.history store scan db.ledger sessionId limit =
            .error exc →
          store.rejectsText sessionId ≠ none ∨ limit < 0 ∨ 2 ^ 63 ≤ limit) ∧
        ∀ row ∈ db.ledger.runRecords,
          row.record.sessionId ∈ db.ledger.sessions.keys := by
  intro db
  have orderly : Orderly db := orderly_run clock schedule
  refine ⟨?_, ?_, orderly.known⟩
  · intro store scan sessionId limit rows read
    rcases store.history_cases scan db.ledger sessionId limit with
      listed | ⟨_, exc, failed⟩
    · cases read.symm.trans listed
      exact orderly.listsNewest scan sessionId limit.toNat
    · cases read.symm.trans failed
  · intro store scan sessionId limit exc read
    rcases store.history_cases scan db.ledger sessionId limit with
      listed | ⟨arguments, _⟩
    · cases read.symm.trans listed
    · exact arguments

/-! ## When the past of a session is settled -/

/-- Below every row listed before, the same rows are listed after. -/
def SettledBelow (sessionId : String) (before after : SessionLedger) : Prop :=
  ∀ scan later : Scan, ∀ shown ∈ before.rowsOf sessionId,
    ((after.listed later sessionId).filter
        fun row => row.createdAt < shown.createdAt).Perm
      ((before.listed scan sessionId).filter
        fun row => row.createdAt < shown.createdAt)

theorem settledBelow_iff {sessionId : String} {before after : SessionLedger} :
    SettledBelow sessionId before after ↔
      ∀ shown ∈ before.rowsOf sessionId,
        ((after.rowsOf sessionId).filter
            fun row => row.createdAt < shown.createdAt).Perm
          ((before.rowsOf sessionId).filter
            fun row => row.createdAt < shown.createdAt) := by
  constructor
  · intro settled shown member
    have same := settled ⟨id, List.Perm.refl⟩ ⟨id, List.Perm.refl⟩ shown member
    have afterListed := (listed_perm ⟨id, List.Perm.refl⟩ after sessionId).filter
      fun row => row.createdAt < shown.createdAt
    have beforeListed := (listed_perm ⟨id, List.Perm.refl⟩ before sessionId).filter
      fun row => row.createdAt < shown.createdAt
    exact afterListed.symm.trans (same.trans beforeListed)
  · intro settled scan later shown member
    have afterListed := (listed_perm later after sessionId).filter
      fun row => row.createdAt < shown.createdAt
    have beforeListed := (listed_perm scan before sessionId).filter
      fun row => row.createdAt < shown.createdAt
    exact afterListed.trans ((settled shown member).trans beforeListed.symm)

/-- Nothing older than a row of the session in `start` has appeared since, or can
still appear. -/
structure GrowsAbove (sessionId : String) (start : SessionLedger) (db : SessionDb) :
    Prop where
  grown :
    ∃ added,
      db.ledger.runRecords = start.runRecords ++ added ∧
        ∀ row ∈ added, row.record.sessionId = sessionId →
          ∀ shown ∈ start.rowsOf sessionId, shown.createdAt ≤ row.createdAt
  pending :
    ∀ row ∈ db.pendingRows sessionId,
      ∀ shown ∈ start.rowsOf sessionId, shown.createdAt ≤ row.createdAt
  clock : ∀ shown ∈ start.rowsOf sessionId, shown.createdAt ≤ db.clock

section Settled

variable {sessionId : String} {start : SessionLedger} {db : SessionDb}
  {label : Label} {row : LedgerRow}

theorem mem_pendingRows :
    row ∈ db.pendingRows sessionId ↔
      ∃ statement ∈ db.statements,
        statement.pendingRow = some row ∧ row.record.sessionId = sessionId := by
  unfold pendingRows
  rw [List.mem_filter, List.mem_filterMap, decide_eq_true_iff]
  constructor
  · rintro ⟨⟨statement, member, pending⟩, same⟩
    exact ⟨statement, member, pending, same⟩
  · rintro ⟨statement, member, pending, same⟩
    exact ⟨⟨statement, member, pending⟩, same⟩

/-- A row is pending after a step if it was pending before, or its call has just
begun. -/
theorem pending_of_step (member : row ∈ (db.step label).pendingRows sessionId) :
    row ∈ db.pendingRows sessionId ∨ row.createdAt = db.clock := by
  obtain ⟨statement, inAfter, pending, same⟩ := mem_pendingRows.mp member
  have kept : statement ∈ db.statements →
      row ∈ db.pendingRows sessionId ∨ row.createdAt = db.clock := by
    intro old
    exact Or.inl (mem_pendingRows.mpr ⟨statement, old, pending, same⟩)
  cases effect_step db label with
  | idle elapsed starts commits after =>
      rw [after] at inAfter
      exact kept inAfter
  | sent call starts commits stamped after =>
      rw [after] at inAfter
      rcases List.mem_append.mp inAfter with old | new
      · exact kept old
      · cases List.mem_singleton.mp new
        obtain ⟨store, isRecord, _⟩ := SessionStatement.pendingRow_sent pending
        exact Or.inr (stamped store row isRecord)
  | checked index store inserted starts commits found accepted known after =>
      rw [after] at inAfter
      rcases List.mem_or_eq_of_mem_set inAfter with old | new
      · exact kept old
      · cases new
        cases pending
        refine Or.inl (mem_pendingRows.mpr ⟨_, List.mem_of_getElem? found, ?_, same⟩)
        rw [SessionStatement.pendingRow, if_pos accepted]
  | finished index call starts commits found noRow after =>
      rw [after] at inAfter
      rcases List.mem_or_eq_of_mem_set inAfter with old | new
      · exact kept old
      · cases new
        cases pending
  | committed index store inserted starts commits found after =>
      rw [after] at inAfter
      rcases List.mem_or_eq_of_mem_set inAfter with old | new
      · exact kept old
      · cases new
        cases pending
  | aborted index old exc starts commits found unanswered after =>
      rw [after] at inAfter
      rcases List.mem_or_eq_of_mem_set inAfter with old | new
      · exact kept old
      · cases new
        cases pending

theorem growsAbove_step (grows : GrowsAbove sessionId start db) (label : Label) :
    GrowsAbove sessionId start (db.step label) where
  grown := by
    obtain ⟨added, rows, above⟩ := grows.grown
    cases effect_step db label with
    | idle elapsed starts commits after => exact ⟨added, by rw [after, rows], above⟩
    | sent call starts commits stamped after =>
        exact ⟨added, by rw [after, ← rows]; rfl, above⟩
    | checked index store inserted starts commits found accepted known after =>
        exact ⟨added, by rw [after, ← rows]; rfl, above⟩
    | finished index call starts commits found noRow after =>
        refine ⟨added, ?_, above⟩
        rw [after, finish, runRecords_of_rowToInsert noRow, rows]
    | committed index store inserted starts commits found after =>
        refine ⟨added ++ [inserted], ?_, ?_⟩
        · rw [after, ← List.append_assoc, ← rows]
          rfl
        · intro row member same shown inStart
          rcases List.mem_append.mp member with old | new
          · exact above row old same shown inStart
          · cases List.mem_singleton.mp new
            apply grows.pending inserted _ shown inStart
            exact mem_pendingRows.mpr ⟨_, List.mem_of_getElem? found, rfl, same⟩
    | aborted index old exc starts commits found unanswered after =>
        exact ⟨added, by rw [after, ← rows]; rfl, above⟩
  pending row member shown inStart := by
    rcases pending_of_step member with old | now
    · exact grows.pending row old shown inStart
    · rw [now]
      exact grows.clock shown inStart
  clock shown inStart :=
    Int.le_trans (grows.clock shown inStart) (clock_le_step db label)

theorem GrowsAbove.settledBelow (grows : GrowsAbove sessionId start db) :
    SettledBelow sessionId start db.ledger := by
  rw [settledBelow_iff]
  intro shown member
  obtain ⟨added, rows, above⟩ := grows.grown
  have nothing :
      ((added.filter fun row => row.record.sessionId = sessionId).filter
        fun row => row.createdAt < shown.createdAt) = [] := by
    rw [List.filter_eq_nil_iff]
    intro row inAdded older
    obtain ⟨new, same⟩ := List.mem_filter.mp inAdded
    have newer := above row new (of_decide_eq_true same) shown member
    exact absurd (of_decide_eq_true older) (Int.not_lt.mpr newer)
  unfold SessionLedger.rowsOf
  rw [rows, List.filter_append, List.filter_append, nothing, List.append_nil]

/-- A pending row of a known session can still become visible. -/
theorem exists_landing (pending : row ∈ db.pendingRows sessionId)
    (known : sessionId ∈ db.ledger.sessions.keys) :
    ∃ continuation,
      (run step db continuation).ledger = db.ledger.insertRun row := by
  obtain ⟨statement, member, isPending, same⟩ := mem_pendingRows.mp pending
  obtain ⟨index, inside, located⟩ := List.getElem_of_mem member
  have found : db.statements[index]? = some statement := by
    rw [List.getElem?_eq_getElem inside, located]
  have lands : ∀ store (waiting : SessionDb),
      waiting.statements[index]? = some (.checked store row) →
        waiting.ledger = db.ledger →
          (waiting.step (.commit index)).ledger = db.ledger.insertRun row := by
    intro store waiting isChecked sameLedger
    rw [← sameLedger]
    simp only [step, isChecked]
  cases statement with
  | sent call =>
      obtain ⟨store, rfl, accepted⟩ := SessionStatement.pendingRow_sent isPending
      have inserts : db.rowToInsert (.record store row) = some (store, row) := by
        have performed :=
          SessionCall.perform_record_of_known accepted (same ▸ known)
        simp only [rowToInsert, performed]
      have executed :
          db.step (.execute index) = db.put index (.checked store row) := by
        simp only [step, found, inserts]
      refine ⟨[.execute index, .commit index], ?_⟩
      rw [run_cons, run_cons, run_nil, executed]
      refine lands store _ ?_ rfl
      exact List.getElem?_set_self inside
  | checked store inserted =>
      cases isPending
      exact ⟨[.commit index], lands store db found rfl⟩
  | answered | aborted => cases isPending

end Settled

/-- Whatever happens next, what is listed below the rows of a session stays the
same exactly if no call for the session is under way with a row older than one of
them. -/
theorem past_settled_iff (clock : Timestamp) (schedule : List Label)
    (sessionId : String) :
    let db := run step { clock } schedule
    (∀ continuation,
        SettledBelow sessionId db.ledger (run step db continuation).ledger) ↔
      ∀ pending ∈ db.pendingRows sessionId,
        ∀ shown ∈ db.ledger.rowsOf sessionId,
          shown.createdAt ≤ pending.createdAt := by
  intro db
  have orderly : Orderly db := orderly_run clock schedule
  constructor
  · intro settled pending isPending shown member
    by_contra older
    have below : pending.createdAt < shown.createdAt := Int.not_le.mp older
    obtain ⟨visible, isOf⟩ := List.mem_filter.mp member
    have ofSession : shown.record.sessionId = sessionId := of_decide_eq_true isOf
    have known : sessionId ∈ db.ledger.sessions.keys :=
      ofSession ▸ orderly.known shown visible
    obtain ⟨continuation, landed⟩ := exists_landing isPending known
    have same := (settledBelow_iff.mp (settled continuation) shown member).length_eq
    have pendingOf : pending.record.sessionId = sessionId := by
      obtain ⟨_, _, _, same⟩ := mem_pendingRows.mp isPending
      exact same
    rw [landed] at same
    simp [SessionLedger.rowsOf, SessionLedger.insertRun, pendingOf, below] at same
  · intro newer continuation
    have begins : GrowsAbove sessionId db.ledger db :=
      { grown := ⟨[], (List.append_nil _).symm, fun row member => by cases member⟩
        pending := newer
        clock := fun shown member => orderly.past shown (List.mem_filter.mp member).1 }
    have grows : GrowsAbove sessionId db.ledger (run step db continuation) := by
      apply run_invariant step _ begins
      exact fun _ label grows => growsAbove_step grows label
    exact grows.settledBelow

end SessionDb

end FableHarness
