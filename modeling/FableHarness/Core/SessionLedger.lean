import FableHarness.Core.Session
import FableHarness.Library.CommitOrder
import FableHarness.Memory.Store

/-!
# The ledger under concurrent writers

The two tables of the session store with the times of their rows, and any number
of statements in flight.  `created_at` defaults to `now()`: it is the time at
which the `INSERT` began, not the time at which its row can first be seen.  The
foreign key is checked by the `INSERT`, before its row is visible.
-/

namespace FableHarness

open LabelledRun ExceptionState

/-- A row of `run_records`, as `history` returns it. -/
structure LedgerRow where
  record : RunRecord
  createdAt : Timestamp
deriving DecidableEq

structure SessionLedger where
  sessions : KeyedTable SessionRow.sessionId := ∅
  runRecords : List LedgerRow := []

namespace SessionLedger

/-- The tables without the times. -/
def tables (ledger : SessionLedger) : SessionTables where
  sessions := ledger.sessions
  runRecords := ledger.runRecords.map LedgerRow.record

/-- The rows of one session, in the order in which they became visible. -/
def rowsOf (ledger : SessionLedger) (sessionId : String) : List LedgerRow :=
  ledger.runRecords.filter fun row => row.record.sessionId = sessionId

def insertSession (ledger : SessionLedger) (row : SessionRow) : SessionLedger :=
  { ledger with sessions := ledger.sessions.insertAbsent row }

def insertRun (ledger : SessionLedger) (row : LedgerRow) : SessionLedger :=
  { ledger with runRecords := ledger.runRecords ++ [row] }

end SessionLedger

/-- A call of the session store.  The row of a `record_run` carries the time at
which its statement began. -/
inductive SessionCall where
  | ensure (store : PostgresSessionStore) (row : SessionRow)
  | record (store : PostgresSessionStore) (row : LedgerRow)

namespace SessionCall

open PostgresSessionStore

/-- The text of a call that Postgres does not take. -/
def rejected : SessionCall → Option PyExc
  | .ensure store row =>
      [row.sessionId, row.userScope, row.orgScope].findSome? store.rejectsText
  | .record store row => (textsOf row.record).findSome? store.rejectsText

/-- The answer of a call that runs alone, and the ledger it leaves. -/
def perform (call : SessionCall) (ledger : SessionLedger) :
    Except PyExc Unit × SessionLedger :=
  match call.rejected with
  | some exc => (.error exc, ledger)
  | none =>
      match call with
      | .ensure _ row => (.ok (), ledger.insertSession row)
      | .record _ row =>
          if row.record.sessionId ∈ ledger.sessions.keys then
            (.ok (), ledger.insertRun row)
          else
            (.error unknownSession, ledger)

/-- The call as the store makes it. -/
def program : SessionCall → Py SessionTables Unit
  | .ensure store row =>
      store.ensureSession row.sessionId row.userScope row.orgScope
  | .record store row => store.recordRun row.record

variable {call : SessionCall} {ledger : SessionLedger}

theorem perform_of_rejected {exc : PyExc} (rejected : call.rejected = some exc) :
    call.perform ledger = (.error exc, ledger) := by
  simp only [perform, rejected]

theorem perform_ensure {store : PostgresSessionStore} {row : SessionRow}
    (accepted : (ensure store row).rejected = none) :
    (ensure store row).perform ledger = (.ok (), ledger.insertSession row) := by
  simp only [perform, accepted]

theorem perform_record_of_known {store : PostgresSessionStore} {row : LedgerRow}
    (accepted : (record store row).rejected = none)
    (known : row.record.sessionId ∈ ledger.sessions.keys) :
    (record store row).perform ledger = (.ok (), ledger.insertRun row) := by
  simp only [perform, accepted, known, if_true]

theorem perform_record_of_unknown {store : PostgresSessionStore} {row : LedgerRow}
    (accepted : (record store row).rejected = none)
    (unknown : row.record.sessionId ∉ ledger.sessions.keys) :
    (record store row).perform ledger = (.error unknownSession, ledger) := by
  simp only [perform, accepted, unknown, if_false]

/-- What a call can do to the ledger when it runs alone. -/
theorem perform_cases (call : SessionCall) (ledger : SessionLedger) :
    (∃ exc, call.perform ledger = (.error exc, ledger)) ∨
      (∃ store row, call = .ensure store row ∧
        call.perform ledger = (.ok (), ledger.insertSession row)) ∨
      ∃ store row, call = .record store row ∧ call.rejected = none ∧
        row.record.sessionId ∈ ledger.sessions.keys ∧
          call.perform ledger = (.ok (), ledger.insertRun row) := by
  cases rejected : call.rejected with
  | some exc => exact Or.inl ⟨exc, perform_of_rejected rejected⟩
  | none =>
      cases call with
      | ensure store row =>
          exact Or.inr (Or.inl ⟨store, row, rfl, perform_ensure rejected⟩)
      | record store row =>
          by_cases known : row.record.sessionId ∈ ledger.sessions.keys
          · refine Or.inr (Or.inr ⟨store, row, rfl, rfl, known, ?_⟩)
            exact perform_record_of_known rejected known
          · exact Or.inl ⟨unknownSession, perform_record_of_unknown rejected known⟩

/-- Sessions are never removed. -/
theorem keys_subset_perform (call : SessionCall) (ledger : SessionLedger) :
    ledger.sessions.keys ⊆ (call.perform ledger).2.sessions.keys := by
  rcases call.perform_cases ledger with
    ⟨exc, performed⟩ | ⟨_, row, _, performed⟩ | ⟨_, _, _, _, _, performed⟩
  · rw [performed]
    exact List.Subset.refl _
  · rw [performed]
    exact ledger.sessions.keys_subset_insertAll [row]
  · rw [performed]
    exact List.Subset.refl _

/-- Up to the times, a call that runs alone does what the store does. -/
theorem perform_refines (call : SessionCall) (ledger : SessionLedger) :
    answer (call.program.run ledger.tables) = (call.perform ledger).1 ∧
      finalState (call.program.run ledger.tables) =
        (call.perform ledger).2.tables := by
  cases rejected : call.rejected with
  | some exc =>
      rw [perform_of_rejected rejected]
      cases call with
      | ensure store row =>
          simp only [SessionCall.rejected] at rejected
          simp only [program, ensureSession, rejected]
          exact ⟨rfl, rfl⟩
      | record store row =>
          simp only [SessionCall.rejected] at rejected
          simp only [program, recordRun, rejected]
          exact ⟨rfl, rfl⟩
  | none =>
      cases call with
      | ensure store row =>
          rw [perform_ensure rejected]
          simp only [SessionCall.rejected] at rejected
          simp only [program, ensureSession, rejected]
          exact ⟨rfl, rfl⟩
      | record store row =>
          by_cases known : row.record.sessionId ∈ ledger.sessions.keys
          · rw [perform_record_of_known rejected known]
            simp only [SessionCall.rejected] at rejected
            have stored :
                (store.recordRun row.record).run ledger.tables =
                  .ok () (ledger.insertRun row).tables := by
              simp only [recordRun, rejected, EStateM.run_bind, EStateM.run_get,
                SessionLedger.tables, SessionLedger.insertRun, List.map_append,
                known, if_true]
              rfl
            rw [program, stored]
            exact ⟨rfl, rfl⟩
          · rw [perform_record_of_unknown rejected known]
            have outside : row.record.sessionId ∉ ledger.tables.sessions.keys :=
              known
            simp only [SessionCall.rejected] at rejected
            have refused :
                (store.recordRun row.record).run ledger.tables =
                  .error unknownSession ledger.tables := by
              simp only [recordRun, rejected, EStateM.run_bind, EStateM.run_get,
                outside, if_false]
              rfl
            rw [program, refused]
            exact ⟨rfl, rfl⟩

end SessionCall

/-! ## Statements in flight -/

inductive SessionStatement where
  | sent (call : SessionCall)
  /-- The `INSERT` found the session of its row; the row is not visible yet. -/
  | checked (store : PostgresSessionStore) (row : LedgerRow)
  | answered (call : SessionCall) (answer : Except PyExc Unit)
  /-- The connection was lost or the caller was cancelled. -/
  | aborted (call : SessionCall) (exc : PyExc)

namespace SessionStatement

def call : SessionStatement → SessionCall
  | .sent call => call
  | .checked store row => .record store row
  | .answered call _ => call
  | .aborted call _ => call

def answer? : SessionStatement → Option (Except PyExc Unit)
  | .answered _ answer => some answer
  | _ => none

end SessionStatement

structure SessionDb where
  ledger : SessionLedger := {}
  clock : Timestamp
  statements : List SessionStatement := []

namespace SessionDb

inductive Label where
  | tick (elapsed : Nat)
  | ensure (store : PostgresSessionStore) (row : SessionRow)
  | record (store : PostgresSessionStore) (record : RunRecord)
  | execute (index : Nat)
  | commit (index : Nat)
  | abort (index : Nat) (exc : PyExc)

def put (db : SessionDb) (index : Nat) (statement : SessionStatement) :
    SessionDb :=
  { db with statements := db.statements.set index statement }

def send (db : SessionDb) (call : SessionCall) : SessionDb :=
  { db with statements := db.statements ++ [.sent call] }

/-- The call ends with its answer. -/
def finish (db : SessionDb) (index : Nat) (call : SessionCall) : SessionDb :=
  { db.put index (.answered call (call.perform db.ledger).1) with
    ledger := (call.perform db.ledger).2 }

/-- The row that a statement would insert if it ran now. -/
def rowToInsert (db : SessionDb) :
    SessionCall → Option (PostgresSessionStore × LedgerRow)
  | .ensure .. => none
  | .record store row =>
      match (SessionCall.record store row).perform db.ledger with
      | (.ok (), _) => some (store, row)
      | (.error _, _) => none

/-- One step; a label that is not enabled changes nothing. -/
def step (db : SessionDb) : Label → SessionDb
  | .tick elapsed => { db with clock := db.clock + elapsed }
  | .ensure store row => db.send (.ensure store row)
  | .record store record => db.send (.record store ⟨record, db.clock⟩)
  | .execute index =>
      match db.statements[index]? with
      | some (.sent call) =>
          match db.rowToInsert call with
          | some (store, row) => db.put index (.checked store row)
          | none => db.finish index call
      | _ => db
  | .commit index =>
      match db.statements[index]? with
      | some (.checked store row) =>
          { db.put index (.answered (.record store row) (.ok ())) with
            ledger := db.ledger.insertRun row }
      | _ => db
  | .abort index exc =>
      match db.statements[index]? with
      | some (.sent call) => db.put index (.aborted call exc)
      | some (.checked store row) =>
          db.put index (.aborted (.record store row) exc)
      | _ => db

def starts (db : SessionDb) : Label → Option SessionCall
  | .ensure store row => some (.ensure store row)
  | .record store record => some (.record store ⟨record, db.clock⟩)
  | _ => none

/-- The statement that a step decides. -/
def commits (db : SessionDb) : Label → Option Nat
  | .execute index =>
      match db.statements[index]? with
      | some (.sent call) =>
          match db.rowToInsert call with
          | some _ => none
          | none => some index
      | _ => none
  | .commit index =>
      match db.statements[index]? with
      | some (.checked ..) => some index
      | _ => none
  | _ => none

def answerOf (db : SessionDb) (index : Nat) : Option (Except PyExc Unit) :=
  db.statements[index]?.bind SessionStatement.answer?

def machine :
    CommitOrder.Machine SessionDb Label SessionCall SessionLedger
      (Except PyExc Unit) where
  step := step
  starts := starts
  commits := commits
  data := ledger
  answer := answerOf
  perform := SessionCall.perform

end SessionDb

end FableHarness
