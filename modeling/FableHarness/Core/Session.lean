import FableHarness.Core.Python
import FableHarness.Library.ExceptionState
import FableHarness.Library.KeyedTable

/-!
# Session persistence

The ledger of what ran: one row for each session and one row for each recorded
run.  Both statements are programs over the two tables.
-/

namespace FableHarness

/-- A row of `run_records`. -/
structure RunRecord where
  sessionId : String
  request : String
  output : Option String
  stopReason : String
  success : Bool
deriving DecidableEq, Repr

/-- A row of `sessions`. -/
structure SessionRow where
  sessionId : String
  userScope : String
  orgScope : String

structure SessionTables where
  sessions : KeyedTable SessionRow.sessionId := ∅
  runRecords : List RunRecord := []

structure SessionStore where
  ensureSession : String → String → String → Py SessionTables Unit
  recordRun : RunRecord → Py SessionTables Unit

def nullSessionStore : SessionStore where
  ensureSession _ _ _ := pure ()
  recordRun _ := pure ()

structure PostgresSessionStore where
  /-- Text that cannot be sent, such as one with a NUL character. -/
  rejectsText : String → Option PyExc

namespace PostgresSessionStore

/-- `INSERT INTO sessions ... ON CONFLICT (session_id) DO NOTHING` -/
def ensureSession (store : PostgresSessionStore)
    (sessionId userScope orgScope : String) : Py SessionTables Unit :=
  match [sessionId, userScope, orgScope].findSome? store.rejectsText with
  | some exc => throw exc
  | none =>
      modify fun tables =>
        { tables with
          sessions :=
            tables.sessions.insertAbsent ⟨sessionId, userScope, orgScope⟩ }

/-- The texts of a record that are sent. -/
def textsOf (record : RunRecord) : List String :=
  [record.sessionId, record.request] ++ record.output.toList ++
    [record.stopReason]

/-- `REFERENCES sessions(session_id)` -/
def unknownSession : PyExc :=
  .other "ForeignKeyViolationError" <|
    "insert or update on table \"run_records\" violates foreign key constraint" ++
      " \"run_records_session_id_fkey\""

/-- `INSERT INTO run_records ...` -/
def recordRun (store : PostgresSessionStore) (record : RunRecord) :
    Py SessionTables Unit := do
  match (textsOf record).findSome? store.rejectsText with
  | some exc => throw exc
  | none =>
      let tables ← get
      if record.sessionId ∈ tables.sessions.keys then
        set { tables with runRecords := tables.runRecords ++ [record] }
      else
        throw unknownSession

def sessionStore (store : PostgresSessionStore) : SessionStore where
  ensureSession := store.ensureSession
  recordRun := store.recordRun

/-- Postgres takes every text of the record. -/
def Accepts (store : PostgresSessionStore) (record : RunRecord) : Prop :=
  ∀ text ∈ textsOf record, store.rejectsText text = none

/-! ## What the two statements do -/

/-- A session that was ensured is there, and no run was recorded. -/
theorem ensureSession_eq_ok {store : PostgresSessionStore}
    {sessionId userScope orgScope : String} {before after : SessionTables}
    (ensured :
      (store.ensureSession sessionId userScope orgScope).run before =
        .ok () after) :
    sessionId ∈ after.sessions.keys ∧ after.runRecords = before.runRecords := by
  unfold ensureSession at ensured
  split at ensured
  · cases ensured
  · cases ensured
    refine ⟨?_, rfl⟩
    unfold KeyedTable.keys
    rw [KeyedTable.rows_insertAbsent]
    split
    · assumption
    · simp

theorem ensureSession_eq_error {store : PostgresSessionStore}
    {sessionId userScope orgScope : String} {before after : SessionTables}
    {exc : PyExc}
    (failed :
      (store.ensureSession sessionId userScope orgScope).run before =
        .error exc after) : after = before := by
  unfold ensureSession at failed
  split at failed
  · cases failed
    rfl
  · cases failed

/-- A run of a known session is recorded, unless its texts are rejected. -/
theorem recordRun_cases (store : PostgresSessionStore) (record : RunRecord)
    {before : SessionTables} (known : record.sessionId ∈ before.sessions.keys) :
    (store.Accepts record ∧
        (store.recordRun record).run before =
          .ok () { before with runRecords := before.runRecords ++ [record] }) ∨
      ¬ store.Accepts record ∧
        ∃ exc, (store.recordRun record).run before = .error exc before := by
  unfold recordRun
  cases rejected : (textsOf record).findSome? store.rejectsText with
  | some exc =>
      right
      refine ⟨?_, exc, rfl⟩
      intro accepted
      rw [List.findSome?_eq_none_iff.mpr accepted] at rejected
      cases rejected
  | none =>
      left
      refine ⟨List.findSome?_eq_none_iff.mp rejected, ?_⟩
      simp only [EStateM.run_bind, EStateM.run_get, known, if_true]
      rfl

end PostgresSessionStore

end FableHarness
