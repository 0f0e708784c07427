import FableHarness.Memory.ClosedOnce

/-!
# The order of valid-from and valid-to

`remember` stamps a row before it inserts it, and `invalidate` stamps its rows
with the time of its `BEGIN`, before it selects them.  So an interval is
inverted exactly where an `invalidate` closes a row that was stamped after it
had begun.
-/

namespace FableHarness

open LabelledRun PgVectorMemoryStore

namespace ReadCommitted

/-- No closed row ends before it begins. -/
def NotInverted (table : MemoryTable) : Prop :=
  ∀ row ∈ table.rows, ∀ validTo, row.validTo = some validTo →
    row.validFrom ≤ validTo

/-- No interval is inverted in any state of the run. -/
def NeverInverted (start : ReadCommitted) (schedule : List Label) : Prop :=
  ∀ earlier rest, schedule = earlier ++ rest →
    NotInverted (run step start earlier).table

/-- The update that the step under `label` commits. -/
def closingUpdate (db : ReadCommitted) : Label → Option (Timestamp × List Uuid)
  | .commit index => db.committing index
  | _ => none

/-- The rows about to be closed were stamped no later than the `BEGIN` of the
`invalidate` that closes them. -/
def ClosesStamped (db : ReadCommitted) (label : Label) : Prop :=
  ∀ update ∈ db.closingUpdate label, ∀ row ∈ db.table.rows,
    row.id ∈ update.2 → row.validFrom ≤ update.1

instance (db : ReadCommitted) (label : Label) :
    Decidable (db.ClosesStamped label) :=
  inferInstanceAs (Decidable (∀ update ∈ db.closingUpdate label, _))

section Tables

variable {table : MemoryTable} {now : Timestamp} {ids : List Uuid}

theorem validFrom_closeRow (now : Timestamp) (ids : List Uuid) (row : MemoryRow) :
    (closeRow now ids row).validFrom = row.validFrom := by
  unfold closeRow
  split <;> rfl

/-- Closing keeps the intervals in order exactly if the closed rows began by
then. -/
theorem notInverted_closeRows_iff (ordered : NotInverted table) :
    NotInverted (closeRows table now ids) ↔
      ∀ row ∈ table.rows, row.id ∈ ids → row.validFrom ≤ now := by
  unfold NotInverted
  rw [rows_closeRows]
  constructor
  · intro closedOrdered row member chosen
    have closed := closedOrdered _ (List.mem_map_of_mem member) now
    rw [validTo_closeRow, if_pos chosen, validFrom_closeRow] at closed
    exact closed rfl
  · intro stamped closed member validTo ends
    obtain ⟨row, inTable, rfl⟩ := List.mem_map.mp member
    rw [validFrom_closeRow]
    rw [validTo_closeRow] at ends
    by_cases chosen : row.id ∈ ids
    · rw [if_pos chosen] at ends
      cases ends
      exact stamped row inTable chosen
    · rw [if_neg chosen] at ends
      exact ordered row inTable validTo ends

theorem notInverted_insertAll {rows : List MemoryRow}
    (ordered : NotInverted table) (live : ∀ row ∈ rows, row.validTo = none) :
    NotInverted (table.insertAll rows) := by
  intro row member validTo ends
  rcases KeyedTable.mem_or_mem_of_mem_insertAll member with old | new
  · exact ordered row old validTo ends
  · rw [live row new] at ends
    cases ends

end Tables

section Runs

variable {start db : ReadCommitted} {label : Label} {schedule : List Label}

theorem closingUpdate_eq_some {now : Timestamp} {toClose : List Uuid}
    (update : db.closingUpdate label = some (now, toClose)) :
    (step db label).table = closeRows db.table now toClose := by
  cases label with
  | commit index =>
      have ready : db.committing index = some (now, toClose) := update
      simp only [step, ready]
  | _ => cases update

/-- A step that closes nothing keeps the intervals in order. -/
theorem notInverted_step {table : MemoryTable} (tracked : Tracked table db)
    (ordered : NotInverted db.table) (closesNothing : db.closingUpdate label = none) :
    NotInverted (step db label).table := by
  cases change_step db label with
  | idle same =>
      rw [same]
      exact ordered
  | spawned _ same =>
      rw [same]
      exact ordered
  | moved _ _ _ same =>
      rw [same]
      exact ordered
  | inserted index rows found grown =>
      rw [grown]
      apply notInverted_insertAll ordered
      exact (tracked.sound _ (List.mem_of_getElem? found)).livePending
  | committed index now toClose _ taken ready =>
      rw [taken, closingUpdate, ready] at closesNothing
      cases closesNothing

/-- A step keeps the intervals in order exactly if what it closes was stamped by
then. -/
theorem notInverted_step_iff {table : MemoryTable} (tracked : Tracked table db)
    (ordered : NotInverted db.table) :
    NotInverted (step db label).table ↔ db.ClosesStamped label := by
  unfold ClosesStamped
  cases update : db.closingUpdate label with
  | none =>
      apply iff_of_true (notInverted_step tracked ordered update)
      intro other member
      cases member
  | some closing =>
      obtain ⟨now, toClose⟩ := closing
      rw [closingUpdate_eq_some update, notInverted_closeRows_iff ordered]
      simp

theorem notInverted_run (fresh : start.transactions = [])
    (ordered : NotInverted start.table)
    (stamped : Permitted step ClosesStamped start schedule) :
    NotInverted (run step start schedule).table := by
  have begins : Tracked start.table start ∧ NotInverted start.table :=
    ⟨tracked_run fresh [], ordered⟩
  have keeps :
      ∀ db label, ClosesStamped db label →
        Tracked start.table db ∧ NotInverted db.table →
          Tracked start.table (step db label) ∧
            NotInverted (step db label).table := by
    intro db label permits invariant
    obtain ⟨tracked, ordered⟩ := invariant
    exact ⟨tracked_step tracked, (notInverted_step_iff tracked ordered).mpr permits⟩
  exact (run_invariant_of_permitted keeps stamped begins).2

end Runs

/-- No interval of a run is ever inverted exactly if every `invalidate` that
commits closes only rows that were stamped no later than its `BEGIN`. -/
theorem intervals_never_inverted_iff (start : ReadCommitted)
    (schedule : List Label) (fresh : start.transactions = [])
    (ordered : NotInverted start.table) :
    NeverInverted start schedule ↔ Permitted step ClosesStamped start schedule := by
  constructor
  · intro neverInverted earlier label rest shape
    have before : NotInverted (run step start earlier).table :=
      neverInverted earlier (label :: rest) shape
    have after : NotInverted (run step start (earlier ++ [label])).table := by
      apply neverInverted (earlier ++ [label]) rest
      rw [shape, List.append_assoc, List.singleton_append]
    rw [run_concat] at after
    exact (notInverted_step_iff (tracked_run fresh earlier) before).mp after
  · intro stamped earlier rest shape
    rw [shape] at stamped
    exact notInverted_run fresh ordered (permitted_append_left stamped)

/-! ### A fact that arrives during an invalidation -/

def arrivingItem : MemoryItem where
  content := "prefers calls"
  scope := "default"
  id := sharedId.str

def arrivingStart : ReadCommitted where
  table := ∅
  clock := 10

def arrivingStore : PgVectorMemoryStore := ⟨plainBackend, defaultEmbeddingModel⟩

/-- The fact is stored before the invalidation begins. -/
def orderedSchedule : List Label :=
  [.stamp arrivingStore [arrivingItem] "default", .insert 0, .tick 5,
    .begin arrivingStore everything, .select 1, .lock 1 sharedId, .commit 1]

/-- The invalidation begins, then the fact is stamped and stored, then the
invalidation selects it. -/
def overtakenSchedule : List Label :=
  [.begin arrivingStore everything, .tick 5,
    .stamp arrivingStore [arrivingItem] "default", .insert 1, .select 0,
    .lock 0 sharedId, .commit 0]

theorem notInverted_empty : NotInverted arrivingStart.table := by
  intro row member
  cases member

theorem ordered_schedule_never_inverts :
    NeverInverted arrivingStart orderedSchedule :=
  (intervals_never_inverted_iff arrivingStart orderedSchedule rfl
    notInverted_empty).mpr (by decide +kernel)

/-- The fact ends at 10 and begins at 15. -/
theorem overtaken_invalidation_inverts :
    ¬ NeverInverted arrivingStart overtakenSchedule ∧
      (run step arrivingStart overtakenSchedule).table.rows.map
          (fun row => (row.validFrom, row.validTo)) = [(15, some 10)] := by
  have intervals :
      (run step arrivingStart overtakenSchedule).table.rows.map
          (fun row => (row.validFrom, row.validTo)) = [(15, some 10)] := by
    decide +kernel
  refine ⟨?_, intervals⟩
  intro neverInverted
  have ordered := neverInverted overtakenSchedule [] (List.append_nil _).symm
  have member :
      ((15 : Timestamp), some (10 : Timestamp)) ∈
        (run step arrivingStart overtakenSchedule).table.rows.map
          fun row => (row.validFrom, row.validTo) := by
    rw [intervals]
    exact List.mem_singleton_self _
  obtain ⟨row, inTable, same⟩ := List.mem_map.mp member
  obtain ⟨begins, ends⟩ := Prod.mk.inj same
  have inverted := ordered row inTable 10 ends
  rw [begins] at inverted
  exact absurd inverted (by decide)

end ReadCommitted

end FableHarness
