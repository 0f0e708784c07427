import FableHarness.Memory.MemoryDb
import FableHarness.Memory.ReadCommitted

/-!
# What an invalidation closes

The predicate is shown items that are read back from the live rows of its
scope, and the update names ids only.  Ids are unique, so the rows that are
closed are exactly those whose items the predicate accepted.
-/

namespace FableHarness

open ExceptionState LabelledRun PgVectorMemoryStore

namespace MemoryPredicate

/-- The row is live, in the predicate's scope, and accepted. -/
def selects (predicate : MemoryPredicate) (row : MemoryRow) : Bool :=
  answersTrue (predicate.verdict row) && isLiveIn predicate.scope row

theorem selects_eq_true_iff (predicate : MemoryPredicate) (row : MemoryRow) :
    predicate.selects row = true ↔
      row.scope = predicate.scope ∧ row.validTo = none ∧
        predicate.matchItem (rowToItem row predicate.scope) = .ok true := by
  unfold selects verdict isLiveIn
  cases predicate.matchItem (rowToItem row predicate.scope) with
  | error exc => simp [answersTrue]
  | ok answer =>
      simp only [answersTrue, Bool.and_eq_true, beq_iff_eq, Option.isNone_iff_eq_none,
        Except.ok.injEq]
      rw [and_comm, and_assoc]

end MemoryPredicate

/-- The row as the update leaves it, where it applies to it. -/
def MemoryRow.closedAt (row : MemoryRow) (now : Timestamp) : MemoryRow :=
  { row with validTo := some now }

/-- What an `invalidate` that returns `count` did to the table. -/
structure ClosesMatching (predicate : MemoryPredicate) (now : Timestamp)
    (count : Nat) (before after : MemoryTable) : Prop where
  counted : count = before.rows.countP predicate.selects
  /-- Row by row, in place: the selected ones get their `valid_to`. -/
  closed :
    after.rows =
      before.rows.map fun row =>
        if predicate.selects row then row.closedAt now else row
  alreadyClosed :
    ∀ row ∈ before.rows, row.validTo ≠ none → row ∈ after.rows
  otherScopes :
    (after.rows.filter fun row => row.scope != predicate.scope) =
      before.rows.filter fun row => row.scope != predicate.scope

namespace PgVectorMemoryStore

variable {store : PgVectorMemoryStore} {predicate : MemoryPredicate}
  {now : Timestamp} {before after : MemoryTable} {count : Nat}

/-- An `invalidate` that returns has had an answer for every candidate, and has
closed the rows that were selected. -/
theorem rows_of_invalidate
    (invalidated : store.invalidate now predicate before = .ok (count, after)) :
    store.backend.rejectsText predicate.scope = none ∧
      (∀ row ∈ before.rows, isLiveIn predicate.scope row = true →
        ∃ answer, predicate.verdict row = .ok answer) ∧
      count = before.rows.countP predicate.selects ∧
      after.rows =
        before.rows.map fun row =>
          if predicate.selects row then row.closedAt now else row := by
  obtain ⟨ids, chosen, rfl, closed⟩ := invalidate_eq_ok invalidated
  obtain ⟨sent, selected⟩ := chooseIds_eq_ok.mp chosen
  obtain ⟨answered, rfl⟩ := selectIds_eq_ok_iff.mp selected
  have bothTests :
      ((selectLive before predicate.scope).filter fun row =>
          answersTrue (predicate.verdict row)) =
        before.rows.filter predicate.selects :=
    List.filter_filter
  rw [bothTests] at closed ⊢
  refine ⟨sent, ?_, ?_, ?_⟩
  · intro row member live
    exact answered row (List.mem_filter.mpr ⟨member, live⟩)
  · rw [List.length_map, List.countP_eq_length_filter]
  · rw [closed]
    apply List.map_congr_left
    intro row member
    -- The update knows ids only, and an id belongs to one row.
    have named := before.key_mem_map_filter_iff predicate.selects member
    unfold closeRow
    by_cases selects : predicate.selects row = true
    · rw [if_pos (named.mpr selects), if_pos selects]
      rfl
    · rw [if_neg (fun chosenId => selects (named.mp chosenId)), if_neg selects]

theorem closesMatching_of_invalidate
    (invalidated : store.invalidate now predicate before = .ok (count, after)) :
    ClosesMatching predicate now count before after := by
  obtain ⟨_, _, counted, closed⟩ := rows_of_invalidate invalidated
  exact
    { counted := counted
      closed := closed
      alreadyClosed := by
        intro row member notLive
        have unselected : ¬ predicate.selects row = true := by
          rw [predicate.selects_eq_true_iff]
          exact fun selects => notLive selects.2.1
        rw [closed, List.mem_map]
        exact ⟨row, member, if_neg unselected⟩
      otherScopes := by
        rw [closed, List.filter_map]
        have sameScope :
            ((fun row : MemoryRow => row.scope != predicate.scope) ∘ fun row =>
                if predicate.selects row then row.closedAt now else row) =
              fun row => row.scope != predicate.scope := by
          funext row
          rw [Function.comp_apply]
          split <;> rfl
        have untouched :
            ∀ row ∈ before.rows.filter fun row => row.scope != predicate.scope,
              (if predicate.selects row then row.closedAt now else row) = row := by
          intro row member
          have elsewhere := (List.mem_filter.mp member).2
          have unselected : ¬ predicate.selects row = true := by
            rw [predicate.selects_eq_true_iff]
            exact fun selects => bne_iff_ne.mp elsewhere selects.1
          exact if_neg unselected
        rw [sameScope, List.map_congr_left untouched, List.map_id'] }

/-- Right after an `invalidate` that returned, the predicate accepts no live row
any more, and it has answered for all that are left. -/
theorem invalidate_again
    (invalidated : store.invalidate now predicate before = .ok (count, after))
    (later : Timestamp) :
    store.invalidate later predicate after = .ok (0, after) := by
  obtain ⟨sent, answered, _, closed⟩ := rows_of_invalidate invalidated
  have leftOpen :
      ∀ row ∈ selectLive after predicate.scope,
        row ∈ before.rows ∧ isLiveIn predicate.scope row = true ∧
          predicate.selects row = false := by
    intro row member
    obtain ⟨inTable, live⟩ := List.mem_filter.mp member
    rw [closed] at inTable
    obtain ⟨old, oldMember, became⟩ := List.mem_map.mp inTable
    cases selects : predicate.selects old with
    | true =>
        rw [selects, if_pos rfl] at became
        rw [← became] at live
        simp [isLiveIn, MemoryRow.closedAt] at live
    | false =>
        rw [selects, if_neg Bool.false_ne_true] at became
        rw [← became] at live ⊢
        exact ⟨oldMember, live, selects⟩
  have none : store.chooseIds predicate after = .ok [] := by
    rw [chooseIds_eq_ok]
    refine ⟨sent, selectIds_eq_ok_iff.mpr ⟨?_, ?_⟩⟩
    · intro row member
      obtain ⟨inTable, live, _⟩ := leftOpen row member
      exact answered row inTable live
    · have nothing :
          ((selectLive after predicate.scope).filter fun row =>
            answersTrue (predicate.verdict row)) = [] := by
        rw [List.filter_eq_nil_iff]
        intro row member accepted
        obtain ⟨_, live, unselected⟩ := leftOpen row member
        unfold MemoryPredicate.selects at unselected
        rw [accepted, live] at unselected
        cases unselected
      rw [nothing, List.map_nil]
  unfold invalidate
  rw [none]
  rfl

/-- A predicate that raises on a candidate makes the call raise. -/
theorem invalidate_raises (store : PgVectorMemoryStore) (now : Timestamp)
    {row : MemoryRow} {exc : PyExc}
    (member : row ∈ before.rows) (live : isLiveIn predicate.scope row = true)
    (raises : predicate.verdict row = .error exc) :
    ∃ raised, store.invalidate now predicate before = .error raised := by
  cases invalidated : store.invalidate now predicate before with
  | error raised => exact ⟨raised, rfl⟩
  | ok answer =>
      obtain ⟨closedCount, table⟩ := answer
      obtain ⟨_, answered, _⟩ := rows_of_invalidate invalidated
      obtain ⟨answer, same⟩ := answered row member live
      rw [raises] at same
      cases same

theorem run_invalidate (store : PgVectorMemoryStore) (predicate : MemoryPredicate)
    (db : MemoryDb) :
    (store.memoryStore.invalidate predicate).run db =
      match store.invalidate db.now predicate db.table with
      | .ok (count, table) => .ok count { db.tick with table }
      | .error exc => .error exc db.tick :=
  rfl

section Run

variable {db after : MemoryDb} {exc : PyExc} {table : MemoryTable}

theorem run_invalidate_of_ok
    (invalidated :
      store.invalidate db.now predicate db.table = .ok (count, table)) :
    (store.memoryStore.invalidate predicate).run db =
      .ok count { db.tick with table } := by
  rw [run_invalidate, invalidated]

theorem run_invalidate_of_error
    (raised : store.invalidate db.now predicate db.table = .error exc) :
    (store.memoryStore.invalidate predicate).run db = .error exc db.tick := by
  rw [run_invalidate, raised]

theorem invalidate_of_run_ok
    (run : (store.memoryStore.invalidate predicate).run db = .ok count after) :
    store.invalidate db.now predicate db.table = .ok (count, after.table) := by
  cases invalidated : store.invalidate db.now predicate db.table with
  | error raised =>
      rw [run_invalidate_of_error invalidated] at run
      cases run
  | ok answer =>
      rw [run_invalidate_of_ok invalidated] at run
      cases run
      rfl

theorem table_of_invalidate_raised
    (run : (store.memoryStore.invalidate predicate).run db = .error exc after) :
    after.table = db.table := by
  cases invalidated : store.invalidate db.now predicate db.table with
  | error raised =>
      rw [run_invalidate_of_error invalidated] at run
      cases run
      rfl
  | ok answer =>
      rw [run_invalidate_of_ok invalidated] at run
      cases run

end Run

/-- `invalidate` closes exactly the live rows of its scope that the predicate
accepts, once, and closes nothing if it raises. -/
theorem invalidate_closes_matching (store : PgVectorMemoryStore)
    (predicate : MemoryPredicate) (db : MemoryDb) :
    (∀ count after,
        (store.memoryStore.invalidate predicate).run db = .ok count after →
          ClosesMatching predicate db.now count db.table after.table ∧
            ∃ again,
              (store.memoryStore.invalidate predicate).run after = .ok 0 again ∧
                again.table = after.table) ∧
      (∀ exc after,
        (store.memoryStore.invalidate predicate).run db = .error exc after →
          after.table = db.table) ∧
      ∀ row ∈ db.table.rows, isLiveIn predicate.scope row = true →
        ∀ exc, predicate.matchItem (rowToItem row predicate.scope) = .error exc →
          ∃ raised after,
            (store.memoryStore.invalidate predicate).run db =
                .error raised after ∧
              after.table = db.table := by
  refine ⟨?_, ?_, ?_⟩
  · intro count after run
    have invalidated := invalidate_of_run_ok run
    exact
      ⟨closesMatching_of_invalidate invalidated,
        { after.tick with table := after.table },
        run_invalidate_of_ok (invalidate_again invalidated after.now), rfl⟩
  · exact fun exc after run => table_of_invalidate_raised run
  · intro row member live exc raises
    obtain ⟨raised, invalidated⟩ :=
      invalidate_raises store db.now member live raises
    exact ⟨raised, db.tick, run_invalidate_of_error invalidated, rfl⟩

end PgVectorMemoryStore

namespace ReadCommitted

/-- The transaction of a call that raises ends with its `SELECT`: nothing of it
is committed. -/
theorem raise_refines_transaction {store : PgVectorMemoryStore}
    {predicate : MemoryPredicate} {table : MemoryTable} {clock : Timestamp}
    {earlier : List Transaction} {exc : PyExc}
    (raised : store.invalidate clock predicate table = .error exc) :
    run step ⟨table, clock, earlier⟩
        [.begin store predicate, .select earlier.length] =
      ⟨table, clock, earlier ++ [.raised exc]⟩ := by
  have unchosen : store.chooseIds predicate table = .error exc := by
    unfold PgVectorMemoryStore.invalidate at raised
    cases chosen : store.chooseIds predicate table with
    | error other =>
        rw [chosen] at raised
        cases raised
        rfl
    | ok toClose =>
        rw [chosen] at raised
        cases toClose <;> cases raised
  simp only [run_cons, run_nil, step, spawn, getElem?_last, put, set_last,
    afterSelect, unchosen]

end ReadCommitted

end FableHarness
