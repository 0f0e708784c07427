import FableHarness.Library.LabelledRun
import FableHarness.Library.ValidTime
import FableHarness.Memory.PgVectorStore

/-!
# What the agent knew, and when

In a sequential history on one increasing clock, the final table still answers
every past recall: the rows that were live then are the rows whose interval
contains its instant.
-/

namespace FableHarness

open LabelledRun PgVectorMemoryStore

/-- A row, read as a fact with a validity interval. -/
def rowReading : ValidTime MemoryRow Timestamp MemoryRow where
  start := MemoryRow.validFrom
  stop := MemoryRow.validTo
  data row := { row with validTo := none }

/-- The rows of a scope that are valid at an instant, as they were then. -/
def knownAt (table : MemoryTable) (scope : String) (instant : Timestamp) :
    List MemoryRow :=
  (rowReading.asOf instant table.rows).filter fun row => row.scope == scope

namespace MemoryCall

/-- The items of a `remember` leave their dates to the store. -/
def LeavesDatesUnset (call : MemoryCall) : Prop :=
  ∀ items scope, call.operation = .remember items scope →
    ∀ item ∈ items, item.validFrom = none ∧ item.validTo = none

end MemoryCall

namespace MemoryHistory

variable {backend : MemoryBackend} {table : MemoryTable} {call : MemoryCall}
  {instant : Timestamp}

/-! ## One call -/

theorem start_of_mem_plannedRows {items : List MemoryItem} {scope : String}
    {rows : List MemoryRow} (unset : call.LeavesDatesUnset)
    (operation : call.operation = .remember items scope)
    (planned :
      (storeFor backend call).plannedRows call.now items scope = .ok rows)
    {row : MemoryRow} (member : row ∈ rows) :
    row.validFrom = call.now ∧ row.validTo = none := by
  obtain ⟨item, present, vector, built⟩ := item_of_mem_plannedRows planned member
  have isRow := rowOf_of_buildRow built
  have starts := isRow.validFrom
  rw [(unset items scope operation item present).1] at starts
  exact ⟨starts, isRow.isOpen⟩

/-- Closing a live row is the only change a call makes to it. -/
theorem closedAfter_closeRow {store : PgVectorMemoryStore}
    {predicate : MemoryPredicate} {ids : List Uuid} {now : Timestamp}
    (later : instant < now)
    (chosen : store.chooseIds predicate table = .ok ids) {row : MemoryRow}
    (member : row ∈ table.rows) :
    rowReading.ClosedAfter instant row (closeRow now ids row) := by
  by_cases selected : row.id ∈ ids
  · obtain ⟨other, present, sameId, isLive⟩ := live_of_mem_chooseIds chosen selected
    cases table.eq_of_key_eq present member sameId
    have isOpen : row.validTo = none := by
      simp only [isLiveIn, Bool.and_eq_true, Option.isNone_iff_eq_none] at isLive
      exact isLive.2
    unfold closeRow
    rw [if_pos selected]
    exact ⟨rfl, rfl, Or.inr ⟨isOpen, now, later, rfl⟩⟩
  · rw [closeRow_of_not_mem selected]
    exact ValidTime.closedAfter_refl row

/-- A call after an instant closes and adds rows after it. -/
theorem evolvesAfter_perform (backend : MemoryBackend) (table : MemoryTable)
    (later : instant < call.now) (unset : call.LeavesDatesUnset) :
    rowReading.EvolvesAfter instant table.rows
      (perform backend table call).2.rows := by
  rcases perform_cases backend table call with
    unchanged | ⟨items, scope, rows, operation, planned, grown⟩ |
      ⟨predicate, ids, _, chosen, closed⟩
  · rw [unchanged]
    exact ValidTime.evolvesAfter_refl table.rows
  · obtain ⟨added, appended, fromRows⟩ := table.rows_insertAll rows
    rw [grown, appended]
    refine ⟨table.rows, added, rfl, ?_, ?_⟩
    · exact List.forall₂_same.mpr fun row _ => ValidTime.closedAfter_refl row
    · intro row member
      have starts :=
        start_of_mem_plannedRows unset operation planned (fromRows row member).1
      change instant < row.validFrom
      rw [starts.1]
      exact later
  · rw [closed]
    refine
      ⟨table.rows.map (closeRow call.now ids), [], (List.append_nil _).symm, ?_,
        by simp⟩
    rw [List.forall₂_map_right_iff]
    exact
      List.forall₂_same.mpr fun row member =>
        closedAfter_closeRow later chosen member

/-- What a call up to an instant leaves is settled by then. -/
theorem settled_perform (backend : MemoryBackend)
    (settled : ∀ row ∈ table.rows, rowReading.Settled instant row)
    (earlier : call.now ≤ instant) (unset : call.LeavesDatesUnset) :
    ∀ row ∈ (perform backend table call).2.rows,
      rowReading.Settled instant row := by
  intro row member
  rcases perform_cases backend table call with
    unchanged | ⟨items, scope, rows, operation, planned, grown⟩ |
      ⟨predicate, ids, _, chosen, closed⟩
  · rw [unchanged] at member
    exact settled row member
  · rw [grown] at member
    rcases KeyedTable.mem_or_mem_of_mem_insertAll member with old | new
    · exact settled row old
    · obtain ⟨starts, isOpen⟩ :=
        start_of_mem_plannedRows unset operation planned new
      constructor
      · change row.validFrom ≤ instant
        rw [starts]
        exact earlier
      · intro stop stops
        cases isOpen.symm.trans stops
  · rw [closed] at member
    obtain ⟨before, present, rfl⟩ := List.mem_map.mp member
    by_cases selected : before.id ∈ ids
    · unfold closeRow
      rw [if_pos selected]
      constructor
      · exact (settled before present).started
      · intro stop stops
        cases stops
        exact earlier
    · rw [closeRow_of_not_mem selected]
      exact settled before present

/-! ## Whole histories -/

theorem settled_run (backend : MemoryBackend) {history : List MemoryCall}
    (earlier : ∀ call ∈ history, call.now ≤ instant)
    (unset : ∀ call ∈ history, call.LeavesDatesUnset) :
    ∀ row ∈ (run (step backend) {} history).table.rows,
      rowReading.Settled instant row := by
  have begins :
      ∀ row ∈ ({} : MemoryHistory).table.rows, rowReading.Settled instant row := by
    intro row member
    cases member
  have keeps :
      ∀ (state : MemoryHistory) (call : MemoryCall),
        (call.now ≤ instant ∧ call.LeavesDatesUnset) →
          (∀ row ∈ state.table.rows, rowReading.Settled instant row) →
            ∀ row ∈ (step backend state call).table.rows,
              rowReading.Settled instant row :=
    fun state call permits settled =>
      settled_perform backend settled permits.1 permits.2
  have permitted :
      Permitted (step backend)
        (fun _ call => call.now ≤ instant ∧ call.LeavesDatesUnset) {} history :=
    permitted_of_forall
      (fun call member _ => ⟨earlier call member, unset call member⟩) _
  exact run_invariant_of_permitted keeps permitted begins

/-- What later calls leave of what was there at an instant. -/
structure Recoverable (instant : Timestamp) (before after : MemoryTable) : Prop where
  known :
    rowReading.asOf instant after.rows = rowReading.asOf instant before.rows
  kept :
    ∀ row ∈ before.rows, ∃ kept ∈ after.rows,
      rowReading.ClosedAfter instant row kept

theorem recoverable_run (backend : MemoryBackend) (state : MemoryHistory)
    {later : List MemoryCall}
    (after : ∀ call ∈ later, instant < call.now)
    (unset : ∀ call ∈ later, call.LeavesDatesUnset) :
    Recoverable instant state.table (run (step backend) state later).table := by
  have begins : Recoverable instant state.table state.table :=
    ⟨rfl, fun row member => ⟨row, member, ValidTime.closedAfter_refl row⟩⟩
  have keeps :
      ∀ (reached : MemoryHistory) (call : MemoryCall),
        (instant < call.now ∧ call.LeavesDatesUnset) →
          Recoverable instant state.table reached.table →
            Recoverable instant state.table (step backend reached call).table := by
    intro reached call permits recoverable
    have evolves :=
      evolvesAfter_perform backend reached.table permits.1 permits.2
    constructor
    · exact (ValidTime.asOf_of_evolvesAfter evolves).trans recoverable.known
    · intro row member
      obtain ⟨middle, present, early⟩ := recoverable.kept row member
      obtain ⟨kept, found, late⟩ :=
        ValidTime.exists_closedAfter_of_mem evolves present
      exact ⟨kept, found, early.trans late⟩
  have permitted :
      Permitted (step backend)
        (fun _ call => instant < call.now ∧ call.LeavesDatesUnset) state later :=
    permitted_of_forall
      (fun call member _ => ⟨after call member, unset call member⟩) state
  exact run_invariant_of_permitted keeps permitted begins

/-- A recall with room for every candidate returns the live rows of its scope. -/
theorem perm_of_recalled {store : PgVectorMemoryStore} {query scope : String}
    {k : Int} {items : List MemoryItem}
    (recalled : store.recallItems query scope k table = .ok items)
    (room : ((selectLive table scope).length : Int) ≤ k) :
    items.Perm
      ((selectLive table scope).map fun row => rowToItem row scope row.validTo) := by
  obtain ⟨vector, same⟩ := recall_eq_ok recalled
  have ranking : (store.ranked vector (selectLive table scope)).Perm
      (selectLive table scope) :=
    List.mergeSort_perm _ _
  have short : (store.ranked vector (selectLive table scope)).length ≤ k.toNat := by
    rw [ranking.length_eq]
    omega
  rw [same, List.take_of_length_le short]
  exact ranking.map _

/-- With everything settled, the rows known at an instant are the live ones. -/
theorem knownAt_of_settled {scope : String}
    (settled : ∀ row ∈ table.rows, rowReading.Settled instant row) :
    (knownAt table scope instant).map (fun row => rowToItem row scope) =
      (selectLive table scope).map fun row => rowToItem row scope row.validTo := by
  have sameRows :
      (table.rows.filter fun row => row.validTo.isNone).filter
          (fun row => row.scope == scope) =
        selectLive table scope := by
    rw [List.filter_filter]
    rfl
  have known :
      knownAt table scope instant =
        (selectLive table scope).map rowReading.data := by
    rw [knownAt, ValidTime.asOf_eq_live settled, ValidTime.live, List.filter_map,
      ← sameRows]
    rfl
  rw [known, List.map_map]
  apply List.map_congr_left
  intro row member
  have isLive := (List.mem_filter.mp member).2
  simp only [isLiveIn, Bool.and_eq_true, Option.isNone_iff_eq_none] at isLive
  rw [isLive.2]
  rfl

/-- Every recall that had room for all candidates returned what the final table
says was valid then, and every row there ever was is still there, unchanged but
for the end of its interval. -/
structure Reconstructible (backend : MemoryBackend) (history : List MemoryCall) :
    Prop where
  recalled :
    ∀ earlier call later query scope k items,
      history = earlier ++ call :: later →
        call.operation = .recallItems query scope k →
          (perform backend (run (step backend) {} earlier).table call).1 =
            .recalled (.ok items) →
          ((selectLive (run (step backend) {} earlier).table scope).length : Int) ≤
            k →
            items.Perm
              ((knownAt (run (step backend) {} history).table scope
                call.now).map fun row => rowToItem row scope)
  kept :
    ∀ earlier call later,
      history = earlier ++ call :: later →
        ∀ row ∈ (run (step backend) {} (earlier ++ [call])).table.rows,
          ∃ kept ∈ (run (step backend) {} history).table.rows,
            rowReading.ClosedAfter call.now row kept

/-- On one clock, a call comes after those before it and before those after it. -/
theorem now_of_oneClock {earlier later : List MemoryCall} {call : MemoryCall}
    (oneClock :
      ((earlier ++ call :: later).map MemoryCall.now).Pairwise (· < ·)) :
    (∀ other ∈ earlier, other.now < call.now) ∧
      ∀ other ∈ later, call.now < other.now := by
  rw [List.map_append, List.map_cons, List.pairwise_append,
    List.pairwise_cons] at oneClock
  obtain ⟨_, ⟨before, _⟩, across⟩ := oneClock
  constructor
  · intro other member
    exact across _ (List.mem_map_of_mem member) _ List.mem_cons_self
  · intro other member
    exact before _ (List.mem_map_of_mem member)

end MemoryHistory

open MemoryHistory

/-- The final table of a history on one clock answers every past recall. -/
theorem past_recalls_reconstructible (backend : MemoryBackend)
    (history : List MemoryCall)
    (oneClock : (history.map MemoryCall.now).Pairwise (· < ·))
    (unset : ∀ call ∈ history, call.LeavesDatesUnset) :
    Reconstructible backend history where
  recalled := by
    intro earlier call later query scope k items shape operation answered room
    rw [shape] at oneClock unset ⊢
    obtain ⟨before, after⟩ := now_of_oneClock oneClock
    have settled :
        ∀ row ∈ (run (step backend) {} earlier).table.rows,
          rowReading.Settled call.now row :=
      settled_run backend (fun other member => (before other member).le)
        fun other member => unset other (List.mem_append_left _ member)
    have untouched :
        (step backend (run (step backend) {} earlier) call).table =
          (run (step backend) {} earlier).table := by
      simp only [step, perform, operation]
    have recoverable :=
      recoverable_run backend (step backend (run (step backend) {} earlier) call)
        after fun other member =>
          unset other (List.mem_append_right _ (List.mem_cons_of_mem _ member))
    have sameKnown :
        knownAt (run (step backend) {} (earlier ++ call :: later)).table scope
            call.now =
          knownAt (run (step backend) {} earlier).table scope call.now := by
      rw [run_append, run_cons, knownAt, recoverable.known, untouched, knownAt]
    have found :
        (storeFor backend call).recallItems query scope k
            (run (step backend) {} earlier).table =
          .ok items := by
      simpa only [perform, operation, MemoryAnswer.recalled.injEq] using answered
    rw [sameKnown, knownAt_of_settled settled]
    exact perm_of_recalled found room
  kept := by
    intro earlier call later shape row member
    rw [shape] at oneClock unset ⊢
    obtain ⟨_, after⟩ := now_of_oneClock oneClock
    have recoverable :=
      recoverable_run backend (run (step backend) {} (earlier ++ [call])) after
        fun other member =>
          unset other (List.mem_append_right _ (List.mem_cons_of_mem _ member))
    rw [← run_append, List.append_assoc, List.singleton_append] at recoverable
    exact recoverable.kept row member

/-! ### A fact that is closed after it was recalled -/

def callItem : MemoryItem where
  content := "prefers calls"
  scope := "default"
  id := "00000000-0000-0000-0000-000000000000"

def everyItem : MemoryPredicate := ⟨"default", fun _ => .ok true⟩

def closedAfterRecall : List MemoryCall := [
  ⟨defaultEmbeddingModel, 10, .remember [callItem] "default"⟩,
  ⟨defaultEmbeddingModel, 20, .recallItems "how to reach them?" "default" 5⟩,
  ⟨defaultEmbeddingModel, 30, .invalidate everyItem⟩]

theorem closed_fact_is_reconstructible :
    Reconstructible plainBackend closedAfterRecall := by
  apply past_recalls_reconstructible
  · decide
  · intro call member items scope operation item present
    simp only [closedAfterRecall, List.mem_cons, List.not_mem_nil, or_false] at member
    rcases member with rfl | rfl | rfl
    · cases operation
      cases List.mem_singleton.mp present
      exact ⟨rfl, rfl⟩
    · cases operation
    · cases operation

end FableHarness
