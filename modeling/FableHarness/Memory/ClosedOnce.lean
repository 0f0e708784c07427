import Mathlib.Algebra.GroupWithZero.Nat
import FableHarness.Memory.ReadCommitted

/-!
# How often a fact is closed

Which runs close every fact once: those in which each `invalidate` still finds
its chosen rows live when it commits.
-/

namespace FableHarness

open LabelledRun PgVectorMemoryStore

namespace ReadCommitted

/-! ## Closed rows -/

def IsClosed (table : MemoryTable) (id : Uuid) : Prop :=
  ∃ row ∈ table.rows, row.id = id ∧ row.validTo.isSome

instance (table : MemoryTable) (id : Uuid) : Decidable (IsClosed table id) :=
  inferInstanceAs (Decidable (∃ row ∈ table.rows, _))

section Tables

variable {table : MemoryTable} {id : Uuid} {now : Timestamp} {ids : List Uuid}

theorem validTo_closeRow (now : Timestamp) (ids : List Uuid) (row : MemoryRow) :
    (closeRow now ids row).validTo =
      if row.id ∈ ids then some now else row.validTo := by
  unfold closeRow
  split <;> rfl

theorem isClosed_closeRows_iff :
    IsClosed (closeRows table now ids) id ↔
      IsClosed table id ∨ id ∈ ids ∧ id ∈ table.keys := by
  unfold IsClosed
  rw [rows_closeRows]
  constructor
  · rintro ⟨_, member, rfl, closed⟩
    obtain ⟨row, inTable, rfl⟩ := List.mem_map.mp member
    rw [id_closeRow]
    rw [validTo_closeRow] at closed
    by_cases chosen : row.id ∈ ids
    · exact Or.inr ⟨chosen, List.mem_map_of_mem inTable⟩
    · rw [if_neg chosen] at closed
      exact Or.inl ⟨row, inTable, rfl, closed⟩
  · rintro (⟨row, inTable, rfl, closed⟩ | ⟨chosen, inKeys⟩)
    · refine ⟨_, List.mem_map_of_mem inTable, id_closeRow .., ?_⟩
      rw [validTo_closeRow]
      split
      · rfl
      · exact closed
    · obtain ⟨row, inTable, rfl⟩ := List.mem_map.mp inKeys
      refine ⟨_, List.mem_map_of_mem inTable, id_closeRow .., ?_⟩
      rw [validTo_closeRow, if_pos chosen]
      rfl

theorem isClosed_insertAll_iff {rows : List MemoryRow}
    (live : ∀ row ∈ rows, row.validTo = none) :
    IsClosed (table.insertAll rows) id ↔ IsClosed table id := by
  constructor
  · rintro ⟨row, member, sameId, closed⟩
    rcases KeyedTable.mem_or_mem_of_mem_insertAll member with old | new
    · exact ⟨row, old, sameId, closed⟩
    · rw [live row new] at closed
      cases closed
  · rintro ⟨row, member, sameId, closed⟩
    exact ⟨row, KeyedTable.mem_insertAll_of_mem rows member, sameId, closed⟩

/-- A live row's id is not the id of a closed row. -/
theorem not_isClosed_of_live {row : MemoryRow} (member : row ∈ table.rows)
    (live : row.validTo = none) : ¬ IsClosed table row.id := by
  rintro ⟨other, otherMember, sameId, closed⟩
  cases table.eq_of_key_eq otherMember member sameId
  rw [live] at closed
  cases closed

end Tables

/-- The rows closed since the table was `start`. -/
def closedSince (start table : MemoryTable) : List MemoryRow :=
  table.rows.filter fun row =>
    row.validTo.isSome &&
      !start.rows.any fun old => old.id == row.id && old.validTo.isSome

theorem mem_closedSince_iff {start table : MemoryTable} {id : Uuid} :
    id ∈ (closedSince start table).map MemoryRow.id ↔
      IsClosed table id ∧ ¬ IsClosed start id := by
  unfold closedSince IsClosed
  simp only [List.mem_map, List.mem_filter, Bool.and_eq_true,
    Bool.not_eq_true', List.any_eq_false, beq_iff_eq, not_and, not_exists]
  constructor
  · rintro ⟨row, ⟨member, closed, fresh⟩, rfl⟩
    exact ⟨⟨row, member, rfl, closed⟩, fresh⟩
  · rintro ⟨⟨row, member, rfl, closed⟩, fresh⟩
    exact ⟨row, ⟨member, closed, fresh⟩, rfl⟩

theorem nodup_closedSince (start table : MemoryTable) :
    ((closedSince start table).map MemoryRow.id).Nodup :=
  (List.filter_sublist.map MemoryRow.id).nodup table.uniqueKeys

/-! ## What holds along a run -/

def IsCountedBy (db : ReadCommitted) (id : Uuid) (index : Nat) : Prop :=
  ∃ toClose,
    db.transactions[index]? = some (.invalidated toClose) ∧ id ∈ toClose

/-- The values returned so far by `invalidate` calls. -/
def counts (db : ReadCommitted) : List Nat :=
  db.transactions.filterMap Transaction.count?

/-- In every state of the run a closed row has not changed since it was closed,
each row closed so far is counted by exactly one `invalidate`, and the returned
counts add up to the number of closed rows. -/
structure ClosedOnce (start : ReadCommitted) (schedule : List Label) : Prop where
  stable :
    ∀ earlier later rest,
      schedule = earlier ++ later ++ rest →
        ∀ row ∈ (run step start earlier).table.rows,
          row.validTo.isSome →
            row ∈ (run step start (earlier ++ later)).table.rows
  countedOnce :
    ∀ earlier rest,
      schedule = earlier ++ rest →
        ∀ row ∈ closedSince start.table (run step start earlier).table,
          ∃! index, IsCountedBy (run step start earlier) row.id index
  total :
    ∀ earlier rest,
      schedule = earlier ++ rest →
        (run step start earlier).counts.sum =
          (closedSince start.table (run step start earlier).table).length

/-- The rows that the step under `label` closes. -/
def closing (db : ReadCommitted) : Label → List Uuid
  | .commit index => ((db.committing index).map Prod.snd).getD []
  | _ => []

/-- The rows about to be closed are live in the committed table. -/
def ClosesLive (db : ReadCommitted) (label : Label) : Prop :=
  ∀ id ∈ db.closing label, ¬ IsClosed db.table id

instance (db : ReadCommitted) (label : Label) : Decidable (db.ClosesLive label) :=
  inferInstanceAs (Decidable (∀ id ∈ db.closing label, _))

/-! ## Invariants of every run -/

/-- What a transaction has chosen are different rows of the table that were
live at the start, and what it is about to insert is live. -/
structure Sound (start table : MemoryTable) (transaction : Transaction) : Prop where
  nodup : transaction.chosen.Nodup
  inTable : ∀ id ∈ transaction.chosen, id ∈ table.keys
  openAtStart : ∀ id ∈ transaction.chosen, ¬ IsClosed start id
  livePending : ∀ row ∈ transaction.pending, row.validTo = none

structure Tracked (start : MemoryTable) (db : ReadCommitted) : Prop where
  sound : ∀ transaction ∈ db.transactions, Sound start db.table transaction
  staysClosed : ∀ id, IsClosed start id → IsClosed db.table id

section Invariants

variable {start : MemoryTable} {db : ReadCommitted} {label : Label}
  {transaction : Transaction}

theorem Sound.of_chosen_nil {table : MemoryTable}
    (noChoice : transaction.chosen = [])
    (livePending : ∀ row ∈ transaction.pending, row.validTo = none) :
    Sound start table transaction := by
  refine ⟨?_, ?_, ?_, livePending⟩ <;> simp [noChoice]

theorem Sound.of_keys_subset {table after : MemoryTable}
    (sound : Sound start table transaction)
    (grows : ∀ id ∈ table.keys, id ∈ after.keys) :
    Sound start after transaction :=
  ⟨sound.nodup, fun id member => grows id (sound.inTable id member),
    sound.openAtStart, sound.livePending⟩

/-- Everything chosen from the committed table is sound. -/
theorem Sound.of_chooseIds {store : PgVectorMemoryStore}
    {predicate : MemoryPredicate} {table : MemoryTable}
    (staysClosed : ∀ id, IsClosed start id → IsClosed table id)
    (chosen : store.chooseIds predicate table = .ok transaction.chosen)
    (pending : transaction.pending = []) :
    Sound start table transaction where
  nodup := nodup_of_chooseIds chosen
  inTable := by
    intro id member
    obtain ⟨row, inTable, rfl, _⟩ := live_of_mem_chooseIds chosen member
    exact List.mem_map_of_mem inTable
  openAtStart := by
    intro id member closed
    obtain ⟨row, inTable, rfl, live⟩ := live_of_mem_chooseIds chosen member
    simp only [isLiveIn, Bool.and_eq_true, Option.isNone_iff_eq_none] at live
    exact not_isClosed_of_live inTable live.2 (staysClosed _ closed)
  livePending := by simp [pending]

theorem keys_subset_insertAll (table : MemoryTable) (rows : List MemoryRow) :
    ∀ id ∈ table.keys, id ∈ (table.insertAll rows).keys := by
  intro id member
  obtain ⟨row, inTable, rfl⟩ := List.mem_map.mp member
  exact List.mem_map_of_mem (KeyedTable.mem_insertAll_of_mem rows inTable)

/-- Putting a sound transaction in the place of another, over a table that still
has all ids, keeps the transactions sound. -/
theorem Tracked.sound_of_set {after : ReadCommitted} {index : Nat}
    {new : Transaction} (tracked : Tracked start db)
    (transactions : after.transactions = db.transactions.set index new)
    (grows : ∀ id ∈ db.table.keys, id ∈ after.table.keys)
    (newSound : Sound start after.table new) :
    ∀ transaction ∈ after.transactions, Sound start after.table transaction := by
  rw [transactions]
  intro transaction member
  rcases List.mem_or_eq_of_mem_set member with kept | rfl
  · exact (tracked.sound transaction kept).of_keys_subset grows
  · exact newSound

theorem tracked_step (tracked : Tracked start db) :
    Tracked start (step db label) := by
  have soundAt : ∀ {index old}, db.transactions[index]? = some old →
      Sound start db.table old :=
    fun found => tracked.sound _ (List.mem_of_getElem? found)
  cases change_step db label with
  | idle table transactions =>
      refine ⟨?_, ?_⟩
      · rw [table, transactions]
        exact tracked.sound
      · rw [table]
        exact tracked.staysClosed
  | spawned fresh table transactions chosen _ pending =>
      refine ⟨?_, ?_⟩
      · rw [table, transactions]
        intro transaction member
        rcases List.mem_append.mp member with old | new
        · exact tracked.sound transaction old
        · cases List.mem_singleton.mp new
          exact Sound.of_chosen_nil chosen pending
      · rw [table]
        exact tracked.staysClosed
  | moved index old new table found transactions _ _ pending chosen =>
      refine ⟨tracked.sound_of_set transactions ?keys ?sound, ?closed⟩
      case keys =>
        rw [table]
        exact fun _ member => member
      case sound =>
        rw [table]
        rcases chosen with noChoice | same | ⟨store, predicate, picked⟩
        · exact Sound.of_chosen_nil noChoice (by simp [pending])
        · have before := soundAt found
          refine
            ⟨same ▸ before.nodup, same ▸ before.inTable,
              same ▸ before.openAtStart, by simp [pending]⟩
        · exact Sound.of_chooseIds tracked.staysClosed picked pending
      case closed =>
        rw [table]
        exact tracked.staysClosed
  | committed index now toClose locked _ _ found table transactions =>
      have before := soundAt found
      have sameKeys : (step db label).table.keys = db.table.keys := by
        rw [table, keys_closeRows]
      have grows : ∀ id ∈ db.table.keys, id ∈ (step db label).table.keys :=
        fun id member => sameKeys ▸ member
      refine ⟨tracked.sound_of_set transactions grows ?sound, ?closed⟩
      case sound =>
        exact
          ⟨before.nodup, fun id member => grows id (before.inTable id member),
            before.openAtStart, by simp [Transaction.pending]⟩
      case closed =>
        intro id closed
        rw [table, isClosed_closeRows_iff]
        exact Or.inl (tracked.staysClosed id closed)
  | inserted index rows found table transactions =>
      have livePending : ∀ row ∈ rows, row.validTo = none :=
        (soundAt found).livePending
      refine ⟨tracked.sound_of_set transactions ?keys ?sound, ?closed⟩
      case keys =>
        rw [table]
        exact keys_subset_insertAll db.table rows
      case sound =>
        exact Sound.of_chosen_nil rfl (by simp [Transaction.pending])
      case closed =>
        intro id closed
        rw [table, isClosed_insertAll_iff livePending]
        exact tracked.staysClosed id closed

theorem tracked_run {start : ReadCommitted} (fresh : start.transactions = [])
    (schedule : List Label) :
    Tracked start.table (run step start schedule) := by
  have begins : Tracked start.table start :=
    ⟨by simp [fresh], fun _ closed => closed⟩
  exact run_invariant step (fun _ _ tracked => tracked_step tracked) begins schedule

end Invariants

/-! ## Runs whose commits close live rows only -/

/-- All rows counted so far, transaction by transaction. -/
def reported (db : ReadCommitted) : List Uuid :=
  db.transactions.flatMap Transaction.reported

/-- No row was counted twice, and the counted rows are the closed ones. -/
structure Accounted (start : MemoryTable) (db : ReadCommitted) : Prop where
  nodup : db.reported.Nodup
  mem_iff : ∀ id, id ∈ db.reported ↔ IsClosed db.table id ∧ ¬ IsClosed start id

theorem perm_flatMap_set {transactions : List Transaction} {index : Nat}
    {old : Transaction} (new : Transaction)
    (found : transactions[index]? = some old)
    (unreported : old.reported = []) :
    ((transactions.set index new).flatMap Transaction.reported).Perm
      (new.reported ++ transactions.flatMap Transaction.reported) := by
  induction transactions generalizing index with
  | nil =>
      cases found
  | cons head rest inductionHypothesis =>
      cases index with
      | zero =>
          cases found
          rw [List.set_cons_zero, List.flatMap_cons, List.flatMap_cons,
            unreported, List.nil_append]
      | succ index =>
          rw [List.set_cons_succ, List.flatMap_cons, List.flatMap_cons]
          exact
            ((inductionHypothesis found).append_left head.reported).trans
              (List.perm_append_comm_assoc ..)

section Accounts

variable {start : MemoryTable} {db : ReadCommitted} {label : Label}

theorem closing_of_committing {index : Nat} {now : Timestamp}
    {toClose : List Uuid} (ready : db.committing index = some (now, toClose)) :
    db.closing (.commit index) = toClose := by
  simp [closing, ready]

theorem mem_closing {id : Uuid} (inClosing : id ∈ db.closing label) :
    ∃ index now toClose,
      label = .commit index ∧ db.committing index = some (now, toClose) ∧
        id ∈ toClose := by
  cases label with
  | commit index =>
      change id ∈ ((db.committing index).map Prod.snd).getD [] at inClosing
      cases ready : db.committing index with
      | none =>
          rw [ready] at inClosing
          cases inClosing
      | some update =>
          rw [ready] at inClosing
          exact ⟨index, update.1, update.2, rfl, ready, inClosing⟩
  | _ => cases inClosing

/-- Moving one transaction on without a report, over a table with the same
closed rows, keeps the accounts. -/
theorem Accounted.of_set {after : ReadCommitted} {index : Nat}
    {old new : Transaction} (accounted : Accounted start db)
    (found : db.transactions[index]? = some old)
    (transactions : after.transactions = db.transactions.set index new)
    (oldReported : old.reported = []) (newReported : new.reported = [])
    (sameClosed : ∀ id, IsClosed after.table id ↔ IsClosed db.table id) :
    Accounted start after := by
  have same : after.reported.Perm db.reported := by
    have moved := perm_flatMap_set new found oldReported
    rw [newReported, List.nil_append] at moved
    unfold reported
    rw [transactions]
    exact moved
  constructor
  · exact same.nodup_iff.mpr accounted.nodup
  · intro id
    rw [same.mem_iff, accounted.mem_iff, sameClosed]

theorem accounted_step (tracked : Tracked start db)
    (accounted : Accounted start db) (closesLive : db.ClosesLive label) :
    Accounted start (step db label) := by
  cases change_step db label with
  | idle table transactions =>
      constructor
      · rw [reported, transactions]
        exact accounted.nodup
      · rw [reported, transactions, table]
        exact accounted.mem_iff
  | spawned fresh table transactions _ unreported _ =>
      have same : (step db label).reported = db.reported := by
        simp [reported, transactions, unreported]
      exact
        ⟨same ▸ accounted.nodup, by rw [same, table]; exact accounted.mem_iff⟩
  | moved index old new table found transactions oldReported newReported =>
      exact
        accounted.of_set found transactions oldReported newReported
          (by simp [table])
  | committed index now toClose locked taken ready found table transactions =>
      have sound := tracked.sound _ (List.mem_of_getElem? found)
      have live : ∀ id ∈ toClose, ¬ IsClosed db.table id := by
        subst taken
        rw [ClosesLive, closing_of_committing ready] at closesLive
        exact closesLive
      have grown : (step db label).reported.Perm (toClose ++ db.reported) := by
        rw [reported, transactions]
        exact perm_flatMap_set _ found rfl
      constructor
      · rw [grown.nodup_iff, List.nodup_append']
        refine ⟨sound.nodup, accounted.nodup, ?_⟩
        intro id chosen counted
        exact live id chosen ((accounted.mem_iff id).mp counted).1
      · intro id
        rw [grown.mem_iff, List.mem_append, accounted.mem_iff, table,
          isClosed_closeRows_iff]
        constructor
        · rintro (chosen | ⟨closed, fresh⟩)
          · exact
              ⟨Or.inr ⟨chosen, sound.inTable id chosen⟩,
                sound.openAtStart id chosen⟩
          · exact ⟨Or.inl closed, fresh⟩
        · rintro ⟨closed | ⟨chosen, _⟩, fresh⟩
          · exact Or.inr ⟨closed, fresh⟩
          · exact Or.inl chosen
  | inserted index rows found table transactions =>
      have live : ∀ row ∈ rows, row.validTo = none :=
        (tracked.sound _ (List.mem_of_getElem? found)).livePending
      apply accounted.of_set found transactions rfl rfl
      intro id
      rw [table, isClosed_insertAll_iff live]

/-- A step that closes live rows only does not touch a closed row. -/
theorem mem_step_of_closed (closesLive : db.ClosesLive label) {row : MemoryRow}
    (member : row ∈ db.table.rows) (closed : row.validTo.isSome) :
    row ∈ (step db label).table.rows := by
  cases change_step db label with
  | idle table => rw [table]; exact member
  | spawned _ table => rw [table]; exact member
  | moved _ _ _ table => rw [table]; exact member
  | inserted index rows _ table =>
      rw [table]
      exact KeyedTable.mem_insertAll_of_mem rows member
  | committed index now toClose _ taken ready _ table =>
      subst taken
      rw [ClosesLive, closing_of_committing ready] at closesLive
      have apart : row.id ∉ toClose :=
        fun chosen => closesLive row.id chosen ⟨row, member, rfl, closed⟩
      rw [table, rows_closeRows]
      exact List.mem_map.mpr ⟨row, member, closeRow_of_not_mem apart⟩

/-! ### Reading the accounts -/

theorem mem_reported_iff {id : Uuid} :
    id ∈ db.reported ↔ ∃ index, IsCountedBy db id index := by
  unfold reported IsCountedBy
  rw [List.mem_flatMap]
  constructor
  · rintro ⟨transaction, member, inReport⟩
    obtain ⟨index, found⟩ := List.mem_iff_getElem?.mp member
    cases transaction with
    | invalidated toClose => exact ⟨index, toClose, found, inReport⟩
    | begun => cases inReport
    | updating => cases inReport
    | inserting => cases inReport
    | remembered => cases inReport
    | raised => cases inReport
  · rintro ⟨index, toClose, found, inReport⟩
    exact ⟨_, List.mem_of_getElem? found, inReport⟩

theorem index_unique_of_nodup {id : Uuid} (nodup : db.reported.Nodup)
    {left right : Nat} (leftCounts : IsCountedBy db id left)
    (rightCounts : IsCountedBy db id right) : left = right := by
  obtain ⟨leftClose, leftFound, leftMember⟩ := leftCounts
  obtain ⟨rightClose, rightFound, rightMember⟩ := rightCounts
  have disjoint := (List.nodup_flatMap.mp nodup).2
  rw [List.pairwise_iff_getElem] at disjoint
  obtain ⟨leftBound, leftAt⟩ := List.getElem?_eq_some_iff.mp leftFound
  obtain ⟨rightBound, rightAt⟩ := List.getElem?_eq_some_iff.mp rightFound
  rcases Nat.lt_trichotomy left right with less | same | more
  · have apart : List.Disjoint _ _ := disjoint left right leftBound rightBound less
    rw [leftAt, rightAt] at apart
    exact (apart leftMember rightMember).elim
  · exact same
  · have apart : List.Disjoint _ _ := disjoint right left rightBound leftBound more
    rw [leftAt, rightAt] at apart
    exact (apart rightMember leftMember).elim

theorem sum_counts (db : ReadCommitted) :
    db.counts.sum = db.reported.length := by
  unfold counts reported
  induction db.transactions with
  | nil =>
      rfl
  | cons transaction rest inductionHypothesis =>
      rw [List.flatMap_cons, List.length_append, ← inductionHypothesis]
      cases transaction <;>
        simp [List.filterMap_cons, Transaction.count?, Transaction.reported]

theorem Accounted.countedOnce (accounted : Accounted start db) {row : MemoryRow}
    (closed : row ∈ closedSince start db.table) :
    ∃! index, IsCountedBy db row.id index := by
  have inReport : row.id ∈ db.reported :=
    (accounted.mem_iff row.id).mpr
      (mem_closedSince_iff.mp (List.mem_map_of_mem closed))
  obtain ⟨index, counts⟩ := mem_reported_iff.mp inReport
  exact
    ⟨index, counts, fun other otherCounts =>
      index_unique_of_nodup accounted.nodup otherCounts counts⟩

theorem Accounted.total (accounted : Accounted start db) :
    db.counts.sum = (closedSince start db.table).length := by
  have same : db.reported.Perm ((closedSince start db.table).map MemoryRow.id) := by
    rw [List.perm_ext_iff_of_nodup accounted.nodup (nodup_closedSince _ _)]
    intro id
    rw [accounted.mem_iff, mem_closedSince_iff]
  rw [sum_counts, same.length_eq, List.length_map]

end Accounts

/-! ## Facts are closed once exactly when commits close live rows -/

section Runs

variable {start : ReadCommitted} {schedule : List Label}

theorem accounted_run (fresh : start.transactions = [])
    (closesLive : Permitted step ClosesLive start schedule) :
    Accounted start.table (run step start schedule) := by
  have begins :
      Tracked start.table start ∧ Accounted start.table start := by
    refine ⟨tracked_run fresh [], ?_, ?_⟩
    · simp [reported, fresh]
    · intro id
      simp [reported, fresh]
  have keeps : ∀ db label, ClosesLive db label →
      Tracked start.table db ∧ Accounted start.table db →
        Tracked start.table (step db label) ∧
          Accounted start.table (step db label) := by
    rintro db label permits ⟨tracked, accounted⟩
    exact ⟨tracked_step tracked, accounted_step tracked accounted permits⟩
  exact (run_invariant_of_permitted keeps closesLive begins).2

theorem closedOnce_of_closesLive (fresh : start.transactions = [])
    (closesLive : Permitted step ClosesLive start schedule) :
    ClosedOnce start schedule where
  stable := by
    rintro earlier later rest rfl row member closed
    have onLater :=
      permitted_append_right (permitted_append_left closesLive)
    have keeps : ∀ db label, ClosesLive db label →
        row ∈ db.table.rows → row ∈ (step db label).table.rows :=
      fun _ _ permits inTable => mem_step_of_closed permits inTable closed
    rw [run_append]
    exact run_invariant_of_permitted keeps onLater member
  countedOnce := by
    rintro earlier rest rfl row closed
    exact
      (accounted_run fresh (permitted_append_left closesLive)).countedOnce closed
  total := by
    rintro earlier rest rfl
    exact (accounted_run fresh (permitted_append_left closesLive)).total

/-- A commit that closes a closed row counts it a second time. -/
theorem closesLive_of_closedOnce (fresh : start.transactions = [])
    (closedOnce : ClosedOnce start schedule) :
    Permitted step ClosesLive start schedule := by
  intro earlier label rest shape id inClosing closed
  obtain ⟨index, now, toClose, rfl, ready, chosen⟩ := mem_closing inClosing
  obtain ⟨locked, found, _⟩ := committing_eq_some ready
  have tracked := tracked_run fresh earlier
  have openAtStart :=
    (tracked.sound _ (List.mem_of_getElem? found)).openAtStart id chosen
  have shapeAfter : schedule = (earlier ++ [.commit index]) ++ rest := by
    rw [shape, List.append_assoc]
    rfl
  have committed :
      run step start (earlier ++ [.commit index]) =
        { (run step start earlier).put index (.invalidated toClose) with
          table := closeRows (run step start earlier).table now toClose } := by
    rw [run_concat]
    simp only [step, ready]
  -- The row was counted when it was closed first.
  obtain ⟨row, closedBefore, rfl⟩ :=
    List.mem_map.mp (mem_closedSince_iff.mpr ⟨closed, openAtStart⟩)
  obtain ⟨first, ⟨ids, firstFound, firstCounts⟩, _⟩ :=
    closedOnce.countedOnce earlier _ shape row closedBefore
  have different : first ≠ index := by
    rintro rfl
    rw [found] at firstFound
    cases firstFound
  have bound := (List.getElem?_eq_some_iff.mp found).1
  -- After the commit both transactions count it.
  have closedAfter :
      IsClosed (run step start (earlier ++ [.commit index])).table row.id := by
    rw [committed]
    exact isClosed_closeRows_iff.mpr (Or.inl closed)
  obtain ⟨rowAfter, stillClosed, sameId⟩ :=
    List.mem_map.mp (mem_closedSince_iff.mpr ⟨closedAfter, openAtStart⟩)
  obtain ⟨_, _, unique⟩ :=
    closedOnce.countedOnce _ _ shapeAfter rowAfter stillClosed
  have byFirst :
      IsCountedBy (run step start (earlier ++ [.commit index])) rowAfter.id
        first := by
    refine ⟨ids, ?_, sameId ▸ firstCounts⟩
    rw [committed]
    exact (List.getElem?_set_ne (Ne.symm different)).trans firstFound
  have bySecond :
      IsCountedBy (run step start (earlier ++ [.commit index])) rowAfter.id
        index := by
    refine ⟨toClose, ?_, sameId ▸ chosen⟩
    rw [committed]
    exact List.getElem?_set_self bound
  exact different ((unique _ byFirst).trans (unique _ bySecond).symm)

/-- A run closes every fact once exactly when every commit of an `invalidate`
finds the rows it has chosen still live. -/
theorem facts_closed_once_iff
    (start : ReadCommitted) (fresh : start.transactions = [])
    (schedule : List Label) :
    ClosedOnce start schedule ↔ Permitted step ClosesLive start schedule :=
  ⟨closesLive_of_closedOnce fresh, closedOnce_of_closesLive fresh⟩

end Runs

/-! ### Two overlapping invalidations -/

def sharedId : Uuid := ⟨List.replicate 32 ⟨0, by decide⟩, rfl⟩

def sharedRow : MemoryRow where
  id := sharedId
  scope := "default"
  content := "prefers calls"
  embedding := []
  encoderId := defaultEmbeddingModel
  source := "unknown"
  validFrom := 0

/-- One live row, and no transaction yet. -/
def sharedStart : ReadCommitted where
  table := (∅ : MemoryTable).insertAll [sharedRow]
  clock := 10

def everything : MemoryPredicate := ⟨"default", fun _ => .ok true⟩

/-- The second invalidation starts after the first has committed. -/
def serialSchedule : List Label :=
  [.begin ⟨plainBackend, defaultEmbeddingModel⟩ everything, .select 0,
    .lock 0 sharedId, .commit 0, .tick 5,
    .begin ⟨plainBackend, defaultEmbeddingModel⟩ everything, .select 1, .commit 1]

theorem serial_invalidations_close_once : ClosedOnce sharedStart serialSchedule :=
  (facts_closed_once_iff sharedStart rfl serialSchedule).mpr (by decide)

/-- Both invalidations select before either commits. -/
def overlappingSchedule : List Label :=
  [.begin ⟨plainBackend, defaultEmbeddingModel⟩ everything, .tick 5,
    .begin ⟨plainBackend, defaultEmbeddingModel⟩ everything,
    .select 0, .select 1, .lock 0 sharedId, .commit 0, .lock 1 sharedId,
    .commit 1]

/-- The one row is counted twice, and the second commit moves its `valid_to`
from 10 to 15. -/
theorem overlapping_invalidations_close_twice :
    ¬ ClosedOnce sharedStart overlappingSchedule ∧
      (run step sharedStart overlappingSchedule).counts = [1, 1] ∧
      (run step sharedStart (overlappingSchedule.take 7)).table.rows.map
          MemoryRow.validTo = [some 10] ∧
      (run step sharedStart overlappingSchedule).table.rows.map
          MemoryRow.validTo = [some 15] := by
  refine ⟨?_, by decide, by decide, by decide⟩
  intro closedOnce
  have total := closedOnce.total overlappingSchedule [] (by simp)
  revert total
  decide

end ReadCommitted

end FableHarness
