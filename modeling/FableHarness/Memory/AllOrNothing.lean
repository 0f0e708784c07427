import FableHarness.Memory.MemoryDb

/-!
# All or nothing

A `remember` that raises leaves the table as it was.  One that returns has
added a row for every id that was new, built from the first item of the batch
with that id and from that item's own vector.
-/

namespace FableHarness

open PgVectorMemoryStore

/-- What a `remember` that returns did: `vectors` is what the encoder returned,
`added` are the new rows. -/
structure AddsBatch (store : PgVectorMemoryStore) (now : Timestamp)
    (items : List MemoryItem) (scope : String) (vectors : List (List ℚ))
    (added : List MemoryRow) (before after : MemoryTable) : Prop where
  encoded :
    items ≠ [] →
      ∃ encoder,
        store.backend.getEncoder store.encoderId = .ok encoder ∧
          encoder (items.map MemoryItem.content) = .ok vectors ∧
          ∀ vector ∈ vectors, vector.length = embeddingDim
  oneVectorEach : vectors.length = items.length
  /-- Every item has an id that parses and a row that the database takes. -/
  accepted :
    ∀ (i : Nat) (item : MemoryItem), items[i]? = some item →
      ∃ row vector,
        vectors[i]? = some vector ∧
          store.buildRow now scope item vector = .ok row ∧
          store.backend.rejectsRow row = none
  grown : after.rows = before.rows ++ added
  oneRowEach : (added.map MemoryRow.id).Nodup
  fromFirst :
    ∀ row ∈ added,
      row.id ∉ before.keys ∧
        ∃ (i : Nat) (item : MemoryItem) (vector : List ℚ),
          items[i]? = some item ∧ vectors[i]? = some vector ∧
            store.buildRow now scope item vector = .ok row ∧
            ∀ (j : Nat) (earlier : MemoryItem), j < i →
              items[j]? = some earlier → Uuid.parse earlier.id ≠ .ok row.id
  complete :
    ∀ item ∈ items, ∀ id, Uuid.parse item.id = .ok id →
      id ∈ before.keys ∨ id ∈ added.map MemoryRow.id

namespace PgVectorMemoryStore

variable {store : PgVectorMemoryStore} {now : Timestamp} {scope : String}
  {items : List MemoryItem} {vectors : List (List ℚ)} {rows : List MemoryRow}

/-- The first row with its id comes from the first item with that id. -/
theorem first_item_of_firstWithKey
    (aligned : Aligned store now scope items vectors rows) {row : MemoryRow}
    (first : KeyedTable.FirstWithKey MemoryRow.id rows row) :
    ∃ (i : Nat) (item : MemoryItem) (vector : List ℚ),
      items[i]? = some item ∧ vectors[i]? = some vector ∧
        store.buildRow now scope item vector = .ok row ∧
        ∀ (j : Nat) (earlier : MemoryItem), j < i →
          items[j]? = some earlier → Uuid.parse earlier.id ≠ .ok row.id := by
  obtain ⟨earlierRows, laterRows, shape, fresh⟩ := first
  have present : rows[earlierRows.length]? = some row := by
    rw [shape, List.getElem?_append_right le_rfl, Nat.sub_self,
      List.getElem?_cons_zero]
  obtain ⟨item, vector, itemAt, vectorAt, built⟩ :=
    aligned.built earlierRows.length row present
  refine
    ⟨earlierRows.length, item, vector, itemAt, vectorAt, built, ?_⟩
  intro j earlier before earlierAt sameId
  obtain ⟨earlierRow, _, rowAt, _, earlierBuilt⟩ := aligned.row_of_item earlierAt
  rw [shape, List.getElem?_append_left before] at rowAt
  have parsed := (rowOf_of_buildRow earlierBuilt).parsed
  rw [sameId] at parsed
  have equal : row.id = earlierRow.id := Except.ok.inj parsed
  apply fresh
  rw [equal]
  exact List.mem_map_of_mem (List.mem_of_getElem? rowAt)

theorem addsBatch_of_plannedRows
    (planned : store.plannedRows now items scope = .ok rows)
    (before : MemoryTable) :
    ∃ vectors added,
      AddsBatch store now items scope vectors added before
        (before.insertAll rows) := by
  obtain ⟨vectors, embedded, aligned⟩ := aligned_of_plannedRows planned
  obtain ⟨added, grown, fromRows, covered⟩ := before.rows_insertAll_first rows
  have taken :=
    List.findSome?_eq_none_iff.mp (plannedRows_eq_ok planned).1
  refine ⟨vectors, added, ?_⟩
  exact
    { encoded := fun nonempty => embed_eq_ok_iff.mp (embedded nonempty)
      oneVectorEach := aligned.vectors_length
      accepted := by
        intro i item itemAt
        obtain ⟨row, vector, rowAt, vectorAt, built⟩ :=
          aligned.row_of_item itemAt
        exact
          ⟨row, vector, vectorAt, built, taken row (List.mem_of_getElem? rowAt)⟩
      grown := grown
      oneRowEach := by
        have unique := (before.insertAll rows).uniqueKeys
        rw [grown, List.map_append] at unique
        exact (List.nodup_append.mp unique).2.1
      fromFirst := by
        intro row member
        obtain ⟨first, fresh⟩ := fromRows row member
        exact ⟨fresh, first_item_of_firstWithKey aligned first⟩
      complete := by
        intro item member id parsed
        obtain ⟨i, itemAt⟩ := List.mem_iff_getElem?.mp member
        obtain ⟨row, _, rowAt, _, built⟩ := aligned.row_of_item itemAt
        have sameId : row.id = id :=
          Except.ok.inj ((rowOf_of_buildRow built).parsed.symm.trans parsed)
        rw [← sameId]
        exact covered row (List.mem_of_getElem? rowAt) }

theorem addsBatch_of_remember {before after : MemoryTable}
    (remembered : store.remember now items scope before = .ok after) :
    ∃ vectors added,
      AddsBatch store now items scope vectors added before after := by
  obtain ⟨rows, planned, rfl⟩ := remember_eq_ok remembered
  exact addsBatch_of_plannedRows planned before

/-- `remember` is all or nothing: if it raises, the table is unchanged, and if
it returns, it has added its batch. -/
theorem remember_all_or_nothing (store : PgVectorMemoryStore)
    (items : List MemoryItem) (scope : String) (db : MemoryDb) :
    (∀ exc after,
        (store.memoryStore.remember items scope).run db = .error exc after →
          after.table = db.table) ∧
      ∀ after,
        (store.memoryStore.remember items scope).run db = .ok () after →
          ∃ vectors added,
            AddsBatch store db.now items scope vectors added db.table
              after.table := by
  constructor
  · exact fun exc after run => table_of_remember_raised run
  · intro after run
    exact addsBatch_of_remember (remember_of_run_ok run)

end PgVectorMemoryStore

end FableHarness
