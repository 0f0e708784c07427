import FableHarness.Memory.AllOrNothing
import FableHarness.Memory.ClosedOnce
import FableHarness.Memory.Reconstruction

/-!
# Reading back what was remembered

A recall with room shows every new item of a batch, but with the canonical text
of its id, and live: the insert leaves `valid_to` out.
-/

namespace FableHarness

open PgVectorMemoryStore MemoryHistory

/-- The text that `str` writes for some UUID. -/
def Uuid.Canonical (text : String) : Prop :=
  ∃ uuid : Uuid, text = uuid.str

/-- `found` is `item` as it was remembered. -/
structure ReadsBackAs (item found : MemoryItem) : Prop where
  id : found.id = item.id
  content : found.content = item.content
  source : found.source = item.source
  validFrom :
    ∀ start, item.validFrom = some start → found.validFrom = some start

/-- A recall shows the live items of a batch, and no closed one as live. -/
structure ReadsBack (items recalled : List MemoryItem) : Prop where
  live :
    ∀ item ∈ items, item.isLive = true →
      ∃ found ∈ recalled, ReadsBackAs item found
  closed :
    ∀ item ∈ items, item.isLive = false →
      ∀ found ∈ recalled, found.isLive = true →
        Uuid.parse found.id ≠ Uuid.parse item.id

theorem Uuid.eq_str_of_canonical {text : String} {id : Uuid}
    (canonical : Uuid.Canonical text) (parsed : Uuid.parse text = .ok id) :
    text = id.str := by
  obtain ⟨uuid, rfl⟩ := canonical
  rw [Uuid.parse_str] at parsed
  cases parsed
  rfl

section Batch

variable {store : PgVectorMemoryStore} {now : Timestamp} {scope : String}
  {items recalled : List MemoryItem} {vectors : List (List ℚ)}
  {added : List MemoryRow} {before after : MemoryTable}

theorem isLiveIn_of_buildRow {item : MemoryItem} {vector : List ℚ}
    {row : MemoryRow}
    (built : store.buildRow now scope item vector = .ok row) :
    isLiveIn scope row = true := by
  have isRow := rowOf_of_buildRow built
  simp [isLiveIn, isRow.inScope, isRow.isOpen]

/-- A new row of the batch is shown by a recall with room. -/
theorem mem_recalled_of_added
    (adds : AddsBatch store now items scope vectors added before after)
    (shown :
      recalled.Perm
        ((selectLive after scope).map fun row => rowToItem row scope row.validTo))
    {row : MemoryRow} (member : row ∈ added) :
    rowToItem row scope row.validTo ∈ recalled := by
  obtain ⟨_, i, item, vector, _, _, built, _⟩ := adds.fromFirst row member
  have inTable : row ∈ after.rows := by
    rw [adds.grown]
    exact List.mem_append_right _ member
  refine shown.mem_iff.mpr (List.mem_map_of_mem ?_)
  exact List.mem_filter.mpr ⟨inTable, isLiveIn_of_buildRow built⟩

/-- Every new row is read back as a live fact. -/
theorem isLive_of_added
    (adds : AddsBatch store now items scope vectors added before after)
    {row : MemoryRow} (member : row ∈ added) :
    (rowToItem row scope row.validTo).isLive = true := by
  obtain ⟨_, _, _, _, _, _, built, _⟩ := adds.fromFirst row member
  rw [(rowOf_of_buildRow built).isOpen]
  rfl

theorem exists_added_of_fresh
    (adds : AddsBatch store now items scope vectors added before after)
    {item : MemoryItem} (member : item ∈ items) {id : Uuid}
    (parsed : Uuid.parse item.id = .ok id) (fresh : id ∉ before.keys) :
    ∃ row ∈ added, row.id = id := by
  rcases adds.complete item member id parsed with old | new
  · exact absurd old fresh
  · obtain ⟨row, inAdded, sameId⟩ := List.mem_map.mp new
    exact ⟨row, inAdded, sameId⟩

/-- With canonical ids, a new row comes from the item with its id. -/
theorem builtFrom_of_canonical
    (adds : AddsBatch store now items scope vectors added before after)
    (distinct : (items.map MemoryItem.id).Nodup)
    (canonical : ∀ item ∈ items, Uuid.Canonical item.id)
    {row : MemoryRow} (inAdded : row ∈ added) {item : MemoryItem}
    (member : item ∈ items) (parsed : Uuid.parse item.id = .ok row.id) :
    ∃ vector, store.buildRow now scope item vector = .ok row := by
  obtain ⟨_, i, source, vector, sourceAt, _, built, _⟩ :=
    adds.fromFirst row inAdded
  have sourceMember : source ∈ items := List.mem_of_getElem? sourceAt
  have sameText : source.id = item.id :=
    calc
      source.id = row.id.str :=
        Uuid.eq_str_of_canonical (canonical source sourceMember)
          (rowOf_of_buildRow built).parsed
      _ = item.id :=
        (Uuid.eq_str_of_canonical (canonical item member) parsed).symm
  have same : source = item :=
    List.inj_on_of_nodup_map distinct sourceMember member sameText
  exact ⟨vector, same ▸ built⟩

theorem readsBackAs_rowToItem {item : MemoryItem} {vector : List ℚ}
    {row : MemoryRow} (canonical : Uuid.Canonical item.id)
    (built : store.buildRow now scope item vector = .ok row) :
    ReadsBackAs item (rowToItem row scope row.validTo) := by
  have isRow := rowOf_of_buildRow built
  exact
    { id := (Uuid.eq_str_of_canonical canonical isRow.parsed).symm
      content := isRow.content
      source := isRow.source
      validFrom := by
        intro start dated
        have starts := isRow.validFrom
        rw [dated] at starts
        exact congrArg some starts }

/-- What a recall shows has a canonical id. -/
theorem canonical_of_mem_recalled
    (shown :
      recalled.Perm
        ((selectLive after scope).map fun row => rowToItem row scope row.validTo))
    {found : MemoryItem} (member : found ∈ recalled) :
    Uuid.Canonical found.id := by
  obtain ⟨row, _, rfl⟩ := List.mem_map.mp (shown.mem_iff.mp member)
  exact ⟨row.id, rfl⟩

/-- A batch of new ids reads back exactly if every item is live and carries the
canonical text of its id. -/
theorem readsBack_iff (store : PgVectorMemoryStore) (now : Timestamp)
    (items : List MemoryItem) (scope : String) (before after : MemoryTable)
    (valid : ∀ item ∈ items, ∃ id, Uuid.parse item.id = .ok id)
    (distinct : (items.map MemoryItem.id).Nodup)
    (fresh :
      ∀ item ∈ items, ∀ id, Uuid.parse item.id = .ok id → id ∉ before.keys)
    (remembered : store.remember now items scope before = .ok after)
    (reader : PgVectorMemoryStore) (query : String) (k : Int)
    (recalled : List MemoryItem)
    (returned : reader.recallItems query scope k after = .ok recalled)
    (room : ((selectLive after scope).length : Int) ≤ k) :
    ReadsBack items recalled ↔
      ∀ item ∈ items, item.isLive = true ∧ Uuid.Canonical item.id := by
  have shown := perm_of_recalled returned room
  obtain ⟨vectors, added, adds⟩ := addsBatch_of_remember remembered
  constructor
  · intro readsBack item member
    cases live : item.isLive with
    | true =>
        obtain ⟨found, inRecalled, same⟩ := readsBack.live item member live
        refine ⟨rfl, ?_⟩
        rw [← same.id]
        exact canonical_of_mem_recalled shown inRecalled
    | false =>
        obtain ⟨id, parsed⟩ := valid item member
        obtain ⟨row, inAdded, sameId⟩ :=
          exists_added_of_fresh adds member parsed (fresh item member id parsed)
        have different :=
          readsBack.closed item member live _
            (mem_recalled_of_added adds shown inAdded)
            (isLive_of_added adds inAdded)
        refine absurd ?_ different
        show Uuid.parse row.id.str = Uuid.parse item.id
        rw [Uuid.parse_str, parsed, sameId]
  · intro wellFormed
    refine ⟨?_, ?_⟩
    · intro item member _
      obtain ⟨id, parsed⟩ := valid item member
      obtain ⟨row, inAdded, rfl⟩ :=
        exists_added_of_fresh adds member parsed (fresh item member id parsed)
      obtain ⟨vector, built⟩ :=
        builtFrom_of_canonical adds distinct
          (fun each inItems => (wellFormed each inItems).2) inAdded member parsed
      exact
        ⟨_, mem_recalled_of_added adds shown inAdded,
          readsBackAs_rowToItem (wellFormed item member).2 built⟩
    · intro item member closed
      rw [(wellFormed item member).1] at closed
      cases closed

end Batch

/-! ### One item, remembered and recalled -/

def plainStore : PgVectorMemoryStore := ⟨plainBackend, defaultEmbeddingModel⟩

/-- The row of an item with the id of `callItem`. -/
def callRow (item : MemoryItem) : MemoryRow where
  id := ReadCommitted.sharedId
  scope := "default"
  content := item.content
  embedding := List.replicate embeddingDim 0
  encoderId := defaultEmbeddingModel
  source := item.source
  validFrom := item.validFrom.getD 10

def callTable (item : MemoryItem) : MemoryTable :=
  (∅ : MemoryTable).insertAll [callRow item]

theorem remember_callItem {item : MemoryItem} (sameId : item.id = callItem.id) :
    plainStore.remember 10 [item] "default" ∅ = .ok (callTable item) := by
  have parsed : Uuid.parse item.id = .ok ReadCommitted.sharedId := by
    rw [sameId]
    rfl
  rw [remember_eq_map, plainStore, plannedRows_plainBackend parsed]
  rfl

theorem recall_callItem (item : MemoryItem) :
    plainStore.recallItems "how to reach them?" "default" 5 (callTable item) =
      .ok [rowToItem (callRow item) "default"] :=
  recallItems_plainBackend defaultEmbeddingModel "how to reach them?" "default"
    (k := 5) (by decide) (callTable item)

/-- The item comes back as it was remembered. -/
theorem callItem_reads_back :
    ReadsBack [callItem] [rowToItem (callRow callItem) "default"] := by
  have valid :
      ∀ item ∈ [callItem], ∃ id, Uuid.parse item.id = .ok id := by
    intro item member
    cases List.mem_singleton.mp member
    exact ⟨ReadCommitted.sharedId, rfl⟩
  apply
    (readsBack_iff plainStore 10 [callItem] "default" ∅ (callTable callItem)
      valid (List.nodup_singleton _) (fun _ _ _ _ => List.not_mem_nil)
      (remember_callItem rfl) plainStore "how to reach them?" 5 _
      (recall_callItem callItem) (by decide)).mpr
  intro item member
  cases List.mem_singleton.mp member
  exact ⟨rfl, ReadCommitted.sharedId, rfl⟩

/-- An item that was closed at time 5. -/
def closedItem : MemoryItem := { callItem with validTo := some 5 }

/-- A closed item comes back live. -/
theorem closed_item_reads_back_live :
    ¬ ∀ (store : PgVectorMemoryStore) (now : Timestamp)
        (items : List MemoryItem) (scope : String) (before after : MemoryTable),
      (∀ item ∈ items, ∃ id, Uuid.parse item.id = .ok id) →
      (items.map MemoryItem.id).Nodup →
      (∀ item ∈ items, ∀ id, Uuid.parse item.id = .ok id →
        id ∉ before.keys) →
      store.remember now items scope before = .ok after →
      ∀ (reader : PgVectorMemoryStore) (query : String) (k : Int)
        (recalled : List MemoryItem),
        reader.recallItems query scope k after = .ok recalled →
        ((selectLive after scope).length : Int) ≤ k →
        ReadsBack items recalled := by
  intro always
  have readsBack : ReadsBack [closedItem] [rowToItem (callRow closedItem) "default"] :=
    always plainStore 10 [closedItem] "default" ∅ (callTable closedItem)
      (by
        intro item member
        cases List.mem_singleton.mp member
        exact ⟨ReadCommitted.sharedId, rfl⟩)
      (List.nodup_singleton _) (fun _ _ _ _ => List.not_mem_nil)
      (remember_callItem rfl) plainStore "how to reach them?" 5 _
      (recall_callItem closedItem) (by decide)
  refine
    readsBack.closed closedItem List.mem_cons_self rfl _ List.mem_cons_self rfl ?_
  show Uuid.parse (callRow closedItem).id.str = Uuid.parse callItem.id
  rw [Uuid.parse_str]
  rfl

end FableHarness
