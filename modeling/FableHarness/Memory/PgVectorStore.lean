import Mathlib.Algebra.Order.Ring.Rat
import FableHarness.Library.KeyedTable
import FableHarness.Memory.Store

/-!
# The pgvector store

Each operation is a function of the clock reading it makes and of the table it
finds, and every statement it sends is a function on tables.  Postgres and the
encoder are parameters: what they reject and how rows are ranked is arbitrary.
-/

namespace FableHarness

def defaultEmbeddingModel : String := "text-embedding-3-small"

def embeddingDim : Nat := 1536

/-- A row of `memory_items`. -/
structure MemoryRow where
  id : Uuid
  scope : String
  content : String
  embedding : List ℚ
  encoderId : String
  source : String
  validFrom : Timestamp
  validTo : Option Timestamp := none

abbrev MemoryTable := KeyedTable MemoryRow.id

/-- A dense encoder: one vector for each text, as long as it keeps its word. -/
abbrev Encoder := List String → Except PyExc (List (List ℚ))

/-- The outside code below the store. -/
structure MemoryBackend where
  /-- Text that cannot be sent, such as one with a NUL character. -/
  rejectsText : String → Option PyExc
  /-- A row that cannot be inserted although its texts can be sent. -/
  refusesRow : MemoryRow → Option PyExc
  /-- `ORDER BY embedding <=> $2` with its rule for ties. -/
  nearer : List ℚ → MemoryRow → MemoryRow → Bool
  getEncoder : String → Except PyExc Encoder

def MemoryBackend.rejectsRow (backend : MemoryBackend) (row : MemoryRow) :
    Option PyExc :=
  ([row.scope, row.content, row.encoderId, row.source].findSome?
      backend.rejectsText).or
    (backend.refusesRow row)

/-- A backend that rejects nothing, embeds every text alike and keeps rows in
the order of their insertion. -/
def plainBackend : MemoryBackend where
  rejectsText _ := none
  refusesRow _ := none
  nearer _ _ _ := true
  getEncoder _ := .ok fun texts =>
    .ok (texts.map fun _ => List.replicate embeddingDim 0)

structure PgVectorMemoryStore where
  backend : MemoryBackend
  encoderId : String := defaultEmbeddingModel

namespace PgVectorMemoryStore

def raiseIf : Option PyExc → Except PyExc Unit
  | none => .ok ()
  | some exc => .error exc

/-! ## Embedding -/

def wrongDimension (encoderId : String) (dimension : Nat) : PyExc :=
  .other "AssertionError" <|
    "encoder '" ++ encoderId ++ "' returned a " ++ toString dimension ++
      "-dim vector, expected " ++ toString embeddingDim ++
      " — embedding_model_id and the memory_items" ++
      " schema (harness/memory/init.sql) must agree"

def embed (store : PgVectorMemoryStore) (texts : List String) :
    Except PyExc (List (List ℚ)) := do
  let encoder ← store.backend.getEncoder store.encoderId
  let vectors ← encoder texts
  match vectors.find? fun vector => vector.length != embeddingDim with
  | some vector => .error (wrongDimension store.encoderId vector.length)
  | none => .ok vectors

/-- What `embed` returns is what the encoder returned, and of the right
dimension. -/
theorem embed_eq_ok_iff {store : PgVectorMemoryStore} {texts : List String}
    {vectors : List (List ℚ)} :
    store.embed texts = .ok vectors ↔
      ∃ encoder,
        store.backend.getEncoder store.encoderId = .ok encoder ∧
          encoder texts = .ok vectors ∧
          ∀ vector ∈ vectors, vector.length = embeddingDim := by
  unfold embed
  cases store.backend.getEncoder store.encoderId with
  | error exc =>
      simp [bind, Except.bind]
  | ok encoder =>
      cases encodes : encoder texts with
      | error exc =>
          simp [bind, Except.bind, encodes]
      | ok encoded =>
          simp only [bind, Except.bind, encodes, Except.ok.injEq,
            exists_eq_left']
          cases odd : encoded.find? fun vector => vector.length != embeddingDim with
          | some vector =>
              have found := List.find?_some odd
              have member := List.mem_of_find?_eq_some odd
              constructor
              · intro embedded
                cases embedded
              · rintro ⟨rfl, dimension⟩
                simp [dimension vector member] at found
          | none =>
              have even := List.find?_eq_none.mp odd
              constructor
              · intro embedded
                cases embedded
                exact ⟨rfl, fun vector member => by simpa using even vector member⟩
              · rintro ⟨rfl, _⟩
                rfl

theorem embed_plainBackend (encoderId : String) (texts : List String) :
    (⟨plainBackend, encoderId⟩ : PgVectorMemoryStore).embed texts =
      .ok (texts.map fun _ => List.replicate embeddingDim 0) := by
  apply embed_eq_ok_iff.mpr
  refine ⟨_, rfl, rfl, ?_⟩
  intro vector member
  obtain ⟨_, _, rfl⟩ := List.mem_map.mp member
  exact List.length_replicate

/-! ## Statements on the table -/

def isLiveIn (scope : String) (row : MemoryRow) : Bool :=
  row.scope == scope && row.validTo.isNone

/-- `WHERE scope = $1 AND valid_to IS NULL` -/
def selectLive (table : MemoryTable) (scope : String) : List MemoryRow :=
  table.rows.filter (isLiveIn scope)

def closeRow (now : Timestamp) (ids : List Uuid) (row : MemoryRow) : MemoryRow :=
  if row.id ∈ ids then { row with validTo := some now } else row

@[simp]
theorem id_closeRow (now : Timestamp) (ids : List Uuid) (row : MemoryRow) :
    (closeRow now ids row).id = row.id := by
  unfold closeRow
  split <;> rfl

@[simp]
theorem scope_closeRow (now : Timestamp) (ids : List Uuid) (row : MemoryRow) :
    (closeRow now ids row).scope = row.scope := by
  unfold closeRow
  split <;> rfl

theorem closeRow_of_not_mem {now : Timestamp} {ids : List Uuid} {row : MemoryRow}
    (absent : row.id ∉ ids) : closeRow now ids row = row :=
  if_neg absent

theorem map_closeRow_of_disjoint {now : Timestamp} {ids : List Uuid}
    {rows : List MemoryRow} (disjoint : ∀ row ∈ rows, row.id ∉ ids) :
    rows.map (closeRow now ids) = rows := by
  rw [List.map_congr_left fun row member => closeRow_of_not_mem (disjoint row member),
    List.map_id']

/-- `UPDATE memory_items SET valid_to = now() WHERE id = ANY($1)` -/
def closeRows (table : MemoryTable) (now : Timestamp) (ids : List Uuid) :
    MemoryTable :=
  table.update (closeRow now ids) (id_closeRow now ids)

@[simp]
theorem rows_closeRows (table : MemoryTable) (now : Timestamp) (ids : List Uuid) :
    (closeRows table now ids).rows = table.rows.map (closeRow now ids) :=
  rfl

@[simp]
theorem keys_closeRows (table : MemoryTable) (now : Timestamp) (ids : List Uuid) :
    (closeRows table now ids).keys = table.keys :=
  KeyedTable.keys_update _ _ _

def rowToItem (row : MemoryRow) (scope : String)
    (validTo : Option Timestamp := none) : MemoryItem where
  id := row.id.str
  content := row.content
  scope := scope
  encoderId := some row.encoderId
  source := row.source
  validFrom := some row.validFrom
  validTo := validTo

/-! ## remember -/

def zipShorter : PyExc :=
  .other "ValueError" "zip() argument 2 is shorter than argument 1"

def zipLonger : PyExc :=
  .other "ValueError" "zip() argument 2 is longer than argument 1"

def buildRow (store : PgVectorMemoryStore) (now : Timestamp) (scope : String)
    (item : MemoryItem) (vector : List ℚ) : Except PyExc MemoryRow := do
  let id ← Uuid.parse item.id
  return {
    id := id
    scope := scope
    content := item.content
    embedding := vector
    encoderId := store.encoderId
    source := item.source
    validFrom := item.validFrom.getD now }

/-- The list comprehension over `zip(items, vectors, strict=True)`. -/
def buildRows (store : PgVectorMemoryStore) (now : Timestamp) (scope : String) :
    List MemoryItem → List (List ℚ) → Except PyExc (List MemoryRow)
  | [], [] => .ok []
  | [], _ :: _ => .error zipLonger
  | _ :: _, [] => .error zipShorter
  | item :: items, vector :: vectors => do
      let row ← store.buildRow now scope item vector
      let rows ← store.buildRows now scope items vectors
      return row :: rows

/-- Everything `remember` does before it opens a connection. -/
def prepareRows (store : PgVectorMemoryStore) (now : Timestamp)
    (items : List MemoryItem) (scope : String) : Except PyExc (List MemoryRow) := do
  let vectors ← store.embed (items.map MemoryItem.content)
  store.buildRows now scope items vectors

/-- `executemany` of the insert: all rows or, if one is rejected, none. -/
def insertRows (store : PgVectorMemoryStore) (rows : List MemoryRow)
    (table : MemoryTable) : Except PyExc MemoryTable := do
  raiseIf (rows.findSome? store.backend.rejectsRow)
  return table.insertAll rows

def remember (store : PgVectorMemoryStore) (now : Timestamp)
    (items : List MemoryItem) (scope : String) (table : MemoryTable) :
    Except PyExc MemoryTable :=
  if items.isEmpty then
    .ok table
  else do
    let rows ← store.prepareRows now items scope
    store.insertRows rows table

/-! ## recall -/

/-- The failure of `[vector] = vectors` -/
def notOneVector (vectors : List (List ℚ)) : PyExc :=
  .other "ValueError" <|
    if vectors.isEmpty then
      "not enough values to unpack (expected 1, got 0)"
    else
      "too many values to unpack (expected 1)"

/-- What Postgres makes of `LIMIT $3` with a `bigint` argument. -/
def rowLimit (k : Int) : Except PyExc Nat :=
  if k < -(2 ^ 63) ∨ 2 ^ 63 ≤ k then
    .error (.other "DataError" "invalid input for query argument $3")
  else if k < 0 then
    .error
      (.other "InvalidRowCountInLimitClauseError" "LIMIT must not be negative")
  else
    .ok k.toNat

def ranked (store : PgVectorMemoryStore) (vector : List ℚ)
    (rows : List MemoryRow) : List MemoryRow :=
  rows.mergeSort (store.backend.nearer vector)

def recallItems (store : PgVectorMemoryStore) (query scope : String) (k : Int)
    (table : MemoryTable) : Except PyExc (List MemoryItem) := do
  match ← store.embed [query] with
  | [vector] =>
      raiseIf (store.backend.rejectsText scope)
      let limit ← rowLimit k
      let records := (store.ranked vector (selectLive table scope)).take limit
      return records.map fun row => rowToItem row scope row.validTo
  | vectors => .error (notOneVector vectors)

/-! ## invalidate -/

/-- The ids of the candidates that the predicate matches. -/
def selectIds (predicate : MemoryPredicate) :
    List MemoryRow → Except PyExc (List Uuid)
  | [] => .ok []
  | row :: rest => do
      let matched ← predicate.matchItem (rowToItem row predicate.scope)
      let others ← selectIds predicate rest
      return if matched then row.id :: others else others

/-- The `SELECT` of `invalidate` and the predicate run over its answer. -/
def chooseIds (store : PgVectorMemoryStore) (predicate : MemoryPredicate)
    (table : MemoryTable) : Except PyExc (List Uuid) := do
  raiseIf (store.backend.rejectsText predicate.scope)
  selectIds predicate (selectLive table predicate.scope)

def invalidate (store : PgVectorMemoryStore) (now : Timestamp)
    (predicate : MemoryPredicate) (table : MemoryTable) :
    Except PyExc (Nat × MemoryTable) := do
  let toClose ← store.chooseIds predicate table
  if toClose.isEmpty then
    return (0, table)
  else
    return (toClose.length, closeRows table now toClose)

/-! ## What the operations read and write -/

theorem recall_eq_ok {store : PgVectorMemoryStore} {query scope : String}
    {k : Int} {table : MemoryTable} {items : List MemoryItem}
    (recalled : store.recallItems query scope k table = .ok items) :
    ∃ vector,
      items =
        ((store.ranked vector (selectLive table scope)).take k.toNat).map
          fun row => rowToItem row scope row.validTo := by
  unfold recallItems at recalled
  cases embedded : store.embed [query] with
  | error exc =>
      rw [embedded] at recalled
      cases recalled
  | ok vectors =>
      rw [embedded] at recalled
      match vectors, recalled with
      | [vector], recalled =>
          refine ⟨vector, ?_⟩
          change
            (raiseIf (store.backend.rejectsText scope) >>= fun _ =>
              rowLimit k >>= fun limit =>
                Except.ok
                  (((store.ranked vector (selectLive table scope)).take
                    limit).map fun row => rowToItem row scope row.validTo)) =
              .ok items at recalled
          cases sent : store.backend.rejectsText scope with
          | some exc =>
              rw [sent] at recalled
              cases recalled
          | none =>
              rw [sent] at recalled
              unfold rowLimit at recalled
              split at recalled
              · cases recalled
              · split at recalled
                · cases recalled
                · cases recalled
                  rfl

theorem rowLimit_of_lt {k : Nat} (small : k < 2 ^ 63) : rowLimit k = .ok k := by
  have inRange : ¬ ((k : Int) < -(2 ^ 63) ∨ 2 ^ 63 ≤ (k : Int)) := by omega
  have nonneg : ¬ (k : Int) < 0 := by omega
  rw [rowLimit, if_neg inRange, if_neg nonneg, Int.toNat_natCast]

/-- A plain backend recalls the first live rows of a scope, whatever the
query. -/
theorem recallItems_plainBackend (encoderId query scope : String) {k : Nat}
    (small : k < 2 ^ 63) (table : MemoryTable) :
    (⟨plainBackend, encoderId⟩ : PgVectorMemoryStore).recallItems query scope k
        table =
      .ok
        (((selectLive table scope).take k).map
          fun row => rowToItem row scope row.validTo) := by
  have inOrder :
      (⟨plainBackend, encoderId⟩ : PgVectorMemoryStore).ranked
          (List.replicate embeddingDim 0) (selectLive table scope) =
        selectLive table scope :=
    List.mergeSort_of_pairwise (List.pairwise_of_forall fun _ _ => rfl)
  unfold recallItems
  rw [embed_plainBackend]
  change
    (rowLimit k >>= fun limit =>
      Except.ok
        ((((⟨plainBackend, encoderId⟩ : PgVectorMemoryStore).ranked
          (List.replicate embeddingDim 0) (selectLive table scope)).take
            limit).map fun row => rowToItem row scope row.validTo)) = _
  rw [rowLimit_of_lt small, inOrder]
  rfl

/-- Everything recalled is a live row of the scope, read back. -/
theorem live_of_mem_recall {store : PgVectorMemoryStore} {query scope : String}
    {k : Int} {table : MemoryTable} {items : List MemoryItem}
    (recalled : store.recallItems query scope k table = .ok items)
    {item : MemoryItem} (member : item ∈ items) :
    ∃ row ∈ table.rows,
      isLiveIn scope row = true ∧ item = rowToItem row scope row.validTo := by
  obtain ⟨vector, rfl⟩ := recall_eq_ok recalled
  obtain ⟨row, taken, rfl⟩ := List.mem_map.mp member
  have inRanked := List.mem_of_mem_take taken
  rw [ranked, List.mem_mergeSort] at inRanked
  obtain ⟨inTable, live⟩ := List.mem_filter.mp inRanked
  exact ⟨row, inTable, live, rfl⟩

end PgVectorMemoryStore

/-- The predicate answered, and its answer is true. -/
def answersTrue : Except PyExc Bool → Bool
  | .ok answer => answer
  | .error _ => false

/-- What the predicate makes of a row of its scope, read back as an item. -/
def MemoryPredicate.verdict (predicate : MemoryPredicate) (row : MemoryRow) :
    Except PyExc Bool :=
  predicate.matchItem (PgVectorMemoryStore.rowToItem row predicate.scope)

namespace PgVectorMemoryStore

/-- The ids that are chosen from a row and the rows behind it. -/
theorem selectIds_cons_eq_ok {predicate : MemoryPredicate} {row : MemoryRow}
    {rest : List MemoryRow} {ids : List Uuid} :
    selectIds predicate (row :: rest) = .ok ids ↔
      ∃ matched others,
        predicate.matchItem (rowToItem row predicate.scope) = .ok matched ∧
          selectIds predicate rest = .ok others ∧
          ids = if matched then row.id :: others else others := by
  rw [selectIds]
  cases predicate.matchItem (rowToItem row predicate.scope) with
  | error exc => simp [bind, Except.bind]
  | ok matched =>
      cases selectIds predicate rest with
      | error exc => simp [bind, Except.bind]
      | ok others =>
          simp [bind, Except.bind, pure, Except.pure, eq_comm]

/-- The ids are chosen when every candidate has been answered for, and they are
those of the candidates that were accepted. -/
theorem selectIds_eq_ok_iff {predicate : MemoryPredicate} {rows : List MemoryRow}
    {ids : List Uuid} :
    selectIds predicate rows = .ok ids ↔
      (∀ row ∈ rows, ∃ answer, predicate.verdict row = .ok answer) ∧
        ids =
          (rows.filter fun row => answersTrue (predicate.verdict row)).map
            MemoryRow.id := by
  induction rows generalizing ids with
  | nil => simp [selectIds, eq_comm]
  | cons row rest inductionHypothesis =>
      have kept : ∀ matched, predicate.verdict row = .ok matched →
          ((row :: rest).filter fun row =>
              answersTrue (predicate.verdict row)).map MemoryRow.id =
            if matched then
              row.id ::
                (rest.filter fun row =>
                  answersTrue (predicate.verdict row)).map MemoryRow.id
            else
              (rest.filter fun row =>
                answersTrue (predicate.verdict row)).map MemoryRow.id := by
        intro matched verdict
        rw [List.filter_cons, verdict]
        cases matched <;> rfl
      rw [selectIds_cons_eq_ok]
      constructor
      · rintro ⟨matched, others, verdict, later, rfl⟩
        obtain ⟨answered, rfl⟩ := inductionHypothesis.mp later
        rw [List.forall_mem_cons, kept matched verdict]
        exact ⟨⟨⟨matched, verdict⟩, answered⟩, rfl⟩
      · rintro ⟨answered, rfl⟩
        obtain ⟨⟨matched, verdict⟩, later⟩ := List.forall_mem_cons.mp answered
        exact
          ⟨matched, _, verdict, inductionHypothesis.mpr ⟨later, rfl⟩,
            kept matched verdict⟩

/-- Only ids of candidates are chosen, each once. -/
theorem sublist_of_selectIds {predicate : MemoryPredicate}
    {rows : List MemoryRow} {ids : List Uuid}
    (chosen : selectIds predicate rows = .ok ids) :
    ids.Sublist (rows.map MemoryRow.id) := by
  rw [(selectIds_eq_ok_iff.mp chosen).2]
  exact List.filter_sublist.map MemoryRow.id

theorem chooseIds_eq_ok {store : PgVectorMemoryStore}
    {predicate : MemoryPredicate} {table : MemoryTable} {ids : List Uuid} :
    store.chooseIds predicate table = .ok ids ↔
      store.backend.rejectsText predicate.scope = none ∧
        selectIds predicate (selectLive table predicate.scope) = .ok ids := by
  unfold chooseIds
  cases store.backend.rejectsText predicate.scope with
  | none =>
      exact (and_iff_right rfl).symm
  | some exc =>
      constructor
      · intro chosen
        cases chosen
      · rintro ⟨accepted, _⟩
        cases accepted

/-- Every chosen id is the id of a live row of the predicate's scope. -/
theorem live_of_mem_chooseIds {store : PgVectorMemoryStore}
    {predicate : MemoryPredicate} {table : MemoryTable} {ids : List Uuid}
    (chosen : store.chooseIds predicate table = .ok ids)
    {id : Uuid} (member : id ∈ ids) :
    ∃ row ∈ table.rows, row.id = id ∧ isLiveIn predicate.scope row = true := by
  have sublist := sublist_of_selectIds (chooseIds_eq_ok.mp chosen).2
  obtain ⟨row, selected, equal⟩ := List.mem_map.mp (sublist.subset member)
  obtain ⟨inTable, live⟩ := List.mem_filter.mp selected
  exact ⟨row, inTable, equal, live⟩

theorem nodup_of_chooseIds {store : PgVectorMemoryStore}
    {predicate : MemoryPredicate} {table : MemoryTable} {ids : List Uuid}
    (chosen : store.chooseIds predicate table = .ok ids) : ids.Nodup := by
  have sublist := sublist_of_selectIds (chooseIds_eq_ok.mp chosen).2
  have candidates : (selectLive table predicate.scope).map MemoryRow.id |>.Nodup :=
    (List.filter_sublist.map MemoryRow.id).nodup table.uniqueKeys
  exact sublist.nodup candidates

/-- The row that a store makes of an item and its vector. -/
structure RowOf (store : PgVectorMemoryStore) (now : Timestamp) (scope : String)
    (item : MemoryItem) (vector : List ℚ) (row : MemoryRow) : Prop where
  parsed : Uuid.parse item.id = .ok row.id
  inScope : row.scope = scope
  content : row.content = item.content
  embedding : row.embedding = vector
  encoderId : row.encoderId = store.encoderId
  source : row.source = item.source
  validFrom : row.validFrom = item.validFrom.getD now
  isOpen : row.validTo = none

theorem rowOf_of_buildRow {store : PgVectorMemoryStore} {now : Timestamp}
    {scope : String} {item : MemoryItem} {vector : List ℚ} {row : MemoryRow}
    (built : store.buildRow now scope item vector = .ok row) :
    RowOf store now scope item vector row := by
  unfold buildRow at built
  cases parsed : Uuid.parse item.id with
  | error exc =>
      rw [parsed] at built
      cases built
  | ok id =>
      rw [parsed] at built
      cases built
      exact ⟨parsed, rfl, rfl, rfl, rfl, rfl, rfl, rfl⟩

theorem buildRows_cons_eq_ok {store : PgVectorMemoryStore} {now : Timestamp}
    {scope : String} {item : MemoryItem} {items : List MemoryItem}
    {vectors : List (List ℚ)} {rows : List MemoryRow}
    (built : store.buildRows now scope (item :: items) vectors = .ok rows) :
    ∃ vector laterVectors row laterRows,
      vectors = vector :: laterVectors ∧ rows = row :: laterRows ∧
        store.buildRow now scope item vector = .ok row ∧
        store.buildRows now scope items laterVectors = .ok laterRows := by
  cases vectors with
  | nil => cases built
  | cons vector vectors =>
      unfold buildRows at built
      cases first : store.buildRow now scope item vector with
      | error exc =>
          rw [first] at built
          cases built
      | ok row =>
          cases later : store.buildRows now scope items vectors with
          | error exc =>
              rw [first, later] at built
              cases built
          | ok rows =>
              rw [first, later] at built
              cases built
              exact ⟨vector, vectors, row, rows, rfl, rfl, first, later⟩

/-- Items, vectors and rows stay aligned. -/
structure Aligned (store : PgVectorMemoryStore) (now : Timestamp)
    (scope : String) (items : List MemoryItem) (vectors : List (List ℚ))
    (rows : List MemoryRow) : Prop where
  vectors_length : vectors.length = items.length
  rows_length : rows.length = items.length
  built :
    ∀ (i : Nat) (row : MemoryRow), rows[i]? = some row →
      ∃ item vector,
        items[i]? = some item ∧ vectors[i]? = some vector ∧
          store.buildRow now scope item vector = .ok row

theorem aligned_of_buildRows {store : PgVectorMemoryStore} {now : Timestamp}
    {scope : String} {items : List MemoryItem} {vectors : List (List ℚ)}
    {rows : List MemoryRow}
    (built : store.buildRows now scope items vectors = .ok rows) :
    Aligned store now scope items vectors rows := by
  induction items generalizing vectors rows with
  | nil =>
      cases vectors with
      | nil =>
          cases built
          exact ⟨rfl, rfl, by simp⟩
      | cons vector vectors =>
          cases built
  | cons item items inductionHypothesis =>
      obtain ⟨vector, vectors, row, rows, rfl, rfl, first, later⟩ :=
        buildRows_cons_eq_ok built
      have tail := inductionHypothesis later
      constructor
      · rw [List.length_cons, List.length_cons, tail.vectors_length]
      · rw [List.length_cons, List.length_cons, tail.rows_length]
      · intro i chosen present
        cases i with
        | zero =>
            cases present
            exact ⟨item, vector, rfl, rfl, first⟩
        | succ i => exact tail.built i chosen present

/-- Each item of a batch has its row. -/
theorem Aligned.row_of_item {store : PgVectorMemoryStore} {now : Timestamp}
    {scope : String} {items : List MemoryItem} {vectors : List (List ℚ)}
    {rows : List MemoryRow}
    (aligned : Aligned store now scope items vectors rows) {i : Nat}
    {item : MemoryItem} (present : items[i]? = some item) :
    ∃ row vector,
      rows[i]? = some row ∧ vectors[i]? = some vector ∧
        store.buildRow now scope item vector = .ok row := by
  have inside : i < rows.length := by
    rw [aligned.rows_length]
    exact (List.getElem?_eq_some_iff.mp present).1
  obtain ⟨same, vector, itemAt, vectorAt, built⟩ :=
    aligned.built i rows[i] (List.getElem?_eq_getElem inside)
  cases present.symm.trans itemAt
  exact ⟨rows[i], vector, List.getElem?_eq_getElem inside, vectorAt, built⟩

/-- Each row is built from an item of the batch. -/
theorem item_of_mem_buildRows {store : PgVectorMemoryStore} {now : Timestamp}
    {scope : String} {items : List MemoryItem} {vectors : List (List ℚ)}
    {rows : List MemoryRow}
    (built : store.buildRows now scope items vectors = .ok rows)
    {row : MemoryRow} (member : row ∈ rows) :
    ∃ item ∈ items, ∃ vector ∈ vectors,
      store.buildRow now scope item vector = .ok row := by
  obtain ⟨i, present⟩ := List.mem_iff_getElem?.mp member
  obtain ⟨item, vector, itemAt, vectorAt, row⟩ :=
    (aligned_of_buildRows built).built i row present
  exact
    ⟨item, List.mem_of_getElem? itemAt, vector, List.mem_of_getElem? vectorAt,
      row⟩

theorem item_of_mem_prepareRows {store : PgVectorMemoryStore} {now : Timestamp}
    {scope : String} {items : List MemoryItem} {rows : List MemoryRow}
    (prepared : store.prepareRows now items scope = .ok rows)
    {row : MemoryRow} (member : row ∈ rows) :
    ∃ item ∈ items, ∃ vector,
      store.buildRow now scope item vector = .ok row := by
  unfold prepareRows at prepared
  cases embedded : store.embed (items.map MemoryItem.content) with
  | error exc =>
      rw [embedded] at prepared
      cases prepared
  | ok vectors =>
      rw [embedded] at prepared
      obtain ⟨item, itemMember, vector, _, built⟩ :=
        item_of_mem_buildRows prepared member
      exact ⟨item, itemMember, vector, built⟩

/-- The rows a `remember` sends, or what it raises instead.  Neither depends on
the table. -/
def plannedRows (store : PgVectorMemoryStore) (now : Timestamp)
    (items : List MemoryItem) (scope : String) : Except PyExc (List MemoryRow) :=
  if items.isEmpty then
    .ok []
  else do
    let rows ← store.prepareRows now items scope
    raiseIf (rows.findSome? store.backend.rejectsRow)
    return rows

theorem remember_eq_map (store : PgVectorMemoryStore) (now : Timestamp)
    (items : List MemoryItem) (scope : String) (table : MemoryTable) :
    store.remember now items scope table =
      (store.plannedRows now items scope).map table.insertAll := by
  unfold remember plannedRows
  split
  · rfl
  · cases store.prepareRows now items scope with
    | error exc =>
        rfl
    | ok rows =>
        change
          store.insertRows rows table =
            (raiseIf (rows.findSome? store.backend.rejectsRow) >>=
              fun _ => Except.ok rows).map table.insertAll
        unfold insertRows
        cases rows.findSome? store.backend.rejectsRow <;> rfl

/-- A `remember` that returns has inserted the rows it planned. -/
theorem remember_eq_ok {store : PgVectorMemoryStore} {now : Timestamp}
    {items : List MemoryItem} {scope : String} {before after : MemoryTable}
    (remembered : store.remember now items scope before = .ok after) :
    ∃ rows,
      store.plannedRows now items scope = .ok rows ∧
        after = before.insertAll rows := by
  rw [remember_eq_map] at remembered
  cases planned : store.plannedRows now items scope with
  | error exc =>
      rw [planned] at remembered
      cases remembered
  | ok rows =>
      rw [planned] at remembered
      cases remembered
      exact ⟨rows, rfl, rfl⟩

theorem plannedRows_eq_ok {store : PgVectorMemoryStore} {now : Timestamp}
    {items : List MemoryItem} {scope : String} {rows : List MemoryRow}
    (planned : store.plannedRows now items scope = .ok rows) :
    rows.findSome? store.backend.rejectsRow = none ∧
      ((items = [] ∧ rows = []) ∨ store.prepareRows now items scope = .ok rows) := by
  unfold plannedRows at planned
  by_cases empty : items.isEmpty = true
  · rw [if_pos empty] at planned
    cases planned
    exact ⟨rfl, Or.inl ⟨List.isEmpty_iff.mp empty, rfl⟩⟩
  · rw [if_neg empty] at planned
    cases prepared : store.prepareRows now items scope with
    | error exc =>
        rw [prepared] at planned
        cases planned
    | ok built =>
        rw [prepared] at planned
        change
          (raiseIf (built.findSome? store.backend.rejectsRow) >>=
            fun _ => Except.ok built) = .ok rows at planned
        cases rejected : built.findSome? store.backend.rejectsRow with
        | some exc =>
            rw [rejected] at planned
            cases planned
        | none =>
            rw [rejected] at planned
            cases planned
            exact ⟨rejected, Or.inr rfl⟩

/-- The vectors behind the rows that are sent; an empty batch asks for none. -/
theorem aligned_of_plannedRows {store : PgVectorMemoryStore} {now : Timestamp}
    {items : List MemoryItem} {scope : String} {rows : List MemoryRow}
    (planned : store.plannedRows now items scope = .ok rows) :
    ∃ vectors,
      (items ≠ [] → store.embed (items.map MemoryItem.content) = .ok vectors) ∧
        Aligned store now scope items vectors rows := by
  rcases (plannedRows_eq_ok planned).2 with ⟨rfl, rfl⟩ | prepared
  · exact ⟨[], fun nonempty => absurd rfl nonempty, rfl, rfl, by simp⟩
  · unfold prepareRows at prepared
    cases embedded : store.embed (items.map MemoryItem.content) with
    | error exc =>
        rw [embedded] at prepared
        cases prepared
    | ok vectors =>
        rw [embedded] at prepared
        exact ⟨vectors, fun _ => rfl, aligned_of_buildRows prepared⟩

/-- What a plain backend is sent for one item. -/
theorem plannedRows_plainBackend {item : MemoryItem} {id : Uuid}
    (parsed : Uuid.parse item.id = .ok id) (encoderId : String) (now : Timestamp)
    (scope : String) :
    (⟨plainBackend, encoderId⟩ : PgVectorMemoryStore).plannedRows now [item]
        scope =
      .ok [{
        id := id
        scope := scope
        content := item.content
        embedding := List.replicate embeddingDim 0
        encoderId := encoderId
        source := item.source
        validFrom := item.validFrom.getD now }] := by
  unfold plannedRows prepareRows
  rw [embed_plainBackend]
  simp only [List.isEmpty_cons, Bool.false_eq_true, if_false, List.map_cons,
    List.map_nil, bind, Except.bind, buildRows, buildRow, parsed]
  rfl

theorem item_of_mem_plannedRows {store : PgVectorMemoryStore} {now : Timestamp}
    {items : List MemoryItem} {scope : String} {rows : List MemoryRow}
    (planned : store.plannedRows now items scope = .ok rows)
    {row : MemoryRow} (member : row ∈ rows) :
    ∃ item ∈ items, ∃ vector,
      store.buildRow now scope item vector = .ok row := by
  rcases (plannedRows_eq_ok planned).2 with ⟨_, rfl⟩ | prepared
  · cases member
  · exact item_of_mem_prepareRows prepared member

/-- The scope of a row that is sent is text that Postgres accepts. -/
theorem scope_accepted_of_mem_plannedRows {store : PgVectorMemoryStore}
    {now : Timestamp} {items : List MemoryItem} {scope : String}
    {rows : List MemoryRow}
    (planned : store.plannedRows now items scope = .ok rows)
    {row : MemoryRow} (member : row ∈ rows) :
    store.backend.rejectsText row.scope = none := by
  have accepted :=
    List.findSome?_eq_none_iff.mp (plannedRows_eq_ok planned).1 row member
  exact
    List.findSome?_eq_none_iff.mp (Option.or_eq_none_iff.mp accepted).1 _
      List.mem_cons_self

/-- An `invalidate` that returns closes the ids it chose and counts them. -/
theorem invalidate_eq_ok {store : PgVectorMemoryStore} {now : Timestamp}
    {predicate : MemoryPredicate} {table after : MemoryTable} {count : Nat}
    (invalidated : store.invalidate now predicate table = .ok (count, after)) :
    ∃ ids,
      store.chooseIds predicate table = .ok ids ∧
        count = ids.length ∧ after.rows = table.rows.map (closeRow now ids) := by
  unfold invalidate at invalidated
  cases chosen : store.chooseIds predicate table with
  | error exc =>
      rw [chosen] at invalidated
      cases invalidated
  | ok ids =>
      rw [chosen] at invalidated
      cases ids with
      | nil =>
          cases invalidated
          exact
            ⟨[], rfl, rfl,
              (map_closeRow_of_disjoint fun _ _ => List.not_mem_nil).symm⟩
      | cons id rest =>
          cases invalidated
          exact ⟨id :: rest, rfl, rfl, rfl⟩

end PgVectorMemoryStore

/-! ## Sequential histories -/

inductive MemoryOperation where
  | remember (items : List MemoryItem) (scope : String)
  | recallItems (query scope : String) (k : Int)
  | invalidate (predicate : MemoryPredicate)

def MemoryOperation.scope : MemoryOperation → String
  | .remember _ scope => scope
  | .recallItems _ scope _ => scope
  | .invalidate predicate => predicate.scope

/-- One operation, on the store instance with the given encoder, at a clock
reading. -/
structure MemoryCall where
  encoderId : String
  now : Timestamp
  operation : MemoryOperation

inductive MemoryAnswer where
  | remembered (outcome : Except PyExc Unit)
  | recalled (outcome : Except PyExc (List MemoryItem))
  | invalidated (outcome : Except PyExc Nat)

/-- The table and everything that was answered so far. -/
structure MemoryHistory where
  table : MemoryTable := ∅
  answers : List (MemoryCall × MemoryAnswer) := []

namespace MemoryHistory

open PgVectorMemoryStore

def storeFor (backend : MemoryBackend) (call : MemoryCall) : PgVectorMemoryStore :=
  ⟨backend, call.encoderId⟩

/-- The answer to a call and the table it leaves; an exception leaves the table
as it was. -/
def perform (backend : MemoryBackend) (table : MemoryTable) (call : MemoryCall) :
    MemoryAnswer × MemoryTable :=
  match call.operation with
  | .remember items scope =>
      match (storeFor backend call).remember call.now items scope table with
      | .ok after => (.remembered (.ok ()), after)
      | .error exc => (.remembered (.error exc), table)
  | .recallItems query scope k =>
      (.recalled ((storeFor backend call).recallItems query scope k table), table)
  | .invalidate predicate =>
      match (storeFor backend call).invalidate call.now predicate table with
      | .ok (count, after) => (.invalidated (.ok count), after)
      | .error exc => (.invalidated (.error exc), table)

def step (backend : MemoryBackend) (history : MemoryHistory) (call : MemoryCall) :
    MemoryHistory where
  table := (perform backend history.table call).2
  answers :=
    history.answers ++ [(call, (perform backend history.table call).1)]

/-- What was answered to the calls on `scope`. -/
def answersOn (history : MemoryHistory) (scope : String) :
    List (MemoryCall × MemoryAnswer) :=
  history.answers.filter fun answered => answered.1.operation.scope == scope

/-- Whatever a call does to the table: it inserts rows built from its own
items, or it closes live rows of its own scope, or it leaves the table as it
is. -/
theorem perform_cases (backend : MemoryBackend) (table : MemoryTable)
    (call : MemoryCall) :
    (perform backend table call).2 = table ∨
      (∃ items itemScope rows,
        call.operation = .remember items itemScope ∧
          (storeFor backend call).plannedRows call.now items itemScope =
            .ok rows ∧
          (perform backend table call).2 = table.insertAll rows) ∨
      ∃ predicate ids,
        call.operation = .invalidate predicate ∧
          (storeFor backend call).chooseIds predicate table = .ok ids ∧
          (perform backend table call).2.rows =
            table.rows.map (closeRow call.now ids) := by
  unfold perform
  cases operation : call.operation with
  | remember items itemScope =>
      cases planned :
          (storeFor backend call).plannedRows call.now items itemScope with
      | error exc =>
          left
          simp only [remember_eq_map, planned, Except.map]
      | ok rows =>
          right
          left
          refine ⟨items, itemScope, rows, rfl, planned, ?_⟩
          simp only [remember_eq_map, planned, Except.map]
  | recallItems query itemScope k =>
      exact Or.inl rfl
  | invalidate predicate =>
      cases invalidated :
          (storeFor backend call).invalidate call.now predicate table with
      | error exc =>
          left
          simp only [invalidated]
      | ok answer =>
          obtain ⟨count, after⟩ := answer
          obtain ⟨ids, chosen, _, closed⟩ := invalidate_eq_ok invalidated
          right
          right
          refine ⟨predicate, ids, rfl, chosen, ?_⟩
          simp only [invalidated, closed]

end MemoryHistory

end FableHarness
