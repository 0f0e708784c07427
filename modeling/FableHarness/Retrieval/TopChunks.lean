import Mathlib.Data.Nat.Basic
import FableHarness.Library.StableRanking
import FableHarness.Retrieval.McpServer

/-!
# The chunks of a search

For `k` that is not negative a search returns the `k` best chunks of the
corpus.  A negative `k` is a slice from the end: it drops the worst `|k|` of
the matching chunks and returns all others.
-/

namespace FableHarness

open StableRanking

namespace McpServer

variable (lower : String → String)

/-- How many terms of the query, counted with repetition, occur in the text in
lower case. -/
def termsFound (query text : String) : Nat :=
  (split query).countP fun term => occursIn (lower term) (lower text)

/-- Some term of the query occurs in the document. -/
def mentions (query : String) (doc : Document) : Bool :=
  (split query).any fun term => occursIn (lower term) (lower doc.text)

/-- No chunk of the result is for this document. -/
def Omitted (result : List Chunk) (doc : Document) : Prop :=
  ∀ chunk ∈ result, chunk.id ≠ doc.id

/-- What a caller who asks for up to `k` chunks can rely on. -/
structure IsTopOfCorpus (corpus : Corpus) (query : String) (k : Int)
    (result : List Chunk) : Prop where
  atMost : (result.length : Int) ≤ max k 0
  /-- Ties are in the order of the corpus. -/
  ordered :
    result.Pairwise fun first second =>
      second.score < first.score ∨
        first.score = second.score ∧
          [first.toDocument, second.toDocument].Sublist corpus.rows
  scored :
    ∀ chunk ∈ result,
      0 < chunk.score ∧ chunk.score = termsFound lower query chunk.text
  best :
    ∀ doc ∈ corpus.rows, Omitted result doc →
      0 < termsFound lower query doc.text →
        ∀ chunk ∈ result, termsFound lower query doc.text ≤ chunk.score
  full :
    ∀ doc ∈ corpus.rows, Omitted result doc →
      0 < termsFound lower query doc.text → (result.length : Int) = max k 0
  cited :
    ∀ chunk ∈ result, fetchChunk corpus chunk.id = some chunk.toDocument

variable {lower}

/-! ## Scores -/

theorem ne_empty_of_mem_split {query term : String} (member : term ∈ split query) :
    term ≠ "" := by
  obtain ⟨word, kept, rfl⟩ := List.mem_map.mp member
  have nonempty := (List.mem_filter.mp kept).2
  rw [Ne, String.ofList_eq_empty_iff]
  intro empty
  rw [empty] at nonempty
  cases nonempty

/-- The score of a document counts the terms of the query that it contains. -/
theorem scoreOf_terms (query : String) (doc : Document) :
    scoreOf lower (terms lower query) doc = termsFound lower query doc.text := by
  have allKept : (split query).filter (fun term => term != "") = split query := by
    rw [List.filter_eq_self]
    exact fun term member => bne_iff_ne.mpr (ne_empty_of_mem_split member)
  unfold scoreOf terms termsFound
  rw [allKept, List.countP_map]
  rfl

theorem termsFound_pos_iff (query : String) (doc : Document) :
    0 < termsFound lower query doc.text ↔ mentions lower query doc = true := by
  unfold termsFound mentions
  rw [List.countP_pos_iff, List.any_eq_true]

/-- The chunk of a document. -/
def chunkOf (lower : String → String) (query : String) (doc : Document) : Chunk :=
  ⟨doc, termsFound lower query doc.text⟩

/-- The loop keeps the documents that contain a term, in the order of the
corpus. -/
theorem scored_terms (query : String) (docs : List Document) :
    scored lower (terms lower query) docs =
      (docs.filter (mentions lower query)).map (chunkOf lower query) := by
  induction docs with
  | nil => rfl
  | cons doc rest inductionHypothesis =>
      unfold scored
      rw [scoreOf_terms, inductionHypothesis]
      by_cases found : mentions lower query doc = true
      · rw [if_pos ((termsFound_pos_iff query doc).mpr found),
          List.filter_cons_of_pos found, List.map_cons]
        rfl
      · rw [if_neg fun positive => found ((termsFound_pos_iff query doc).mp positive),
          List.filter_cons_of_neg found]

/-! ## The slice -/

/-- The chunks that can be returned, in the order of the corpus. -/
def matching (lower : String → String) (corpus : Corpus) (query : String) :
    List Chunk :=
  (corpus.rows.filter (mentions lower query)).map (chunkOf lower query)

/-- The number of documents that contain a term of the query. -/
def matchCount (lower : String → String) (corpus : Corpus) (query : String) : Nat :=
  corpus.rows.countP (mentions lower query)

/-- The chunks that match, best first. -/
def rankedChunks (lower : String → String) (corpus : Corpus) (query : String) :
    List Chunk :=
  ranking Chunk.score (matching lower corpus query)

theorem search_eq (corpus : Corpus) (query : String) (k : Int) :
    search lower corpus query k = sliceTo k (rankedChunks lower corpus query) := by
  unfold search
  rw [scored_terms]
  rfl

theorem length_rankedChunks (corpus : Corpus) (query : String) :
    (rankedChunks lower corpus query).length = matchCount lower corpus query := by
  unfold rankedChunks matching matchCount
  rw [(ranking_perm _ _).length_eq, List.length_map, List.countP_eq_length_filter]

theorem search_of_nonneg {corpus : Corpus} {query : String} {k : Int}
    (nonneg : 0 ≤ k) :
    search lower corpus query k =
      (rankedChunks lower corpus query).take k.toNat := by
  rw [search_eq, sliceTo, if_pos nonneg]

/-- A negative `k` leaves the worst `|k|` matches out. -/
theorem search_of_neg {corpus : Corpus} {query : String} {k : Int} (neg : k < 0) :
    search lower corpus query k =
      (rankedChunks lower corpus query).take
        (matchCount lower corpus query - k.natAbs) := by
  rw [search_eq, sliceTo, if_neg (Int.not_le.mpr neg), length_rankedChunks]

theorem length_search_of_neg {corpus : Corpus} {query : String} {k : Int}
    (neg : k < 0) :
    (search lower corpus query k).length =
      matchCount lower corpus query - k.natAbs := by
  rw [search_of_neg neg, List.length_take, length_rankedChunks]
  omega

/-! ## From chunks back to documents -/

section Result

variable {corpus : Corpus} {query : String} {k : Int}

theorem fetchChunk_of_mem {doc : Document} (member : doc ∈ corpus.rows) :
    fetchChunk corpus doc.id = some doc := by
  unfold fetchChunk
  cases found : corpus.rows.find? fun other => other.id == doc.id with
  | none =>
      have absent := List.find?_eq_none.mp found doc member
      simp at absent
  | some other =>
      have sameId : other.id = doc.id := by simpa using List.find?_some found
      rw [corpus.eq_of_key_eq (List.mem_of_find?_eq_some found) member sameId]

theorem mem_matching {chunk : Chunk}
    (member : chunk ∈ matching lower corpus query) :
    chunk.toDocument ∈ corpus.rows ∧ 0 < chunk.score ∧
      chunk.score = termsFound lower query chunk.text := by
  obtain ⟨doc, kept, rfl⟩ := List.mem_map.mp member
  obtain ⟨inCorpus, found⟩ := List.mem_filter.mp kept
  exact ⟨inCorpus, (termsFound_pos_iff query doc).mpr found, rfl⟩

theorem map_toDocument_matching :
    (matching lower corpus query).map Chunk.toDocument =
      corpus.rows.filter (mentions lower query) := by
  unfold matching
  rw [List.map_map]
  exact List.map_id _

/-- A document with a positive score has its chunk, and if the document is
omitted, so is the chunk. -/
theorem omitted_chunk {result : List Chunk} {doc : Document}
    (inCorpus : doc ∈ corpus.rows) (omitted : Omitted result doc)
    (positive : 0 < termsFound lower query doc.text) :
    chunkOf lower query doc ∈ matching lower corpus query ∧
      chunkOf lower query doc ∉ result := by
  have found := (termsFound_pos_iff query doc).mp positive
  constructor
  · exact List.mem_map_of_mem (List.mem_filter.mpr ⟨inCorpus, found⟩)
  · exact fun returned => omitted _ returned rfl

theorem isTopOfCorpus_of_isTopK {count : Nat} {result : List Chunk}
    (top : IsTopK Chunk.score (matching lower corpus query) count result)
    (bound : max k 0 = count) : IsTopOfCorpus lower corpus query k result where
  atMost := by
    rw [bound]
    exact Int.ofNat_le.mpr top.length_le
  ordered := by
    apply top.ordered.imp
    rintro first second (higher | ⟨same, inOrder⟩)
    · exact Or.inl higher
    · have docs := inOrder.map Chunk.toDocument
      rw [map_toDocument_matching] at docs
      exact Or.inr ⟨same, docs.trans List.filter_sublist⟩
  scored chunk returned := (mem_matching (top.subset returned)).2
  best doc inCorpus omitted positive chunk returned := by
    obtain ⟨isChunk, absent⟩ := omitted_chunk inCorpus omitted positive
    exact (top.best _ isChunk absent chunk returned).score_le
  full doc inCorpus omitted positive := by
    obtain ⟨isChunk, absent⟩ := omitted_chunk inCorpus omitted positive
    rw [bound, top.full _ isChunk absent]
  cited chunk returned :=
    fetchChunk_of_mem (mem_matching (top.subset returned)).1

/-- A search is a correct top-k exactly for `k` that is not negative and for
negative `k` whose slice leaves nothing. -/
theorem search_isTopOfCorpus_iff (lower : String → String) (corpus : Corpus)
    (query : String) (k : Int) :
    IsTopOfCorpus lower corpus query k (search lower corpus query k) ↔
      0 ≤ k ∨ matchCount lower corpus query ≤ k.natAbs := by
  have best := isTopK_take_ranking Chunk.score (matching lower corpus query)
  by_cases nonneg : 0 ≤ k
  · rw [search_of_nonneg nonneg]
    refine iff_of_true ?_ (Or.inl nonneg)
    exact isTopOfCorpus_of_isTopK (best k.toNat) (by omega)
  · have neg : k < 0 := by omega
    constructor
    · intro top
      right
      have none := top.atMost
      rw [length_search_of_neg neg] at none
      omega
    · rintro (atLeastZero | few)
      · exact absurd atLeastZero nonneg
      · have empty : matchCount lower corpus query - k.natAbs = 0 := by omega
        rw [search_of_neg neg, empty]
        exact isTopOfCorpus_of_isTopK (best 0) (by omega)

end Result

/-! ### A slice from the end -/

/-- `text.lower()` for ASCII text. -/
def asciiLower (text : String) : String :=
  String.ofList (text.toList.map Char.toLower)

def clientNotes : Corpus where
  rows := [⟨"doc-1", "Client X"⟩, ⟨"doc-2", "Client Y"⟩]
  uniqueKeys := by decide

/-- Two documents match, and `search("client", -1)` returns one of them. -/
theorem negative_k_returns_a_chunk :
    (search asciiLower clientNotes "client" (-1)).length = 1 ∧
      ¬ IsTopOfCorpus asciiLower clientNotes "client" (-1)
        (search asciiLower clientNotes "client" (-1)) := by
  have two : matchCount asciiLower clientNotes "client" = 2 := by decide
  have one : (search asciiLower clientNotes "client" (-1)).length = 1 := by
    rw [length_search_of_neg (by decide), two]
    rfl
  refine ⟨one, ?_⟩
  intro top
  have none := top.atMost
  rw [one] at none
  exact absurd none (by decide)

end McpServer

end FableHarness
