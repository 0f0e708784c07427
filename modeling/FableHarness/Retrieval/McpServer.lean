import Mathlib.Data.List.Infix
import FableHarness.Library.KeyedTable

/-!
# The stub retrieval server

Keyword search and citation lookup over an in-memory corpus.  `str.lower` is a
parameter: no result depends on the case tables.
-/

namespace FableHarness

/-! ## String and list methods -/

/-- `char.isspace()` -/
def isSpace (char : Char) : Bool :=
  (0x09 ≤ char.toNat && char.toNat ≤ 0x0D) ||
    (0x1C ≤ char.toNat && char.toNat ≤ 0x20) ||
    (0x2000 ≤ char.toNat && char.toNat ≤ 0x200A) ||
    [0x85, 0xA0, 0x1680, 0x2028, 0x2029, 0x202F, 0x205F, 0x3000].contains
      char.toNat

/-- `text.split()`: the runs of other characters between the white space. -/
def split (text : String) : List String :=
  ((text.toList.splitOnP isSpace).filter fun word => !word.isEmpty).map
    String.ofList

/-- `term in text` -/
def occursIn (term text : String) : Bool :=
  decide (term.toList <:+: text.toList)

/-- `items[:k]`; a negative `k` counts from the end. -/
def sliceTo {α : Type} (k : Int) (items : List α) : List α :=
  if 0 ≤ k then
    items.take k.toNat
  else
    items.take (items.length - k.natAbs)

/-! ## The server -/

structure Document where
  id : String
  text : String
deriving DecidableEq, Repr

/-- A document of the corpus with its matched-term count. -/
structure Chunk extends Document where
  score : Nat
deriving DecidableEq, Repr

abbrev Corpus := KeyedTable Document.id

namespace McpServer

variable (lower : String → String)

/-- `[t.lower() for t in query.split() if t]` -/
def terms (query : String) : List String :=
  ((split query).filter fun term => term != "").map lower

/-- How many of the terms occur in the text. -/
def scoreOf (terms : List String) (doc : Document) : Nat :=
  terms.countP fun term => occursIn term (lower doc.text)

/-- The loop over the corpus: the documents that some term occurs in, with
their scores. -/
def scored (terms : List String) : List Document → List Chunk
  | [] => []
  | doc :: rest =>
      if 0 < scoreOf lower terms doc then
        ⟨doc, scoreOf lower terms doc⟩ :: scored terms rest
      else
        scored terms rest

/-- `scored.sort(key=lambda d: d["score"], reverse=True)`, which keeps chunks of
equal score in their order. -/
def sortByScore (chunks : List Chunk) : List Chunk :=
  chunks.mergeSort fun left right => decide (right.score ≤ left.score)

/-- `search(query, k)` -/
def search (corpus : Corpus) (query : String) (k : Int := 5) : List Chunk :=
  sliceTo k (sortByScore (scored lower (terms lower query) corpus.rows))

/-- `fetch_chunk(chunk_id)` -/
def fetchChunk (corpus : Corpus) (chunkId : String) : Option Document :=
  corpus.rows.find? fun doc => doc.id == chunkId

end McpServer

end FableHarness
