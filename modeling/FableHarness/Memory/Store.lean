import FableHarness.Memory.Uuid

/-!
# The memory seam

The items, the invalidation predicate and the operations every memory backend
offers, each a program over the backend's own state.
-/

namespace FableHarness

/-- A `datetime` with time zone, in microseconds. -/
abbrev Timestamp := Int

structure MemoryItem where
  content : String
  scope : String
  encoderId : Option String := none
  source : String := "unknown"
  validFrom : Option Timestamp := none
  validTo : Option Timestamp := none
  id : String
deriving DecidableEq, Repr

def MemoryItem.isLive (item : MemoryItem) : Bool := item.validTo.isNone

/-- Selects the live items of a scope to close; `matches` may raise. -/
structure MemoryPredicate where
  scope : String
  matchItem : MemoryItem → Except PyExc Bool

structure MemoryStore (μ : Type) where
  remember : List MemoryItem → String → Py μ Unit
  recallItems : String → String → Int → Py μ (List MemoryItem)
  invalidate : MemoryPredicate → Py μ Nat

/-- `NullMemoryStore` -/
def nullMemoryStore (μ : Type) : MemoryStore μ where
  remember _ _ := pure ()
  recallItems _ _ _ := pure []
  invalidate _ := pure 0

end FableHarness
