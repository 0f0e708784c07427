import FableHarness.Flows.Agent

/-!
# Post-turn memory extraction

A small agent pulls durable facts out of a finished turn.
-/

namespace FableHarness

structure ExtractedFact where
  content : String

structure FactExtractor (σ : Type) where
  model : Model σ (List ExtractedFact)

variable {σ μ : Type}

/-- `MemoryItem(content=..., scope=..., source=...)` with a fresh id. -/
def newMemoryItem (host : Host σ) (content scope source : String) :
    Turn σ μ MemoryItem := do
  let uuid ← Turn.outside (modifyGet host.uuid4)
  return { content, scope, source, id := uuid.str }

def FactExtractor.extract (host : Host σ) (extractor : FactExtractor σ)
    (request response source : String) : Turn σ μ (List MemoryItem) := do
  let result ←
    Agent.run host .extraction none extractor.model (Agent.noTools host)
      ("User: " ++ request ++ "\nAssistant: " ++ response) []
  result.output.mapM fun fact => newMemoryItem host fact.content "" source

end FableHarness
