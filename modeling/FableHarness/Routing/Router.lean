import FableHarness.Core.Context

/-!
# Routing decisions

A router decides the mode of a run and the name of its target.
-/

namespace FableHarness

inductive RouteMode where
  | direct
  | toolLoop
  | flow
deriving DecidableEq, Repr

def RouteMode.value : RouteMode → String
  | .direct => "direct"
  | .toolLoop => "tool_loop"
  | .flow => "flow"

structure RouteDecision where
  mode : RouteMode
  target : String
  confidence : ℚ
  tier : Int

/-- Any router: a program over the outside world. -/
abbrev Router (σ : Type) := String → RunContext → Py σ RouteDecision

/-- `StaticRouter` -/
def staticRouter {σ : Type} (mode : RouteMode := .toolLoop)
    (target : String := "single_agent") : Router σ :=
  fun _ _ => pure ⟨mode, target, 1, 0⟩

end FableHarness
