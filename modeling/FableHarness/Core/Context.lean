import Mathlib.Algebra.Order.Ring.Rat
import FableHarness.Core.Python
import FableHarness.Library.OrderedDict

/-!
# The context of a run

The request, its session and scopes, and the ablation flags.  The stamps a run
collects form a dictionary of its own.
-/

namespace FableHarness

structure AblationFlags where
  memoryOn : Bool := true
  criticOn : Bool := true
  routerTier : Int := 3

structure RunContext where
  request : String
  sessionId : String
  userScope : String := "default"
  orgScope : String := "default"
  ablations : AblationFlags := {}

/-- The values a run is stamped with. -/
inductive StampValue where
  | text (value : String)
  | int (value : Int)
  | number (value : ℚ)
  | flag (value : Bool)

abbrev Metadata := OrderedDict String StampValue

/-- `round(value, digits)`, ties to even. -/
def roundTo (digits : Nat) (value : ℚ) : ℚ :=
  let scaled := value * 10 ^ digits
  let low := scaled.floor
  let rest := scaled - low
  let rounded :=
    if rest < 1 / 2 then low
    else if 1 / 2 < rest then low + 1
    else if low % 2 = 0 then low
    else low + 1
  rounded / 10 ^ digits

end FableHarness
