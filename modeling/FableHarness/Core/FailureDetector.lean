import FableHarness.Tools.Registry

/-!
# Repeated failures

Counts the failed tool calls of a run by a hash of tool, arguments and error,
and raises when a count reaches the limit.
-/

namespace FableHarness

structure RepeatedFailureDetector where
  maxRepeats : Int := 2
  seen : OrderedDict String Nat := ∅

namespace RepeatedFailureDetector

def errorJson : Option String → Json
  | some error => .str error
  | none => .null

/-- The text that is hashed. -/
def payload (result : ToolResult) (arguments : Arguments) : String :=
  Json.dumps <| .obj [
    ("tool", .str result.toolName),
    ("args", .obj arguments),
    ("error", errorJson result.error)]

def key (runtime : PyRuntime) (result : ToolResult) (arguments : Arguments) :
    String :=
  runtime.sha256 (payload result arguments)

def failedIdentically (runtime : PyRuntime) (result : ToolResult)
    (arguments : Arguments) (count : Nat) : String :=
  "tool '" ++ result.toolName ++ "' failed identically " ++ toString count ++
    "x with args=" ++ runtime.repr (.obj arguments) ++ ": " ++
    result.error.getD "None"

/-- `record`: the new counts, and the message of the `RepeatedFailureError` it
raises, if it raises one. -/
def record (runtime : PyRuntime) (detector : RepeatedFailureDetector)
    (result : ToolResult) (arguments : Arguments) :
    RepeatedFailureDetector × Option String :=
  if result.ok then
    (detector, none)
  else
    let key := key runtime result arguments
    let count := (detector.seen.get? key).getD 0 + 1
    let counted := { detector with seen := detector.seen.set key count }
    if detector.maxRepeats ≤ count then
      (counted, some (failedIdentically runtime result arguments count))
    else
      (counted, none)

theorem record_of_ok (runtime : PyRuntime) (detector : RepeatedFailureDetector)
    {result : ToolResult} (arguments : Arguments) (ok : result.ok = true) :
    record runtime detector result arguments = (detector, none) := by
  simp [record, ok]

/-- The first failure a fresh detector sees never raises. -/
theorem record_first (runtime : PyRuntime) (result : ToolResult)
    (arguments : Arguments) :
    (record runtime {} result arguments).2 = none := by
  unfold record
  cases result.ok with
  | true => rfl
  | false => rfl

end RepeatedFailureDetector

end FableHarness
