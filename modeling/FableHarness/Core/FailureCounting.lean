import Mathlib.Data.List.Induction
import FableHarness.Core.FailureDetector
import FableHarness.Core.JsonText
import FableHarness.Library.LabelledRun

/-!
# What the failure detector counts

The count under a key is the number of identical failures so far, since the
hashed text is the same for identical failures only.
-/

namespace FableHarness

open LabelledRun

/-- A `dict` of arguments: no key occurs twice, at any depth. -/
structure JsonObject where
  fields : Arguments
  wellFormed : (Json.obj fields).WellFormed

/-- One call of `record`. -/
structure RecordedCall where
  result : ToolResult
  arguments : JsonObject

namespace RecordedCall

/-- The same tool and error, and arguments that are equal as JSON values. -/
def identical (call other : RecordedCall) : Bool :=
  call.result.toolName == other.result.toolName &&
    call.result.error == other.result.error &&
    (Json.obj call.arguments.fields).same (.obj other.arguments.fields)

def failed (call : RecordedCall) : Bool := !call.result.ok

end RecordedCall

namespace RepeatedFailureDetector

/-! ## The hashed text -/

def payloadObject (result : ToolResult) (arguments : Arguments) : Json :=
  .obj [
    ("tool", .str result.toolName),
    ("args", .obj arguments),
    ("error", errorJson result.error)]

theorem same_errorJson_iff (error other : Option String) :
    (errorJson error).same (errorJson other) = true ↔ error = other := by
  cases error with
  | none =>
      cases other with
      | none => exact iff_of_true rfl rfl
      | some other => exact iff_of_false Bool.false_ne_true (by simp)
  | some error =>
      cases other with
      | none => exact iff_of_false Bool.false_ne_true (by simp)
      | some other =>
          simp only [errorJson, Json.same, beq_iff_eq, Option.some.injEq]

theorem wellFormed_payloadObject (call : RecordedCall) :
    (payloadObject call.result call.arguments.fields).WellFormed := by
  rw [payloadObject, Json.WellFormed, Json.wellFormedFields_iff]
  refine ⟨show ["tool", "args", "error"].Nodup by decide, ?_⟩
  intro field member
  simp only [List.mem_cons, List.not_mem_nil, or_false] at member
  rcases member with rfl | rfl | rfl
  · exact trivial
  · exact call.arguments.wellFormed
  · cases call.result.error with
    | none => exact trivial
    | some error => exact trivial

theorem same_payloadObject_iff (call other : RecordedCall) :
    (payloadObject call.result call.arguments.fields).same
        (payloadObject other.result other.arguments.fields) = true ↔
      call.identical other = true := by
  have parts :
      (payloadObject call.result call.arguments.fields).same
          (payloadObject other.result other.arguments.fields) = true ↔
        call.result.toolName = other.result.toolName ∧
          (Json.obj call.arguments.fields).same
              (.obj other.arguments.fields) = true ∧
          call.result.error = other.result.error := by
    simp [payloadObject, Json.same, Json.sameFields, same_errorJson_iff]
  rw [parts, RecordedCall.identical, Bool.and_eq_true, Bool.and_eq_true,
    beq_iff_eq, beq_iff_eq]
  constructor
  · rintro ⟨sameTool, sameArguments, sameError⟩
    exact ⟨⟨sameTool, sameError⟩, sameArguments⟩
  · rintro ⟨⟨sameTool, sameError⟩, sameArguments⟩
    exact ⟨sameTool, sameArguments, sameError⟩

theorem payload_eq_iff (call other : RecordedCall) :
    payload call.result call.arguments.fields =
        payload other.result other.arguments.fields ↔
      call.identical other = true :=
  (Json.dumps_eq_iff (wellFormed_payloadObject call)
    (wellFormed_payloadObject other)).trans (same_payloadObject_iff call other)

/-! ## Counting -/

section Counting

variable {runtime : PyRuntime} {maxRepeats : Int}

def step (runtime : PyRuntime) (detector : RepeatedFailureDetector)
    (call : RecordedCall) : RepeatedFailureDetector :=
  (record runtime detector call.result call.arguments.fields).1

/-- The detector after `calls`, which goes on counting where a call raised. -/
def detectorAfter (runtime : PyRuntime) (maxRepeats : Int)
    (calls : List RecordedCall) : RepeatedFailureDetector :=
  run (step runtime) { maxRepeats } calls

/-- How many of the calls failed identically to `call`. -/
def identicalFailures (calls : List RecordedCall) (call : RecordedCall) : Nat :=
  calls.countP fun other => other.failed && other.identical call

/-- The count that is stored for a call. -/
def stored (runtime : PyRuntime) (detector : RepeatedFailureDetector)
    (call : RecordedCall) : Nat :=
  (detector.seen.get? (key runtime call.result call.arguments.fields)).getD 0

theorem record_of_success (detector : RepeatedFailureDetector)
    {call : RecordedCall} (success : call.failed = false) :
    record runtime detector call.result call.arguments.fields =
      (detector, none) := by
  rw [RecordedCall.failed, Bool.not_eq_false'] at success
  exact record_of_ok runtime detector call.arguments.fields success

theorem record_of_failure (detector : RepeatedFailureDetector)
    {call : RecordedCall} (failure : call.failed = true) :
    record runtime detector call.result call.arguments.fields =
      ({ detector with
          seen := detector.seen.set
            (key runtime call.result call.arguments.fields)
            (stored runtime detector call + 1) },
        if detector.maxRepeats ≤ ((stored runtime detector call + 1 : Nat) : Int) then
          some (failedIdentically runtime call.result call.arguments.fields
            (stored runtime detector call + 1))
        else
          none) := by
  rw [RecordedCall.failed, Bool.not_eq_true'] at failure
  unfold record
  rw [if_neg (by rw [failure]; exact Bool.false_ne_true)]
  exact (apply_ite _ _ _ _).symm

/-- A success changes nothing; a failure adds one to its own count. -/
theorem stored_step (noCollision : Function.Injective runtime.sha256)
    (detector : RepeatedFailureDetector) (last call : RecordedCall) :
    stored runtime (step runtime detector last) call =
      stored runtime detector call +
        if last.failed && last.identical call then 1 else 0 := by
  cases failed : last.failed with
  | false =>
      rw [step, record_of_success detector failed]
      rfl
  | true =>
      have sameKey_iff :
          key runtime call.result call.arguments.fields =
              key runtime last.result last.arguments.fields ↔
            last.identical call = true := by
        rw [eq_comm]
        exact noCollision.eq_iff.trans (payload_eq_iff last call)
      rw [step, record_of_failure detector failed, Bool.true_and, stored,
        OrderedDict.get?_set]
      by_cases identical : last.identical call = true
      · have sameKey := sameKey_iff.mpr identical
        rw [if_pos sameKey, if_pos identical, Option.getD_some, stored, stored,
          sameKey]
      · rw [if_neg (fun sameKey => identical (sameKey_iff.mp sameKey)),
          if_neg identical, stored, Nat.add_zero]

/-- The stored count is the number of identical failures so far. -/
theorem stored_detectorAfter (noCollision : Function.Injective runtime.sha256)
    (calls : List RecordedCall) (call : RecordedCall) :
    stored runtime (detectorAfter runtime maxRepeats calls) call =
      identicalFailures calls call := by
  induction calls using List.reverseRecOn with
  | nil => rfl
  | append_singleton calls last inductionHypothesis =>
      have oneMore :
          detectorAfter runtime maxRepeats (calls ++ [last]) =
            step runtime (detectorAfter runtime maxRepeats calls) last :=
        run_concat _ _ calls last
      rw [oneMore, stored_step noCollision, inductionHypothesis,
        identicalFailures, identicalFailures, List.countP_append,
        List.countP_singleton]

theorem maxRepeats_detectorAfter (calls : List RecordedCall) :
    (detectorAfter runtime maxRepeats calls).maxRepeats = maxRepeats := by
  have keeps :
      ∀ (detector : RepeatedFailureDetector) call,
        detector.maxRepeats = maxRepeats →
          (step runtime detector call).maxRepeats = maxRepeats := by
    intro detector call kept
    cases failed : call.failed with
    | false => rwa [step, record_of_success detector failed]
    | true => rwa [step, record_of_failure detector failed]
  exact run_invariant (step runtime) keeps rfl calls

theorem identical_self (call : RecordedCall) : call.identical call = true :=
  (payload_eq_iff call call).mp rfl

/-- A call raises exactly if it is a failure and, with it, at least `max_repeats`
of the calls so far failed identically. -/
theorem record_raises_iff (runtime : PyRuntime)
    (noCollision : Function.Injective runtime.sha256) (maxRepeats : Int)
    (earlier : List RecordedCall) (call : RecordedCall) :
    (record runtime (detectorAfter runtime maxRepeats earlier) call.result
          call.arguments.fields).2.isSome = true ↔
      call.failed = true ∧
        maxRepeats ≤ identicalFailures (earlier ++ [call]) call := by
  cases failed : call.failed with
  | false =>
      rw [record_of_success _ failed]
      exact iff_of_false Bool.false_ne_true (fun both => Bool.false_ne_true both.1)
  | true =>
      have withCall :
          identicalFailures (earlier ++ [call]) call =
            identicalFailures earlier call + 1 := by
        rw [identicalFailures, List.countP_append, List.countP_singleton, failed,
          identical_self]
        rfl
      rw [record_of_failure _ failed, stored_detectorAfter noCollision,
        maxRepeats_detectorAfter, withCall]
      by_cases reached :
          maxRepeats ≤ ((identicalFailures earlier call + 1 : Nat) : Int)
      · rw [if_pos reached]
        exact iff_of_true rfl ⟨rfl, reached⟩
      · rw [if_neg reached]
        exact iff_of_false Bool.false_ne_true (fun both => reached both.2)

end Counting

/-! ### A search that times out twice -/

def searchPayload : String :=
  "\x7b\"args\": \x7b\"from\": 1, \"to\": 2\x7d, \"error\": \"timeout\", " ++
    "\"tool\": \"search\"\x7d"

/-- The digest of `searchPayload` is the real one; no other text has it. -/
def searchRuntime : PyRuntime where
  repr _ := "\x7b'to': 2, 'from': 1\x7d"
  sha256 text :=
    if text = searchPayload then
      "5a7e1aaecdfbf484ced903aa189c44fac98136f58304b3c090f214a39962c60b"
    else
      "-" ++ text
  float _ := "0.0"
  fixed _ _ := "0.0"

theorem sha256_searchRuntime_injective :
    Function.Injective searchRuntime.sha256 := by
  have apart : ∀ text : String,
      "5a7e1aaecdfbf484ced903aa189c44fac98136f58304b3c090f214a39962c60b" ≠
        "-" ++ text := by
    intro text same
    have heads := congrArg (fun digest => digest.toList.head?) same
    rw [String.toList_append] at heads
    exact absurd heads (by simp)
  intro left right same
  simp only [searchRuntime] at same
  by_cases isPayload : left = searchPayload
  · by_cases otherIsPayload : right = searchPayload
    · rw [isPayload, otherIsPayload]
    · rw [if_pos isPayload, if_neg otherIsPayload] at same
      exact absurd same (apart right)
  · by_cases otherIsPayload : right = searchPayload
    · rw [if_neg isPayload, if_pos otherIsPayload] at same
      exact absurd same.symm (apart left)
    · rw [if_neg isPayload, if_neg otherIsPayload] at same
      have texts := congrArg String.toList same
      rw [String.toList_append, String.toList_append,
        List.append_cancel_left_eq] at texts
      exact String.toList_inj.mp texts

/-- A search that failed, with its arguments in some order. -/
def timedOut (fields : Arguments) (wellFormed : (Json.obj fields).WellFormed) :
    RecordedCall where
  result := { toolName := "search", error := some "timeout" }
  arguments := ⟨fields, wellFormed⟩

def timedOutFromTo : RecordedCall :=
  timedOut [("from", .int 1), ("to", .int 2)] ⟨by decide, trivial, trivial, trivial⟩

def timedOutToFrom : RecordedCall :=
  timedOut [("to", .int 2), ("from", .int 1)] ⟨by decide, trivial, trivial, trivial⟩

/-- The second search raises, although its arguments stand in another order. -/
theorem second_search_raises :
    (record searchRuntime (detectorAfter searchRuntime 2 [timedOutFromTo])
          timedOutToFrom.result timedOutToFrom.arguments.fields).2.isSome =
      true := by
  apply
    (record_raises_iff searchRuntime sha256_searchRuntime_injective 2
      [timedOutFromTo] timedOutToFrom).mpr
  exact ⟨rfl, by decide⟩

end RepeatedFailureDetector

end FableHarness
