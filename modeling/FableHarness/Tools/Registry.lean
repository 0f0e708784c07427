import Mathlib.Data.List.Induction
import FableHarness.Core.Permissions

/-!
# The tool registry

A registry is a dictionary of tool specifications.  `execute` is the single
choke point a tool call passes through: lookup, approval gate, handler, with
denials and handler failures returned as data.
-/

namespace FableHarness

open ExceptionState

/-- An async handler.  Binding the keyword arguments to its signature may fail
with the text of a `TypeError`; the body runs only once they are bound. -/
structure Handler (σ : Type) where
  bindError : Arguments → Option String
  body : Arguments → Py σ String

def Handler.Accepts {σ : Type} (handler : Handler σ) (arguments : Arguments) : Prop :=
  handler.bindError arguments = none

/-- An empty `flows` means that every flow may use the tool. -/
structure ToolSpec (σ : Type) where
  name : String
  riskTier : RiskTier
  handler : Handler σ
  flows : List String := []

structure ToolResult where
  toolName : String
  output : Option String := none
  error : Option String := none
  riskTier : Option RiskTier := none
deriving DecidableEq, Repr

def ToolResult.ok (result : ToolResult) : Bool :=
  result.error.isNone

structure PermissionGrants (σ : Type) where
  gate : ApprovalGate σ := {}

structure InMemoryToolRegistry (σ : Type) where
  tools : OrderedDict String (ToolSpec σ) := ∅

/-- How far a call got inside `execute`. -/
inductive Verdict where
  | unknownTool
  | denied
  | unbound
  | entered
deriving DecidableEq, Repr

namespace InMemoryToolRegistry

variable {σ : Type}

def register (registry : InMemoryToolRegistry σ) (spec : ToolSpec σ) :
    InMemoryToolRegistry σ :=
  ⟨registry.tools.set spec.name spec⟩

def scopedFor (registry : InMemoryToolRegistry σ) (flow : String) :
    List (ToolSpec σ) :=
  registry.tools.values.filter fun spec =>
    spec.flows.isEmpty || spec.flows.contains flow

def unknownTool (call : ToolCall) : ToolResult where
  toolName := call.toolName
  error := some ("unknown tool '" ++ call.toolName ++ "'")

/-- The result of a call that `spec` could not serve. -/
def failed (spec : ToolSpec σ) (message : String) : ToolResult where
  toolName := spec.name
  error := some message
  riskTier := some spec.riskTier

def succeeded (spec : ToolSpec σ) (output : String) : ToolResult where
  toolName := spec.name
  output := some output
  riskTier := some spec.riskTier

/-- The part of `execute` behind the approval gate: `await spec.handler(**args)`
with every exception turned into data. -/
def enterHandler (spec : ToolSpec σ) (arguments : Arguments) :
    Py σ (Verdict × ToolResult) := do
  match spec.handler.bindError arguments with
  | some message => pure (.unbound, failed spec message)
  | none =>
      match ← attempt (spec.handler.body arguments) with
      | .ok output => pure (.entered, succeeded spec output)
      | .error exc => pure (.entered, failed spec exc.message)

/-- `execute` together with how far the call got, which the `execute_tool` span
records.  Only a `PermissionDenied` of the gate becomes a result; whatever else
a callback raises leaves `execute`. -/
def executeObserved (registry : InMemoryToolRegistry σ)
    (call : ToolCall) (grants : PermissionGrants σ) :
    Py σ (Verdict × ToolResult) := do
  match registry.tools.get? call.toolName with
  | none => pure (.unknownTool, unknownTool call)
  | some spec =>
      match ← attempt (grants.gate.check call spec.riskTier) with
      | .ok () => enterHandler spec call.arguments
      | .error (.permissionDenied message) =>
          pure (.denied, failed spec message)
      | .error exc => throw exc

def execute (registry : InMemoryToolRegistry σ)
    (call : ToolCall) (grants : PermissionGrants σ) : Py σ ToolResult :=
  Prod.snd <$> registry.executeObserved call grants

/-! ## Registrations -/

/-- The registry after a sequence of `register` calls. -/
def registered (history : List (ToolSpec σ)) : InMemoryToolRegistry σ :=
  history.foldl register {}

/-- The specification registered last under a name. -/
def latest (history : List (ToolSpec σ)) (name : String) : Option (ToolSpec σ) :=
  history.reverse.find? fun spec => spec.name == name

theorem registered_concat (history : List (ToolSpec σ)) (spec : ToolSpec σ) :
    registered (history ++ [spec]) = (registered history).register spec := by
  rw [registered, List.foldl_append, List.foldl_cons, List.foldl_nil, registered]

theorem name_of_latest {history : List (ToolSpec σ)} {name : String}
    {spec : ToolSpec σ} (found : latest history name = some spec) :
    spec.name = name := by
  have matched := List.find?_some found
  exact eq_of_beq matched

/-- A lookup finds the last registration under the name. -/
theorem get?_registered (history : List (ToolSpec σ)) (name : String) :
    (registered history).tools.get? name = latest history name := by
  induction history using List.reverseRecOn with
  | nil => rfl
  | append_singleton history spec inductionHypothesis =>
      have newest :
          latest (history ++ [spec]) name =
            if name = spec.name then some spec else latest history name := by
        rw [latest, List.reverse_concat, List.find?_cons]
        by_cases same : name = spec.name
        · simp [same]
        · have different : (spec.name == name) = false :=
            beq_eq_false_iff_ne.mpr fun equal => same equal.symm
          rw [if_neg same, different]
          rfl
      rw [registered_concat, register, OrderedDict.get?_set, inductionHypothesis,
        newest]

/-! ## What a result says about the call -/

@[simp]
theorem ok_unknownTool (call : ToolCall) : (unknownTool call).ok = false :=
  rfl

@[simp]
theorem ok_failed (spec : ToolSpec σ) (message : String) :
    (failed spec message).ok = false :=
  rfl

@[simp]
theorem ok_succeeded (spec : ToolSpec σ) (output : String) :
    (succeeded spec output).ok = true :=
  rfl

/-! ## How a call ends -/

/-- The ways in which a call can end, and what its caller receives. -/
inductive ExecuteEnds (registry : InMemoryToolRegistry σ) (call : ToolCall)
    (grants : PermissionGrants σ) (env : σ) :
    EStateM.Result PyExc σ (Verdict × ToolResult) → Prop where
  | unknownTool (absent : registry.tools.get? call.toolName = none) :
      ExecuteEnds registry call grants env
        (.ok (.unknownTool, InMemoryToolRegistry.unknownTool call) env)
  | denied (spec : ToolSpec σ) (message : String) (after : σ)
      (found : registry.tools.get? call.toolName = some spec)
      (checked :
        (grants.gate.check call spec.riskTier).run env =
          .error (.permissionDenied message) after) :
      ExecuteEnds registry call grants env
        (.ok (.denied, failed spec message) after)
  | escaped (spec : ToolSpec σ) (exc : PyExc) (after : σ)
      (found : registry.tools.get? call.toolName = some spec)
      (checked :
        (grants.gate.check call spec.riskTier).run env = .error exc after)
      (foreign : exc.isPermissionDenied = false) :
      ExecuteEnds registry call grants env (.error exc after)
  | unbound (spec : ToolSpec σ) (message : String) (after : σ)
      (found : registry.tools.get? call.toolName = some spec)
      (checked :
        (grants.gate.check call spec.riskTier).run env = .ok () after)
      (refused : spec.handler.bindError call.arguments = some message) :
      ExecuteEnds registry call grants env
        (.ok (.unbound, failed spec message) after)
  | raised (spec : ToolSpec σ) (exc : PyExc) (middle after : σ)
      (found : registry.tools.get? call.toolName = some spec)
      (checked :
        (grants.gate.check call spec.riskTier).run env = .ok () middle)
      (accepted : spec.handler.Accepts call.arguments)
      (body :
        (spec.handler.body call.arguments).run middle = .error exc after) :
      ExecuteEnds registry call grants env
        (.ok (.entered, failed spec exc.message) after)
  | returned (spec : ToolSpec σ) (output : String) (middle after : σ)
      (found : registry.tools.get? call.toolName = some spec)
      (checked :
        (grants.gate.check call spec.riskTier).run env = .ok () middle)
      (accepted : spec.handler.Accepts call.arguments)
      (body :
        (spec.handler.body call.arguments).run middle = .ok output after) :
      ExecuteEnds registry call grants env
        (.ok (.entered, succeeded spec output) after)

theorem ends_executeObserved (registry : InMemoryToolRegistry σ)
    (call : ToolCall) (grants : PermissionGrants σ) (env : σ) :
    ExecuteEnds registry call grants env
      ((registry.executeObserved call grants).run env) := by
  unfold executeObserved
  cases found : registry.tools.get? call.toolName with
  | none => exact .unknownTool found
  | some spec =>
      simp only [EStateM.run_bind, run_attempt]
      cases checked : (grants.gate.check call spec.riskTier).run env with
      | error exc after =>
          cases exc with
          | permissionDenied message =>
              exact .denied spec message after found checked
          | usageLimitExceeded message =>
              exact .escaped spec _ after found checked rfl
          | other className message =>
              exact .escaped spec _ after found checked rfl
      | ok passed middle =>
          simp only [answer_ok, finalState_ok]
          unfold enterHandler
          cases bound : spec.handler.bindError call.arguments with
          | some message => exact .unbound spec message middle found checked bound
          | none =>
              simp only [EStateM.run_bind, run_attempt]
              cases body : (spec.handler.body call.arguments).run middle with
              | error exc after =>
                  exact .raised spec exc middle after found checked bound body
              | ok output after =>
                  exact .returned spec output middle after found checked bound body

/-- A denied call has a failed result. -/
theorem ok_of_denied {registry : InMemoryToolRegistry σ} {call : ToolCall}
    {grants : PermissionGrants σ} {result : ToolResult} {before after : σ}
    (denied :
      (registry.executeObserved call grants).run before =
        .ok (.denied, result) after) :
    result.ok = false := by
  have ends := ends_executeObserved registry call grants before
  rw [denied] at ends
  cases ends
  rfl

end InMemoryToolRegistry

end FableHarness
