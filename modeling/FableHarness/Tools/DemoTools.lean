import FableHarness.Tools.Registry

/-!
# The demo tools

The four tools of the command line's registry.  Behind the gate, each of them serves
every call whose arguments are texts that fit its signature.
-/

namespace FableHarness

open ExceptionState

/-- What the demo handlers use of Python and of the clock. -/
structure DemoHost (σ : Type) where
  /-- `datetime.now(UTC).isoformat()` -/
  isoNow : σ → String × σ
  /-- The text of the `TypeError` for keyword arguments that do not fit. -/
  bindingError : String → Arguments → String
  /-- The text of the `TypeError` for a dictionary key without a hash. -/
  unhashable : Json → String
  /-- `str(value)` of a value that is no string. -/
  str : Json → String

namespace DemoTools

variable {σ : Type}

/-! ## The handlers -/

/-- Keyword arguments fit a function if they are its parameters. -/
def bindError (host : DemoHost σ) (function : String) (parameters : List String)
    (arguments : Arguments) : Option String :=
  if arguments.map Prod.fst = parameters then
    none
  else
    some (host.bindingError function arguments)

/-- The argument of a function with one parameter. -/
def onlyArgument (arguments : Arguments) : Json :=
  (arguments.head?.map Prod.snd).getD .null

def getCurrentTimeImpl (host : DemoHost σ) : Handler σ where
  bindError := bindError host "_get_current_time_impl" []
  body _ := modifyGet host.isoNow

def echoImpl (host : DemoHost σ) : Handler σ where
  bindError := bindError host "_echo_impl" ["text"]
  body arguments :=
    match onlyArgument arguments with
    | .str text => pure text
    | value => pure (host.str value)

def accountData : OrderedDict String String :=
  .ofList [
    ("client_x", "Client X: $2.4M AUM, moderate risk profile, onboarded 2019.")]

def meetingHistory : OrderedDict String String :=
  .ofList [
    ("client_x",
      "Last meeting: Q1 portfolio review, discussed rebalancing toward fixed income.")]

def accountRecord (client : String) : String :=
  (accountData.get? client).getD "no account data on file"

def meetingRecord (client : String) : String :=
  (meetingHistory.get? client).getD "no meeting history on file"

/-- `data.get(client, default)` on data whose keys are strings; a list or a dictionary
cannot even be looked up. -/
def lookUp (host : DemoHost σ) (record : String → String) (default : String) :
    Json → Py σ String
  | .str client => pure (record client)
  | .arr items => throw (.other "TypeError" (host.unhashable (.arr items)))
  | .obj fields => throw (.other "TypeError" (host.unhashable (.obj fields)))
  | _ => pure default

def accountLookupImpl (host : DemoHost σ) : Handler σ where
  bindError := bindError host "_account_lookup_impl" ["client"]
  body arguments :=
    lookUp host accountRecord "no account data on file" (onlyArgument arguments)

def meetingHistoryImpl (host : DemoHost σ) : Handler σ where
  bindError := bindError host "_meeting_history_impl" ["client"]
  body arguments :=
    lookUp host meetingRecord "no meeting history on file" (onlyArgument arguments)

/-! ## The registry -/

def timeTool (host : DemoHost σ) : ToolSpec σ where
  name := "get_current_time"
  riskTier := .readOnly
  handler := getCurrentTimeImpl host

def echoTool (host : DemoHost σ) : ToolSpec σ where
  name := "echo"
  riskTier := .readOnly
  handler := echoImpl host

def accountTool (host : DemoHost σ) : ToolSpec σ where
  name := "account_lookup"
  riskTier := .financial
  handler := accountLookupImpl host
  flows := ["orchestrator"]

def meetingTool (host : DemoHost σ) : ToolSpec σ where
  name := "meeting_history"
  riskTier := .readOnly
  handler := meetingHistoryImpl host
  flows := ["orchestrator"]

def demoToolSpecs (host : DemoHost σ) : List (ToolSpec σ) :=
  [timeTool host, echoTool host, accountTool host, meetingTool host]

/-- `_build_registry` -/
def buildRegistry (host : DemoHost σ) : InMemoryToolRegistry σ :=
  InMemoryToolRegistry.registered (demoToolSpecs host)

/-- A host on which time stands still. -/
def demoHost : DemoHost Unit where
  isoNow env := ("2026-01-05T09:00:00+00:00", env)
  bindingError function _ := function ++ "() got an unexpected keyword argument"
  unhashable _ := "unhashable type"
  str _ := ""

end DemoTools

/-! ## Calls behind the gate -/

/-- The call names a tool of this tier, and its handler always returns such an
output. -/
def InMemoryToolRegistry.Serves {σ : Type} (registry : InMemoryToolRegistry σ)
    (call : ToolCall) (tier : RiskTier) (isOutput : String → Prop) : Prop :=
  ∃ spec,
    registry.tools.get? call.toolName = some spec ∧ spec.riskTier = tier ∧
      spec.handler.Accepts call.arguments ∧
      ∀ env, ∃ output after,
        (spec.handler.body call.arguments).run env = .ok output after ∧
          isOutput output

namespace DemoTools

open InMemoryToolRegistry

variable {σ : Type} (host : DemoHost σ) (flow : String)

theorem serves_getCurrentTime :
    (buildRegistry host).Serves ⟨"get_current_time", [], flow⟩ .readOnly
      fun _ => True := by
  refine ⟨timeTool host, get?_registered _ _, rfl, rfl, ?_⟩
  exact fun env => ⟨(host.isoNow env).1, (host.isoNow env).2, rfl, trivial⟩

theorem serves_echo (text : String) :
    (buildRegistry host).Serves ⟨"echo", [("text", .str text)], flow⟩ .readOnly
      (· = text) := by
  refine ⟨echoTool host, get?_registered _ _, rfl, rfl, ?_⟩
  exact fun env => ⟨text, env, rfl, rfl⟩

theorem serves_accountLookup (client : String) :
    (buildRegistry host).Serves ⟨"account_lookup", [("client", .str client)], flow⟩
      .financial (· = accountRecord client) := by
  refine ⟨accountTool host, get?_registered _ _, rfl, rfl, ?_⟩
  exact fun env => ⟨_, env, rfl, rfl⟩

theorem serves_meetingHistory (client : String) :
    (buildRegistry host).Serves ⟨"meeting_history", [("client", .str client)], flow⟩
      .readOnly (· = meetingRecord client) := by
  refine ⟨meetingTool host, get?_registered _ _, rfl, rfl, ?_⟩
  exact fun env => ⟨_, env, rfl, rfl⟩

end DemoTools

end FableHarness
