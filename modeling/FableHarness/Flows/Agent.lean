import FableHarness.Flows.Turn
import FableHarness.Tools.McpClient

/-!
# Agent runs

The agent library drives a model: it sends the prompt, executes the tools the
model calls, and feeds the replies back until the model answers.  The model is
an arbitrary tree of such steps; the library charges every response, enforces
the usage limits it was given, and lets whatever a tool function raises through
(its own retry signal, which it would turn into a reply, is left out).
-/

namespace FableHarness

open ExceptionState

structure ModelResponse where
  inputTokens : Nat := 0
  outputTokens : Nat := 0

/-- What a model does from one response on. -/
inductive ModelRun (α : Type) where
  | answer (response : ModelResponse) (output : α) (messages : List Json)
  | raises (exc : PyExc)
  | call (response : ModelResponse) (name : String) (arguments : Arguments)
      (next : ToolReply → ModelRun α)

/-- A model, given a prompt. -/
abbrev Model (σ α : Type) := String → Py σ (ModelRun α)

/-- `result.usage` -/
structure RunUsage where
  inputTokens : Nat := 0
  outputTokens : Nat := 0
  toolCalls : Nat := 0

def RunUsage.totalTokens (usage : RunUsage) : Nat :=
  usage.inputTokens + usage.outputTokens

structure AgentResult (α : Type) where
  output : α
  usage : RunUsage
  messages : List Json

namespace RunUsage

def add (usage : RunUsage) (response : ModelResponse) : RunUsage :=
  { usage with
    inputTokens := usage.inputTokens + response.inputTokens
    outputTokens := usage.outputTokens + response.outputTokens }

/-- A reply with a value counts as a tool call. -/
def count (usage : RunUsage) : ToolReply → RunUsage
  | .value _ => { usage with toolCalls := usage.toolCalls + 1 }
  | .retry _ => usage

end RunUsage

namespace UsageLimits

def tokensExceeded (limit : Nat) (usage : RunUsage) : PyExc :=
  .usageLimitExceeded <|
    "Exceeded the total_tokens_limit of " ++ toString limit ++
      " (total_tokens=" ++ toString usage.totalTokens ++ ")"

def toolCallsExceeded (limit : Nat) (usage : RunUsage) : PyExc :=
  .usageLimitExceeded <|
    "The next tool call(s) would exceed the tool_calls_limit of " ++
      toString limit ++ " (tool_calls=" ++ toString (usage.toolCalls + 1) ++ ")"

/-- The check after a response. -/
def checkTokens (limits : Option UsageLimits) (usage : RunUsage) :
    Option PyExc :=
  match limits.bind UsageLimits.totalTokensLimit with
  | some limit =>
      if limit < usage.totalTokens then some (tokensExceeded limit usage) else none
  | none => none

/-- The check before a tool call. -/
def checkToolCalls (limits : Option UsageLimits) (usage : RunUsage) :
    Option PyExc :=
  match limits.bind UsageLimits.toolCallsLimit with
  | some limit =>
      if limit < usage.toolCalls + 1 then
        some (toolCallsExceeded limit usage)
      else
        none
  | none => none

end UsageLimits

namespace Agent

variable {σ μ α : Type}

def raiseIf : Option PyExc → Turn σ μ Unit
  | none => pure ()
  | some exc => throw (.outside exc)

/-- One response has arrived. -/
def charge (role : AgentRole) (limits : Option UsageLimits) (usage : RunUsage)
    (response : ModelResponse) : Turn σ μ RunUsage := do
  Turn.record
    (.modelResponded role response.inputTokens response.outputTokens)
  let charged := usage.add response
  raiseIf (UsageLimits.checkTokens limits charged)
  return charged

/-- The events of a response, and the error that may follow it. -/
theorem run_charge (role : AgentRole) (limits : Option UsageLimits)
    (usage : RunUsage) (response : ModelResponse) (world : World σ μ) :
    (charge role limits usage response : Turn σ μ RunUsage).run world =
      let event : Interaction :=
        .modelResponded role response.inputTokens response.outputTokens
      let charged : World σ μ := { world with trace := world.trace ++ [event] }
      match UsageLimits.checkTokens limits (usage.add response) with
      | none => .ok (usage.add response) charged
      | some exc => .error (.outside exc) charged := by
  let event : Interaction :=
    .modelResponded role response.inputTokens response.outputTokens
  have recorded :
      (Turn.record event : Turn σ μ Unit).run world =
        .ok () { world with trace := world.trace ++ [event] } :=
    rfl
  rw [charge, EStateM.run_bind, recorded]
  cases checked : UsageLimits.checkTokens limits (usage.add response) with
  | none =>
      simp only [checked, raiseIf]
      rfl
  | some exc =>
      simp only [checked, raiseIf]
      rfl

/-- One call of a tool function. -/
def callTool (role : AgentRole) (limits : Option UsageLimits)
    (tool : String → Arguments → Turn σ μ ToolReply) (usage : RunUsage)
    (name : String) (arguments : Arguments) : Turn σ μ (ToolReply × RunUsage) := do
  raiseIf (UsageLimits.checkToolCalls limits usage)
  let reply ← tool name arguments
  match reply with
  | .value _ => Turn.record (.toolReturned role)
  | .retry _ => pure ()
  return (reply, usage.count reply)

/-- The loop of `agent.run`. -/
def drive (role : AgentRole) (limits : Option UsageLimits)
    (tool : String → Arguments → Turn σ μ ToolReply) :
    RunUsage → ModelRun α → Turn σ μ (AgentResult α)
  | usage, .answer response output messages => do
      let charged ← charge role limits usage response
      return ⟨output, charged, messages⟩
  | _, .raises exc => throw (.outside exc)
  | usage, .call response name arguments next => do
      let charged ← charge role limits usage response
      let (reply, counted) ← callTool role limits tool charged name arguments
      drive role limits tool counted (next reply)

/-- `agent.run(prompt, usage_limits=...)`; `memory` are the memory contents that
went into the prompt. -/
def run (host : Host σ) (role : AgentRole) (limits : Option UsageLimits)
    (model : Model σ α) (tool : String → Arguments → Turn σ μ ToolReply)
    (prompt : String) (memory : List String) : Turn σ μ (AgentResult α) := do
  Turn.record (.agentStarted role prompt memory)
  let behaviour ← Turn.outside (model prompt)
  let result ← drive role limits tool {} behaviour
  let time ← Turn.monotonic host
  Turn.record (.agentEnded role time)
  return result

/-- The run of a model that answers at once, within the limits. -/
theorem run_of_answer (host : Host σ) (role : AgentRole)
    {limits : Option UsageLimits} {model : Model σ α}
    (tool : String → Arguments → Turn σ μ ToolReply) {prompt : String}
    (memory : List String) {world : World σ μ} {response : ModelResponse}
    {output : α} {messages : List Json} {env : σ}
    (chosen :
      (model prompt).run world.env = .ok (.answer response output messages) env)
    (within :
      UsageLimits.checkTokens limits (({} : RunUsage).add response) = none) :
    (run host role limits model tool prompt memory).run world =
      let time := world.clock + ((host.elapse env).1 : ℚ)
      .ok ⟨output, ({} : RunUsage).add response, messages⟩
        { world with
          env := (host.elapse env).2
          clock := time
          trace :=
            world.trace ++ [
              .agentStarted role prompt memory,
              .modelResponded role response.inputTokens response.outputTokens,
              .agentEnded role time] } := by
  have recorded :
      (Turn.record (.agentStarted role prompt memory) : Turn σ μ Unit).run world =
        .ok ()
          { world with
            trace := world.trace ++ [.agentStarted role prompt memory] } :=
    rfl
  have driven :
      ∀ before : World σ μ,
        (drive role limits tool {} (.answer response output messages)).run before =
          .ok ⟨output, ({} : RunUsage).add response, messages⟩
            { before with
              trace :=
                before.trace ++
                  [.modelResponded role response.inputTokens
                    response.outputTokens] } := by
    intro before
    rw [drive, EStateM.run_bind, run_charge, within]
    rfl
  unfold run
  simp only [EStateM.run_bind, recorded, Turn.run_outside, chosen, driven,
    Turn.run_monotonic]
  simp [Turn.record]

/-- The tools of an agent that was given none. -/
def noTools (host : Host σ) (name : String) (arguments : Arguments) :
    Turn σ μ ToolReply :=
  return .retry (host.rejection name arguments)

end Agent

end FableHarness
