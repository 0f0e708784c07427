import FableHarness.Core.RoutedTurn
import FableHarness.Core.Session
import FableHarness.Library.LabelledRun

/-!
# The command line

One invocation connects the stores, ensures the session, runs one turn, closes
the memory store whatever the turn did, and records the run.  Invocations share
the outside world, the memory and the session tables.
-/

namespace FableHarness

open ExceptionState

variable {σ μ α : Type}

/-! ## Configuration -/

/-- What `_run` reads of the settings. -/
structure Settings where
  modelId : String
  memoryOn : Bool := true
  criticOn : Bool := true
  routerTier : Int := 3

/-- What `_run` reads of `harness.yaml`. -/
structure HarnessConfig where
  budgets : OrderedDict String Budget
  /-- `permission_matrix()`, which raises on an unknown tier or policy. -/
  permissionMatrix : Except PyExc PermissionMatrix
  pricing : OrderedDict String ModelPricing := ∅

/-- The fallback is looked up whether or not it is needed. -/
def HarnessConfig.budgetFor (config : HarnessConfig) (name : String) :
    Except PyExc Budget :=
  match config.budgets.get? "default" with
  | some fallback => .ok ((config.budgets.get? name).getD fallback)
  | none => .error (.other "KeyError" "'default'")

/-- The models behind the agents of a run. -/
structure Models (σ : Type) where
  singleAgent : Model σ String
  retrieval : Model σ String
  synthesis : Model σ SynthesisOutput
  critic : Model σ SynthesisOutput
  extraction : Model σ (List ExtractedFact)

/-- The outside code that an invocation runs on; whether it uses the test model
decides the models and the triage of the router. -/
structure Installation (σ μ : Type) where
  host : Host σ
  settings : Settings
  config : HarnessConfig
  /-- Everything `_run` does before it connects the memory store. -/
  setup : Py σ Unit
  connectMemory : Py σ Unit
  memory : MemoryStore μ
  closeMemory : Py σ Unit
  connectSessions : Py σ Unit
  sessions : PostgresSessionStore
  closeSessions : Py σ Unit
  tools : InMemoryToolRegistry σ
  buildRouter : Bool → Py σ (Router σ)
  models : Bool → Models σ
  server : CallToolFunc σ
  gatherOrder : σ → GatherOrder × σ

structure Invocation (σ μ : Type) where
  install : Installation σ μ
  request : String
  useTestModel : Bool := false
  sessionId : String := "cli-session"

/-! ## What invocations share -/

/-- A call of `run_turn`. -/
structure TurnEntry where
  sessionId : String
  outcome : Except TurnExc FlowResult
  trace : List Interaction

/-- The list of turns is kept for the reader: no program reads it. -/
structure Machine (σ μ : Type) where
  env : σ
  memory : μ
  clock : ℚ
  tables : SessionTables := {}
  turns : List TurnEntry := []

namespace Machine

/-- The machine before the first invocation. -/
def start (env : σ) (memory : μ) (clock : ℚ) : Machine σ μ :=
  { env, memory, clock }

/-- A turn starts with a fresh tracker, context and trace. -/
def world (machine : Machine σ μ) : World σ μ :=
  { env := machine.env, memory := machine.memory, clock := machine.clock }

def withWorld (machine : Machine σ μ) (world : World σ μ) : Machine σ μ :=
  { machine with
    env := world.env
    memory := world.memory
    clock := world.clock }

/-- The machine after a turn, which is entered in the list of turns. -/
def afterTurn (machine : Machine σ μ) (sessionId : String)
    (ran : EStateM.Result TurnExc (World σ μ) FlowResult) : Machine σ μ :=
  { machine.withWorld (finalState ran) with
    turns :=
      machine.turns ++ [⟨sessionId, answer ran, (finalState ran).trace⟩] }

end Machine

abbrev Cli (σ μ : Type) := EStateM TurnExc (Machine σ μ)

namespace Cli

def outside (program : Py σ α) : Cli σ μ α :=
  focus Machine.env (fun env machine => { machine with env }) .outside program

def onTables (program : Py SessionTables α) : Cli σ μ α :=
  focus Machine.tables (fun tables machine => { machine with tables }) .outside
    program

/-- `time.monotonic()` -/
def monotonic (host : Host σ) : Cli σ μ ℚ :=
  focus Machine.world (fun world machine => machine.withWorld world) id
    (Turn.monotonic host)

def raiseError : Except PyExc α → Cli σ μ α
  | .ok value => return value
  | .error exc => throw (.outside exc)

/-- `loop.run_turn(ctx, services)` -/
def runTurn (loop : AgentLoop σ μ) (ctx : RunContext)
    (services : HarnessServices σ μ) : Cli σ μ FlowResult :=
  fun machine =>
    let ran := loop.turn ctx services machine.world
    match ran with
    | .ok result _ => .ok result (machine.afterTurn ctx.sessionId ran)
    | .error exc _ => .error exc (machine.afterTurn ctx.sessionId ran)

/-- `_connect_memory`: the store in use, and how to close the one that was
connected. -/
def connectMemory (install : Installation σ μ) :
    Cli σ μ (MemoryStore μ × Option (Py σ Unit)) := do
  match ← attempt (outside install.connectMemory) with
  | .ok () => return (install.memory, some install.closeMemory)
  | .error (_ : TurnExc) => return (nullMemoryStore μ, none)

/-- `_connect_sessions`; without a connection the null store is used. -/
def connectSessions (install : Installation σ μ) :
    Cli σ μ (Option PostgresSessionStore) := do
  match ← attempt (outside install.connectSessions) with
  | .ok () => return some install.sessions
  | .error (_ : TurnExc) => return none

end Cli

def sessionStoreOf : Option PostgresSessionStore → SessionStore
  | some store => store.sessionStore
  | none => nullSessionStore

/-- The approval callback of the demo. -/
def autoApprove : ApprovalCallback σ :=
  fun _ _ => return .value true

/-- `str(result.output)`, unless it is `None`. -/
def FlowOutput.str (runtime : PyRuntime) : FlowOutput → String
  | .text value => value
  | .synthesis value =>
      runtime.repr <|
        .obj [
          ("summary", .str value.summary),
          ("citations", .arr (value.citations.map Json.str))]

namespace Invocation

open Cli

def ctx (invocation : Invocation σ μ) : RunContext where
  request := invocation.request
  sessionId := invocation.sessionId
  ablations :=
    { memoryOn := invocation.install.settings.memoryOn
      criticOn := invocation.install.settings.criticOn
      routerTier := invocation.install.settings.routerTier }

def models (invocation : Invocation σ μ) : Models σ :=
  invocation.install.models invocation.useTestModel

def factExtractor (invocation : Invocation σ μ) : FactExtractor σ :=
  ⟨invocation.models.extraction⟩

def single (invocation : Invocation σ μ) : SingleAgentFlow σ where
  model := invocation.models.singleAgent
  factExtractor := some invocation.factExtractor

def orchestrator (invocation : Invocation σ μ) : OrchestratorFlow σ where
  retrievalModel := invocation.models.retrieval
  synthesisModel := invocation.models.synthesis
  criticModel := invocation.models.critic
  server := invocation.install.server
  gatherOrder := invocation.install.gatherOrder
  factExtractor := some invocation.factExtractor

def loop (invocation : Invocation σ μ) : AgentLoop σ μ :=
  .harness invocation.install.host invocation.single invocation.orchestrator

/-- `HarnessServices(...)`, its arguments from left to right. -/
def buildServices (invocation : Invocation σ μ) (memory : MemoryStore μ) :
    Cli σ μ (HarnessServices σ μ) := do
  let install := invocation.install
  let budget ← raiseError (install.config.budgetFor "default")
  let start ← monotonic install.host
  let router ← outside (install.buildRouter invocation.useTestModel)
  let matrix ← raiseError install.config.permissionMatrix
  return {
    tools := install.tools
    memory := memory
    budget :=
      { budget := budget
        modelId := install.settings.modelId
        pricing := install.config.pricing
        start := start }
    router := some router
    approvalGate := some ⟨matrix, some autoApprove⟩ }

/-- What the first half of `_run` leaves for the second. -/
structure Prepared (σ μ : Type) where
  services : HarnessServices σ μ
  /-- `pgvector_store.close()`, if the store is connected. -/
  closeMemory : Option (Py σ Unit)
  sessions : Option PostgresSessionStore

/-- `_run` up to the call of `run_turn`. -/
def prepare (invocation : Invocation σ μ) : Cli σ μ (Prepared σ μ) := do
  let install := invocation.install
  outside install.setup
  let (memory, closeMemory) ← connectMemory install
  let sessions ← connectSessions install
  let ctx := invocation.ctx
  onTables
    ((sessionStoreOf sessions).ensureSession ctx.sessionId ctx.userScope
      ctx.orgScope)
  let services ← invocation.buildServices memory
  return ⟨services, closeMemory, sessions⟩

/-- The `finally` clause. -/
def closing (prepared : Prepared σ μ) : Cli σ μ Unit :=
  match prepared.closeMemory with
  | some close => outside close
  | none => pure ()

def recordOf (invocation : Invocation σ μ) (result : FlowResult) :
    RunRecord where
  sessionId := invocation.sessionId
  request := invocation.request
  output := result.output.map (FlowOutput.str invocation.install.host.runtime)
  stopReason := result.stopReason
  success := result.success

/-- `_run` after the turn has returned and the memory store is closed. -/
def recordResult (invocation : Invocation σ μ) (prepared : Prepared σ μ)
    (result : FlowResult) : Cli σ μ Unit := do
  onTables
    ((sessionStoreOf prepared.sessions).recordRun (invocation.recordOf result))
  match prepared.sessions with
  | some _ => outside invocation.install.closeSessions
  | none => pure ()

/-- `_run` after the call of `run_turn`, whatever came of it. -/
def settle (invocation : Invocation σ μ) (prepared : Prepared σ μ)
    (outcome : Except TurnExc FlowResult) : Cli σ μ Unit := do
  closing prepared
  match outcome with
  | .ok result => invocation.recordResult prepared result
  | .error exc => throw exc

/-- `_run` -/
def run (invocation : Invocation σ μ) : Cli σ μ Unit := do
  let prepared ← invocation.prepare
  let outcome ←
    attempt (runTurn invocation.loop invocation.ctx prepared.services)
  invocation.settle prepared outcome

end Invocation

/-- One invocation, whether it exits normally or with a traceback. -/
def Machine.step (machine : Machine σ μ) (invocation : Invocation σ μ) :
    Machine σ μ :=
  finalState (invocation.run.run machine)

/-- Invocations one after the other. -/
abbrev Machine.run (machine : Machine σ μ) (invocations : List (Invocation σ μ)) :
    Machine σ μ :=
  LabelledRun.run Machine.step machine invocations

theorem Machine.run_cons (machine : Machine σ μ) (invocation : Invocation σ μ)
    (rest : List (Invocation σ μ)) :
    machine.run (invocation :: rest) = (machine.step invocation).run rest :=
  rfl

end FableHarness
