import FableHarness.Flows.PostTurn
import FableHarness.Tools.ChokePoint

/-!
# The workers of a turn as tasks

`asyncio.gather` starts the three workers as tasks of their own.  A resumption
runs one task from its current await point to its next one.  When a worker
raises, the run is resumed with its exception and ends the turn; the sibling
tasks are not cancelled, and the event loop keeps resuming them.
-/

namespace FableHarness

open ExceptionState LabelledRun

variable {σ : Type}

/-! ## The retrieval agent, await by await -/

/-- Where the retrieval worker is suspended, or how it ended. -/
inductive RetrievalPhase (σ : Type) where
  | created
  | awaitingModel (behaviour : ModelRun String)
  | awaitingApproval (name : String) (arguments : Arguments)
      (next : ToolReply → ModelRun String) (resolve : Py σ Bool)
  | inServer (name : String) (arguments : Arguments)
      (next : ToolReply → ModelRun String)
  | returned (output : String)
  | raised (exc : PyExc)

/-- What a resumption of the retrieval worker leaves behind, and whether it
entered a tool of the server. -/
structure RetrievalProgress (σ : Type) where
  phase : RetrievalPhase σ
  env : σ
  entered : Bool

/-- What the tasks of one turn share. -/
structure TurnTasks (σ : Type) where
  host : Host σ
  flow : OrchestratorFlow σ
  request : String
  tools : InMemoryToolRegistry σ
  approvalGate : Option (ApprovalGate σ)

namespace TurnTasks

variable (tasks : TurnTasks σ)

def mcpCall (name : String) (arguments : Arguments) : ToolCall :=
  ⟨name, arguments, OrchestratorFlow.flowName⟩

section Hook

variable (name : String) (arguments : Arguments)
  (next : ToolReply → ModelRun String)

/-- The check of the hook is over: call the server, or raise. -/
def afterCheck (env : σ) : Except PyExc Unit → RetrievalProgress σ
  | .ok () => ⟨.inServer name arguments next, env, true⟩
  | .error exc => ⟨.raised exc, env, false⟩

def afterAnswer : EStateM.Result PyExc σ Bool → RetrievalProgress σ
  | .ok approved env =>
      afterCheck name arguments next env
        (ApprovalGate.conclude (mcpCall name arguments) .readOnly approved)
  | .error exc env => afterCheck name arguments next env (.error exc)

/-- The hook up to its await point. -/
def startHook (env : σ) : RetrievalProgress σ :=
  match tasks.approvalGate with
  | none => afterCheck name arguments next env (.ok ())
  | some gate =>
      match gate.matrix.policyFor .readOnly with
      | .autoAllow => afterCheck name arguments next env (.ok ())
      | .deny =>
          afterCheck name arguments next env
            (.error (ApprovalGate.notAllowed (mcpCall name arguments) .readOnly))
      | .requireApproval =>
          match gate.onApprovalNeeded with
          | none =>
              afterCheck name arguments next env
                (.error
                  (ApprovalGate.noApprovalGate (mcpCall name arguments)
                    .readOnly))
          | some callback =>
              match (callback (mcpCall name arguments) .readOnly).run env with
              | .ok (.value approved) env' =>
                  afterAnswer name arguments next (.ok approved env')
              | .ok (.awaitable resolve) env' =>
                  ⟨.awaitingApproval name arguments next resolve, env', false⟩
              | .error exc env' => afterAnswer name arguments next (.error exc env')

/-- What is left behind by a hook whose check starts in this way. -/
def afterStart (env : σ) : ApprovalGate.CheckStart σ → RetrievalProgress σ
  | .concluded outcome => afterCheck name arguments next env outcome
  | .answered outcome => afterAnswer name arguments next outcome
  | .suspended resolve after =>
      ⟨.awaitingApproval name arguments next resolve, after, false⟩

theorem startHook_of_starts {gate : ApprovalGate σ} {env : σ}
    {start : ApprovalGate.CheckStart σ}
    (gated : tasks.approvalGate = some gate)
    (starts : gate.Starts (mcpCall name arguments) .readOnly env start) :
    tasks.startHook name arguments next env =
      afterStart name arguments next env start := by
  unfold startHook
  cases starts with
  | allowed policy => simp only [gated, policy, afterStart]
  | denied policy => simp only [gated, policy, afterStart]
  | unasked policy absent => simp only [gated, policy, absent, afterStart]
  | failed callback exc after policy present asked =>
      simp only [gated, policy, present, asked, afterStart]
  | answered callback approved after policy present asked =>
      simp only [gated, policy, present, asked, afterStart]
  | suspended callback resolve after policy present asked =>
      simp only [gated, policy, present, asked, afterStart]

end Hook

def retrievalPrompt : String :=
  "Search for product and market context relevant to: " ++ tasks.request

/-- Run the retrieval worker to its next await point. -/
def advanceRetrieval (phase : RetrievalPhase σ) (env : σ) :
    RetrievalProgress σ :=
  match phase with
  | .created =>
      match (tasks.flow.retrievalModel tasks.retrievalPrompt).run env with
      | .ok behaviour env' => ⟨.awaitingModel behaviour, env', false⟩
      | .error exc env' => ⟨.raised exc, env', false⟩
  | .awaitingModel (.answer _ output _) =>
      ⟨.returned output, (tasks.host.elapse env).2, false⟩
  | .awaitingModel (.raises exc) => ⟨.raised exc, env, false⟩
  | .awaitingModel (.call _ name arguments next) =>
      tasks.startHook name arguments next env
  | .awaitingApproval name arguments next resolve =>
      afterAnswer name arguments next (resolve.run env)
  | .inServer name arguments next =>
      match (tasks.flow.server name arguments).run env with
      | .ok reply env' => ⟨.awaitingModel (next reply), env', false⟩
      | .error exc env' => ⟨.raised exc, env', false⟩
  | .returned output => ⟨.returned output, env, false⟩
  | .raised exc => ⟨.raised exc, env, false⟩

end TurnTasks

/-! ## The event loop of a turn -/

/-- Where `run_turn` is: it awaits `gather`, it goes on with what was gathered,
or it has returned or raised. -/
inductive RunPhase where
  | gathering
  | concluding
  | ended
deriving DecidableEq, Repr

/-- What matters of a turn: a tool was entered for a worker, and `run_turn`
returned or raised. -/
inductive TurnEvent where
  | entered (worker : Worker)
  | turnEnded
deriving DecidableEq, Repr

structure GatherLoop (σ : Type) where
  env : σ
  account : ChokePoint.Task σ
  meeting : ChokePoint.Task σ
  retrieval : RetrievalPhase σ := .created
  run : RunPhase := .gathering
  log : List TurnEvent := []

namespace GatherLoop

inductive Label (σ : Type) where
  | worker (worker : Worker)
  | run
  | outside (change : σ → σ)

/-- The task of a lookup, as `run` creates it. -/
def lookupTask (tasks : TurnTasks σ) (toolName : String) : ChokePoint.Task σ where
  call :=
    ⟨toolName, [("client", .str tasks.flow.clientKey)],
      OrchestratorFlow.flowName⟩
  grants := grantsFor tasks.approvalGate

/-- The turn at its fan-out. -/
def initial (tasks : TurnTasks σ) (env : σ) : GatherLoop σ where
  env := env
  account := lookupTask tasks "account_lookup"
  meeting := lookupTask tasks "meeting_history"

def isEntry : ChokePoint.Event σ → Bool
  | .entered _ _ => true
  | _ => false

/-- The entry that a resumption of a worker logs. -/
def entry (worker : Worker) (entered : Bool) : List TurnEvent :=
  if entered then [.entered worker] else []

/-- What a resumption of a lookup leaves behind, and whether it entered a
handler. -/
def advanceLookup (tasks : TurnTasks σ) (task : ChokePoint.Task σ) (env : σ) :
    ChokePoint.Task σ × σ × Bool :=
  let progress := ChokePoint.advance tasks.tools 0 task env
  ({ task with phase := progress.phase }, progress.env,
    progress.events.any isEntry)

def lookupRaised (task : ChokePoint.Task σ) : Bool :=
  match task.phase with
  | .raised _ => true
  | _ => false

def lookupReturned (task : ChokePoint.Task σ) : Bool :=
  match task.phase with
  | .returned _ => true
  | _ => false

def retrievalRaised : RetrievalPhase σ → Bool
  | .raised _ => true
  | _ => false

def retrievalReturned : RetrievalPhase σ → Bool
  | .returned _ => true
  | _ => false

/-- An exception is there for the awaiter of `gather`. -/
def anyRaised (loop : GatherLoop σ) : Bool :=
  lookupRaised loop.account || lookupRaised loop.meeting ||
    retrievalRaised loop.retrieval

/-- The results are there for the awaiter of `gather`. -/
def allReturned (loop : GatherLoop σ) : Bool :=
  lookupReturned loop.account && lookupReturned loop.meeting &&
    retrievalReturned loop.retrieval

/-- Resume `run_turn`.  What it does after the fan-out is one resumption here: it
runs agents without tools. -/
def resumeRun (loop : GatherLoop σ) : GatherLoop σ :=
  match loop.run with
  | .gathering =>
      if loop.anyRaised then
        { loop with run := .ended, log := loop.log ++ [.turnEnded] }
      else if loop.allReturned then
        { loop with run := .concluding }
      else
        loop
  | .concluding => { loop with run := .ended, log := loop.log ++ [.turnEnded] }
  | .ended => loop

def step (tasks : TurnTasks σ) (loop : GatherLoop σ) :
    Label σ → GatherLoop σ
  | .worker .account =>
      let (task, env, entered) := advanceLookup tasks loop.account loop.env
      { loop with
        env
        account := task
        log := loop.log ++ entry .account entered }
  | .worker .meeting =>
      let (task, env, entered) := advanceLookup tasks loop.meeting loop.env
      { loop with
        env
        meeting := task
        log := loop.log ++ entry .meeting entered }
  | .worker .retrieval =>
      let progress := tasks.advanceRetrieval loop.retrieval loop.env
      { loop with
        env := progress.env
        retrieval := progress.phase
        log := loop.log ++ entry .retrieval progress.entered }
  | .run => loop.resumeRun
  | .outside change => { loop with env := change loop.env }

end GatherLoop

end FableHarness
