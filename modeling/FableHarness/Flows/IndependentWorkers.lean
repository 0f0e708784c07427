import FableHarness.Flows.GatherRefinement
import FableHarness.Library.SharedTasks

/-!
# Interleavings of independent workers

Until the synthesis needs their results, the workers of a fan-out are meant to be
independent.  Where what they do to the outside world commutes, every schedule of
the event loop comes to the workers run one after the other, in any order.
-/

namespace FableHarness

open ExceptionState LabelledRun SharedTasks

variable {σ μ : Type}

/-- What a program tells its caller, and the state it leaves. -/
def observe {α : Type} (program : Py σ α) (env : σ) : Except PyExc α × σ :=
  (answer (program.run env), finalState (program.run env))

/-- Where a worker is suspended, or how it ended. -/
inductive WorkerPhase (σ : Type) where
  | lookup (phase : ChokePoint.Phase σ)
  | retrieval (phase : RetrievalPhase σ)

namespace WorkerPhase

/-- What the worker came to. -/
def outcome? : WorkerPhase σ → Option (Except TurnExc String)
  | .lookup (.returned result) => some (.ok (OrchestratorFlow.workerOutput result))
  | .lookup (.raised exc) => some (.error (.outside exc))
  | .retrieval (.returned output) => some (.ok output)
  | .retrieval (.raised exc) => some (.error (.outside exc))
  | _ => none

def Finished (phase : WorkerPhase σ) : Prop := phase.outcome?.isSome = true

def start : Worker → WorkerPhase σ
  | .account | .meeting => .lookup .created
  | .retrieval => .retrieval .created

end WorkerPhase

namespace TurnTasks

variable (tasks : TurnTasks σ)

def advanceTool (toolName : String) (phase : ChokePoint.Phase σ) (env : σ) :
    WorkerPhase σ × σ :=
  let progress :=
    ChokePoint.advance tasks.tools 0
      { GatherLoop.lookupTask tasks toolName with phase } env
  (.lookup progress.phase, progress.env)

/-- A resumption of a worker, as the event loop makes it. -/
def advance : Worker → WorkerPhase σ → σ → WorkerPhase σ × σ
  | .account, .lookup phase, env => tasks.advanceTool "account_lookup" phase env
  | .meeting, .lookup phase, env => tasks.advanceTool "meeting_history" phase env
  | .retrieval, .retrieval phase, env =>
      let progress := tasks.advanceRetrieval phase env
      (.retrieval progress.phase, progress.env)
  | _, phase, env => (phase, env)

theorem advance_finished {phase : WorkerPhase σ} (ended : phase.Finished)
    (worker : Worker) (env : σ) : tasks.advance worker phase env = (phase, env) := by
  cases phase with
  | lookup phase =>
      cases phase with
      | created | awaitingApproval | inHandler => cases ended
      | returned | raised => cases worker <;> rfl
  | retrieval phase =>
      cases phase with
      | created | awaitingModel | awaitingApproval | inServer => cases ended
      | returned | raised => cases worker <;> rfl

/-- The calls that a worker puts before the approval gate. -/
inductive MakesCall : Worker → ToolCall → Prop where
  | account :
      MakesCall .account (GatherLoop.lookupTask tasks "account_lookup").call
  | meeting :
      MakesCall .meeting (GatherLoop.lookupTask tasks "meeting_history").call
  | retrieval (name : String) (arguments : Arguments) :
      MakesCall .retrieval (mcpCall name arguments)

/-- What each worker makes outside code do is its own, and what different workers
own commutes. -/
structure IndependentWorkers
    (owned : Worker → ∀ {α : Type}, (σ → α × σ) → Prop) : Prop where
  commute :
    ∀ {first second}, first ≠ second →
      ∀ {α β : Type} {action : σ → α × σ} {other : σ → β × σ},
        owned first action → owned second other → Commute action other
  handler :
    ∀ {worker call}, tasks.MakesCall worker call → worker ≠ .retrieval →
      ∀ spec, tasks.tools.tools.get? call.toolName = some spec →
        owned worker (observe (spec.handler.body call.arguments))
  callback :
    ∀ {worker call}, tasks.MakesCall worker call →
      ∀ callback,
        (grantsFor tasks.approvalGate).gate.onApprovalNeeded = some callback →
          ∀ tier, owned worker (observe (callback call tier))
  resolve :
    ∀ {worker call}, tasks.MakesCall worker call →
      ∀ callback,
        (grantsFor tasks.approvalGate).gate.onApprovalNeeded = some callback →
          ∀ tier env resolve after,
            (callback call tier).run env = .ok (.awaitable resolve) after →
              owned worker (observe resolve)
  model : owned .retrieval (observe (tasks.flow.retrievalModel tasks.retrievalPrompt))
  server :
    ∀ name arguments, owned .retrieval (observe (tasks.flow.server name arguments))
  clock : owned .retrieval tasks.host.elapse

/-! ## What a resumption does -/

/-- A resumption makes outside code do one thing that its worker owns, or
nothing. -/
inductive Resumes (owned : Worker → ∀ {α : Type}, (σ → α × σ) → Prop)
    (worker : Worker) {β : Type} (action : σ → β × σ) : Prop where
  | still (acts : ActsAs action SharedTasks.still)
  | own {α : Type} {core : σ → α × σ} (owns : owned worker core)
      (acts : ActsAs action core)

theorem actsAs_observe {α β : Type} {program : Py σ α}
    (phaseOf : Except PyExc α → β) :
    ActsAs (fun env => (phaseOf (observe program env).1, (observe program env).2))
      (observe program) where
  sameEnv _ := rfl
  determined _ _ same := congrArg phaseOf same

/-- The phases of a lookup in which what it goes on to do is its own. -/
def KeepsLookup (owned : Worker → ∀ {α : Type}, (σ → α × σ) → Prop)
    (worker : Worker) (call : ToolCall) : ChokePoint.Phase σ → Prop
  | .awaitingApproval spec resolve =>
      owned worker (observe resolve) ∧
        owned worker (observe (spec.handler.body call.arguments))
  | .inHandler spec => owned worker (observe (spec.handler.body call.arguments))
  | _ => True

def KeepsRetrieval (owned : Worker → ∀ {α : Type}, (σ → α × σ) → Prop) :
    RetrievalPhase σ → Prop
  | .awaitingApproval _ _ _ resolve => owned .retrieval (observe resolve)
  | _ => True

section Lookup

variable {owned : Worker → ∀ {α : Type}, (σ → α × σ) → Prop} {worker : Worker}
  {task : ChokePoint.Task σ} {spec : ToolSpec σ}

theorem env_afterCheck (env : σ) (outcome : Except PyExc Unit) :
    (ChokePoint.afterCheck 0 task spec env outcome).env = env := by
  cases outcome with
  | ok passed =>
      unfold ChokePoint.afterCheck
      cases spec.handler.bindError task.call.arguments <;> rfl
  | error exc => cases exc <;> rfl

theorem phase_afterCheck (env other : σ) (outcome : Except PyExc Unit) :
    (ChokePoint.afterCheck 0 task spec env outcome).phase =
      (ChokePoint.afterCheck 0 task spec other outcome).phase := by
  cases outcome with
  | ok passed =>
      unfold ChokePoint.afterCheck
      cases spec.handler.bindError task.call.arguments <;> rfl
  | error exc => cases exc <;> rfl

theorem keeps_afterCheck (env : σ) (outcome : Except PyExc Unit)
    (handler : owned worker (observe (spec.handler.body task.call.arguments))) :
    KeepsLookup owned worker task.call
      (ChokePoint.afterCheck 0 task spec env outcome).phase := by
  cases outcome with
  | ok passed =>
      unfold ChokePoint.afterCheck
      cases spec.handler.bindError task.call.arguments with
      | none => exact handler
      | some message => trivial
  | error exc => cases exc <;> trivial

theorem keeps_afterAnswer (outcome : EStateM.Result PyExc σ Bool)
    (handler : owned worker (observe (spec.handler.body task.call.arguments))) :
    KeepsLookup owned worker task.call
      (ChokePoint.afterAnswer 0 task spec outcome).phase := by
  cases outcome with
  | ok approved env => exact keeps_afterCheck env _ handler
  | error exc env => exact keeps_afterCheck env _ handler

theorem actsAs_afterCheck (outcome : Except PyExc Unit) :
    ActsAs
      (fun env =>
        let progress := ChokePoint.afterCheck 0 task spec env outcome
        ((.lookup progress.phase : WorkerPhase σ), progress.env))
      SharedTasks.still where
  sameEnv env := env_afterCheck env outcome
  determined env other _ :=
    congrArg WorkerPhase.lookup (phase_afterCheck env other outcome)

theorem env_afterAnswer (outcome : EStateM.Result PyExc σ Bool) :
    (ChokePoint.afterAnswer 0 task spec outcome).env = finalState outcome := by
  cases outcome with
  | ok approved env => exact env_afterCheck env _
  | error exc env => exact env_afterCheck env _

theorem phase_afterAnswer {outcome other : EStateM.Result PyExc σ Bool}
    (same : answer outcome = answer other) :
    (ChokePoint.afterAnswer 0 task spec outcome).phase =
      (ChokePoint.afterAnswer 0 task spec other).phase := by
  cases outcome <;> cases other <;> cases same <;> exact phase_afterCheck _ _ _

theorem actsAs_afterAnswer (resolve : Py σ Bool) :
    ActsAs
      (fun env =>
        let progress := ChokePoint.afterAnswer 0 task spec (resolve.run env)
        ((.lookup progress.phase : WorkerPhase σ), progress.env))
      (observe resolve) where
  sameEnv env := env_afterAnswer (resolve.run env)
  determined _ _ same := congrArg WorkerPhase.lookup (phase_afterAnswer same)

/-- A check whose callback has been asked. -/
def afterAsked (task : ChokePoint.Task σ) (spec : ToolSpec σ) :
    EStateM.Result PyExc σ (CallbackResult σ) → ChokePoint.Progress σ
  | .ok (.value approved) env =>
      ChokePoint.afterAnswer 0 task spec (.ok approved env)
  | .ok (.awaitable resolve) env => ⟨.awaitingApproval spec resolve, env, []⟩
  | .error exc env => ChokePoint.afterAnswer 0 task spec (.error exc env)

/-- A check asks the callback, or is over. -/
theorem startCheck_cases (task : ChokePoint.Task σ) (spec : ToolSpec σ) :
    (∃ outcome, ∀ env,
        ChokePoint.startCheck 0 task spec env =
          ChokePoint.afterCheck 0 task spec env outcome) ∨
      ∃ callback,
        task.grants.gate.onApprovalNeeded = some callback ∧
          ∀ env,
            ChokePoint.startCheck 0 task spec env =
              afterAsked task spec ((callback task.call spec.riskTier).run env) := by
  unfold ChokePoint.startCheck
  cases task.grants.gate.matrix.policyFor spec.riskTier with
  | autoAllow => exact Or.inl ⟨_, fun _ => rfl⟩
  | deny => exact Or.inl ⟨_, fun _ => rfl⟩
  | requireApproval =>
      cases task.grants.gate.onApprovalNeeded with
      | none => exact Or.inl ⟨_, fun _ => rfl⟩
      | some callback =>
          refine Or.inr ⟨callback, rfl, fun env => ?_⟩
          dsimp only
          cases (callback task.call spec.riskTier).run env with
          | ok result after => cases result <;> rfl
          | error exc after => rfl

theorem env_afterAsked (asked : EStateM.Result PyExc σ (CallbackResult σ)) :
    (afterAsked task spec asked).env = finalState asked := by
  cases asked with
  | ok result env =>
      cases result with
      | value approved => exact env_afterAnswer (.ok approved env)
      | awaitable resolve => rfl
  | error exc env => exact env_afterAnswer (.error exc env)

theorem phase_afterAsked {asked other : EStateM.Result PyExc σ (CallbackResult σ)}
    (same : answer asked = answer other) :
    (afterAsked task spec asked).phase = (afterAsked task spec other).phase := by
  cases asked with
  | ok result env =>
      cases other with
      | ok other after =>
          cases same
          cases result with
          | value approved => exact phase_afterAnswer rfl
          | awaitable resolve => rfl
      | error exc after => cases same
  | error exc env =>
      cases other with
      | ok other after => cases same
      | error other after =>
          cases same
          exact phase_afterAnswer rfl

def handlerPhase (spec : ToolSpec σ) : Except PyExc String → WorkerPhase σ
  | .ok output => .lookup (.returned (InMemoryToolRegistry.succeeded spec output))
  | .error exc => .lookup (.returned (InMemoryToolRegistry.failed spec exc.message))

/-- The first resumption of a lookup asks the callback, if it does anything. -/
theorem resumes_startCheck
    (asks :
      ∀ callback, task.grants.gate.onApprovalNeeded = some callback →
        owned worker (observe (callback task.call spec.riskTier))) :
    Resumes owned worker fun env =>
      let progress := ChokePoint.startCheck 0 task spec env
      ((.lookup progress.phase : WorkerPhase σ), progress.env) := by
  rcases startCheck_cases task spec with ⟨outcome, settled⟩ | ⟨callback, present, asked⟩
  · simp only [settled]
    exact .still (actsAs_afterCheck outcome)
  · simp only [asked]
    refine .own (asks callback present) ⟨?_, ?_⟩
    · exact fun env => env_afterAsked _
    · exact fun env other same => congrArg WorkerPhase.lookup (phase_afterAsked same)

theorem keeps_startCheck (env : σ)
    (handler : owned worker (observe (spec.handler.body task.call.arguments)))
    (resolves :
      ∀ callback, task.grants.gate.onApprovalNeeded = some callback →
        ∀ env resolve after,
          (callback task.call spec.riskTier).run env =
              .ok (.awaitable resolve) after →
            owned worker (observe resolve)) :
    KeepsLookup owned worker task.call
      (ChokePoint.startCheck 0 task spec env).phase := by
  rcases startCheck_cases task spec with ⟨outcome, settled⟩ | ⟨callback, present, asked⟩
  · rw [settled]
    exact keeps_afterCheck env outcome handler
  · rw [asked]
    cases called : (callback task.call spec.riskTier).run env with
    | ok result after =>
        cases result with
        | value approved => exact keeps_afterAnswer (.ok approved after) handler
        | awaitable resolve =>
            exact ⟨resolves callback present env resolve after called, handler⟩
    | error exc after => exact keeps_afterAnswer (.error exc after) handler

end Lookup

section Retrieval

variable {owned : Worker → ∀ {α : Type}, (σ → α × σ) → Prop} {name : String}
  {arguments : Arguments} {next : ToolReply → ModelRun String}

theorem env_afterHookCheck (env : σ) (outcome : Except PyExc Unit) :
    (afterCheck name arguments next env outcome).env = env := by
  cases outcome <;> rfl

theorem phase_afterHookCheck (env other : σ) (outcome : Except PyExc Unit) :
    (afterCheck name arguments next env outcome).phase =
      (afterCheck name arguments next other outcome).phase := by
  cases outcome <;> rfl

theorem env_afterHookAnswer (name : String) (arguments : Arguments)
    (next : ToolReply → ModelRun String) (outcome : EStateM.Result PyExc σ Bool) :
    (afterAnswer name arguments next outcome).env = finalState outcome := by
  cases outcome with
  | ok approved env => exact env_afterHookCheck env _
  | error exc env => exact env_afterHookCheck env _

theorem phase_afterHookAnswer {outcome other : EStateM.Result PyExc σ Bool}
    (same : answer outcome = answer other) :
    (afterAnswer name arguments next outcome).phase =
      (afterAnswer name arguments next other).phase := by
  cases outcome <;> cases other <;> cases same <;> exact phase_afterHookCheck _ _ _

theorem keeps_afterHookCheck (env : σ) (outcome : Except PyExc Unit) :
    KeepsRetrieval owned (afterCheck name arguments next env outcome).phase := by
  cases outcome <;> trivial

theorem keeps_afterHookAnswer (name : String) (arguments : Arguments)
    (next : ToolReply → ModelRun String) (outcome : EStateM.Result PyExc σ Bool) :
    KeepsRetrieval owned (afterAnswer name arguments next outcome).phase := by
  cases outcome with
  | ok approved env => exact keeps_afterHookCheck env _
  | error exc env => exact keeps_afterHookCheck env _

/-- A hook whose callback has been asked. -/
def afterHookAsked (name : String) (arguments : Arguments)
    (next : ToolReply → ModelRun String) :
    EStateM.Result PyExc σ (CallbackResult σ) → RetrievalProgress σ
  | .ok (.value approved) env => afterAnswer name arguments next (.ok approved env)
  | .ok (.awaitable resolve) env =>
      ⟨.awaitingApproval name arguments next resolve, env, false⟩
  | .error exc env => afterAnswer name arguments next (.error exc env)

theorem env_afterHookAsked (asked : EStateM.Result PyExc σ (CallbackResult σ)) :
    (afterHookAsked name arguments next asked).env = finalState asked := by
  cases asked with
  | ok result env =>
      cases result with
      | value approved => exact env_afterHookAnswer _ _ _ (.ok approved env)
      | awaitable resolve => rfl
  | error exc env => exact env_afterHookAnswer name arguments next (.error exc env)

theorem phase_afterHookAsked
    {asked other : EStateM.Result PyExc σ (CallbackResult σ)}
    (same : answer asked = answer other) :
    (afterHookAsked name arguments next asked).phase =
      (afterHookAsked name arguments next other).phase := by
  cases asked with
  | ok result env =>
      cases other with
      | ok other after =>
          cases same
          cases result with
          | value approved => exact phase_afterHookAnswer rfl
          | awaitable resolve => rfl
      | error exc after => cases same
  | error exc env =>
      cases other with
      | ok other after => cases same
      | error other after =>
          cases same
          exact phase_afterHookAnswer rfl

def modelPhase : Except PyExc (ModelRun String) → WorkerPhase σ
  | .ok behaviour => .retrieval (.awaitingModel behaviour)
  | .error exc => .retrieval (.raised exc)

def serverPhase (next : ToolReply → ModelRun String) :
    Except PyExc ToolReply → WorkerPhase σ
  | .ok reply => .retrieval (.awaitingModel (next reply))
  | .error exc => .retrieval (.raised exc)

/-- A hook asks the callback, or its check is over. -/
theorem startHook_cases (name : String) (arguments : Arguments)
    (next : ToolReply → ModelRun String) :
    (∃ outcome, ∀ env,
        tasks.startHook name arguments next env =
          afterCheck name arguments next env outcome) ∨
      ∃ callback,
        (grantsFor tasks.approvalGate).gate.onApprovalNeeded = some callback ∧
          ∀ env,
            tasks.startHook name arguments next env =
              afterHookAsked name arguments next
                ((callback (mcpCall name arguments) .readOnly).run env) := by
  unfold startHook
  cases tasks.approvalGate with
  | none => exact Or.inl ⟨_, fun _ => rfl⟩
  | some gate =>
      show (∃ outcome, _) ∨ ∃ callback, gate.onApprovalNeeded = some callback ∧ _
      dsimp only
      cases gate.matrix.policyFor .readOnly with
      | autoAllow => exact Or.inl ⟨_, fun _ => rfl⟩
      | deny => exact Or.inl ⟨_, fun _ => rfl⟩
      | requireApproval =>
          cases gate.onApprovalNeeded with
          | none => exact Or.inl ⟨_, fun _ => rfl⟩
          | some callback =>
              refine Or.inr ⟨callback, rfl, fun env => ?_⟩
              dsimp only
              cases (callback (mcpCall name arguments) .readOnly).run env with
              | ok result after => cases result <;> rfl
              | error exc after => rfl

end Retrieval

section Advance

variable {tasks} {owned : Worker → ∀ {α : Type}, (σ → α × σ) → Prop}
  (independent : tasks.IndependentWorkers owned)
include independent

theorem resumes_advanceTool {worker : Worker} {toolName : String}
    (calls : tasks.MakesCall worker (GatherLoop.lookupTask tasks toolName).call)
    {phase : ChokePoint.Phase σ}
    (keeps :
      KeepsLookup owned worker (GatherLoop.lookupTask tasks toolName).call phase) :
    Resumes owned worker (tasks.advanceTool toolName phase) := by
  let task : ChokePoint.Task σ :=
    { GatherLoop.lookupTask tasks toolName with phase }
  cases phase with
  | created =>
      cases found : tasks.tools.tools.get? toolName with
      | none =>
          refine .still ⟨fun env => ?_, fun env other _ => ?_⟩
          · simp only [advanceTool, ChokePoint.advance, GatherLoop.lookupTask, found,
              SharedTasks.still]
          · simp only [advanceTool, ChokePoint.advance, GatherLoop.lookupTask, found]
      | some spec =>
          have started :
              tasks.advanceTool toolName .created =
                fun env =>
                  let progress := ChokePoint.startCheck 0 task spec env
                  ((.lookup progress.phase : WorkerPhase σ), progress.env) := by
            funext env
            simp only [advanceTool, ChokePoint.advance, GatherLoop.lookupTask, found]
            rfl
          rw [started]
          apply resumes_startCheck
          exact fun callback present => independent.callback calls callback present _
  | awaitingApproval spec resolve =>
      have acts :
          ActsAs
            (fun env =>
              let progress := ChokePoint.afterAnswer 0 task spec (resolve.run env)
              ((.lookup progress.phase : WorkerPhase σ), progress.env))
            (observe resolve) :=
        actsAs_afterAnswer resolve
      exact .own keeps.1 acts
  | inHandler spec =>
      let body := spec.handler.body task.call.arguments
      have ran :
          tasks.advanceTool toolName (.inHandler spec) = fun env =>
            (handlerPhase spec (observe body env).1, (observe body env).2) := by
        funext env
        simp only [advanceTool, ChokePoint.advance, observe, body, task]
        cases
            (spec.handler.body
              (GatherLoop.lookupTask tasks toolName).call.arguments).run env <;>
          rfl
      rw [ran]
      exact .own keeps (actsAs_observe (handlerPhase spec))
  | returned result => exact .still ⟨fun _ => rfl, fun _ _ _ => rfl⟩
  | raised exc => exact .still ⟨fun _ => rfl, fun _ _ _ => rfl⟩

theorem keepsLookup_advance {worker : Worker} {toolName : String}
    (calls : tasks.MakesCall worker (GatherLoop.lookupTask tasks toolName).call)
    (isLookup : worker ≠ .retrieval) {phase : ChokePoint.Phase σ}
    (keeps :
      KeepsLookup owned worker (GatherLoop.lookupTask tasks toolName).call phase)
    (env : σ) :
    KeepsLookup owned worker (GatherLoop.lookupTask tasks toolName).call
      (ChokePoint.advance tasks.tools 0
        { GatherLoop.lookupTask tasks toolName with phase } env).phase := by
  unfold ChokePoint.advance
  cases phase with
  | created =>
      cases found :
          tasks.tools.tools.get?
            (GatherLoop.lookupTask tasks toolName).call.toolName with
      | none => trivial
      | some spec =>
          have handler := independent.handler calls isLookup spec found
          let task : ChokePoint.Task σ :=
            { GatherLoop.lookupTask tasks toolName with phase := .created }
          show
            KeepsLookup owned worker task.call
              (ChokePoint.startCheck 0 task spec env).phase
          apply keeps_startCheck env handler
          exact fun callback present env resolve after =>
            independent.resolve calls callback present _ env resolve after
  | awaitingApproval spec resolve =>
      let task : ChokePoint.Task σ :=
        { GatherLoop.lookupTask tasks toolName with
          phase := .awaitingApproval spec resolve }
      show
        KeepsLookup owned worker task.call
          (ChokePoint.afterAnswer 0 task spec (resolve.run env)).phase
      exact keeps_afterAnswer (resolve.run env) keeps.2
  | inHandler spec =>
      dsimp only
      cases
          (spec.handler.body
            (GatherLoop.lookupTask tasks toolName).call.arguments).run env <;>
        trivial
  | returned result => trivial
  | raised exc => trivial

theorem resumes_advanceRetrieval {phase : RetrievalPhase σ}
    (keeps : KeepsRetrieval owned phase) :
    Resumes owned .retrieval (tasks.advance .retrieval (.retrieval phase)) := by
  cases phase with
  | created =>
      have ran :
          tasks.advance .retrieval (.retrieval .created) = fun env =>
            (modelPhase
                (observe (tasks.flow.retrievalModel tasks.retrievalPrompt) env).1,
              (observe (tasks.flow.retrievalModel tasks.retrievalPrompt) env).2) := by
        funext env
        simp only [advance, advanceRetrieval, observe]
        cases (tasks.flow.retrievalModel tasks.retrievalPrompt).run env <;> rfl
      rw [ran]
      exact .own independent.model (actsAs_observe modelPhase)
  | awaitingModel behaviour =>
      cases behaviour with
      | answer response output messages =>
          exact .own independent.clock ⟨fun _ => rfl, fun _ _ _ => rfl⟩
      | raises exc => exact .still ⟨fun _ => rfl, fun _ _ _ => rfl⟩
      | call response name arguments next =>
          rcases tasks.startHook_cases name arguments next with
            ⟨outcome, settled⟩ | ⟨callback, present, asked⟩
          · refine .still ⟨fun env => ?_, fun env other _ => ?_⟩
            · simp only [advance, advanceRetrieval, settled]
              exact env_afterHookCheck env outcome
            · simp only [advance, advanceRetrieval, settled]
              exact congrArg WorkerPhase.retrieval (phase_afterHookCheck env other _)
          · refine
              .own
                (independent.callback (.retrieval name arguments) callback present
                  .readOnly)
                ⟨fun env => ?_, fun env other same => ?_⟩
            · simp only [advance, advanceRetrieval, asked]
              exact env_afterHookAsked _
            · simp only [advance, advanceRetrieval, asked]
              exact congrArg WorkerPhase.retrieval (phase_afterHookAsked same)
  | awaitingApproval name arguments next resolve =>
      refine .own keeps ⟨fun env => ?_, fun env other same => ?_⟩
      · exact env_afterHookAnswer name arguments next (resolve.run env)
      · exact congrArg WorkerPhase.retrieval (phase_afterHookAnswer same)
  | inServer name arguments next =>
      have ran :
          tasks.advance .retrieval (.retrieval (.inServer name arguments next)) =
            fun env =>
              (serverPhase next (observe (tasks.flow.server name arguments) env).1,
                (observe (tasks.flow.server name arguments) env).2) := by
        funext env
        simp only [advance, advanceRetrieval, observe]
        cases (tasks.flow.server name arguments).run env <;> rfl
      rw [ran]
      exact .own (independent.server name arguments) (actsAs_observe (serverPhase next))
  | returned output => exact .still ⟨fun _ => rfl, fun _ _ _ => rfl⟩
  | raised exc => exact .still ⟨fun _ => rfl, fun _ _ _ => rfl⟩

theorem keepsRetrieval_advance (phase : RetrievalPhase σ) (env : σ) :
    KeepsRetrieval owned (tasks.advanceRetrieval phase env).phase := by
  cases phase with
  | created =>
      simp only [advanceRetrieval]
      cases (tasks.flow.retrievalModel tasks.retrievalPrompt).run env <;> trivial
  | awaitingModel behaviour =>
      cases behaviour with
      | answer | raises => trivial
      | call response name arguments next =>
          show KeepsRetrieval owned (tasks.startHook name arguments next env).phase
          rcases tasks.startHook_cases name arguments next with
            ⟨outcome, settled⟩ | ⟨callback, present, asked⟩
          · rw [settled]
            exact keeps_afterHookCheck env outcome
          · rw [asked]
            cases called : (callback (mcpCall name arguments) .readOnly).run env with
            | ok result after =>
                cases result with
                | value approved => exact keeps_afterHookAnswer _ _ _ (.ok approved after)
                | awaitable resolve =>
                    exact
                      independent.resolve (.retrieval name arguments) callback present
                        _ env resolve after called
            | error exc after =>
                exact keeps_afterHookAnswer name arguments next (.error exc after)
  | awaitingApproval name arguments next resolve =>
      exact keeps_afterHookAnswer name arguments next (resolve.run env)
  | inServer name arguments next =>
      simp only [advanceRetrieval]
      cases (tasks.flow.server name arguments).run env <;> trivial
  | returned | raised => trivial

end Advance

/-- The phases of a worker in which what it goes on to do is its own. -/
def Keeps (owned : Worker → ∀ {α : Type}, (σ → α × σ) → Prop) :
    Worker → WorkerPhase σ → Prop
  | .account, .lookup phase =>
      KeepsLookup owned .account (GatherLoop.lookupTask tasks "account_lookup").call
        phase
  | .meeting, .lookup phase =>
      KeepsLookup owned .meeting (GatherLoop.lookupTask tasks "meeting_history").call
        phase
  | .retrieval, .retrieval phase => KeepsRetrieval owned phase
  | _, _ => True

section Tasks

variable {tasks} {owned : Worker → ∀ {α : Type}, (σ → α × σ) → Prop}
  (independent : tasks.IndependentWorkers owned)
include independent

theorem resumes_advance {worker : Worker} {phase : WorkerPhase σ}
    (keeps : tasks.Keeps owned worker phase) :
    Resumes owned worker (tasks.advance worker phase) := by
  cases worker with
  | account =>
      cases phase with
      | lookup phase => exact resumes_advanceTool independent .account keeps
      | retrieval phase => exact .still ⟨fun _ => rfl, fun _ _ _ => rfl⟩
  | meeting =>
      cases phase with
      | lookup phase => exact resumes_advanceTool independent .meeting keeps
      | retrieval phase => exact .still ⟨fun _ => rfl, fun _ _ _ => rfl⟩
  | retrieval =>
      cases phase with
      | lookup phase => exact .still ⟨fun _ => rfl, fun _ _ _ => rfl⟩
      | retrieval phase => exact resumes_advanceRetrieval independent keeps

/-- The workers of the fan-out are independent tasks of the event loop. -/
theorem independent_advance : Independent tasks.advance (tasks.Keeps owned) where
  keeps {worker phase} keeps env := by
    cases worker with
    | account =>
        cases phase with
        | lookup phase =>
            exact keepsLookup_advance independent .account (by decide) keeps env
        | retrieval phase => trivial
    | meeting =>
        cases phase with
        | lookup phase =>
            exact keepsLookup_advance independent .meeting (by decide) keeps env
        | retrieval phase => trivial
    | retrieval =>
        cases phase with
        | lookup phase => trivial
        | retrieval phase => exact keepsRetrieval_advance independent phase env
  commute {first second} different phase other keeps otherKeeps := by
    cases resumes_advance independent keeps with
    | still acts =>
        cases resumes_advance independent otherKeeps with
        | still otherActs => exact (commute_still still).of_actsAs acts otherActs
        | own owns otherActs =>
            exact (commute_still _).symm.of_actsAs acts otherActs
    | own owns acts =>
        cases resumes_advance independent otherKeeps with
        | still otherActs => exact (commute_still _).of_actsAs acts otherActs
        | own otherOwns otherActs =>
            exact
              (independent.commute different owns otherOwns).of_actsAs acts otherActs

end Tasks

/-- A lookup that nothing interrupts. -/
theorem drive_advanceTool {worker : Worker} {toolName : String}
    (advances :
      ∀ phase env,
        tasks.advance worker (.lookup phase) env =
          tasks.advanceTool toolName phase env)
    (count : Nat) (phase : ChokePoint.Phase σ) (env : σ) :
    let call := (GatherLoop.lookupTask tasks toolName).call
    let driven :=
      ChokePoint.drive tasks.tools 0 call (grantsFor tasks.approvalGate) count phase
        env
    drive (tasks.advance worker) count (.lookup phase) env =
      (.lookup driven.1, driven.2) := by
  induction count generalizing phase env with
  | zero => rfl
  | succ count inductionHypothesis =>
      simp only [drive, advances, ChokePoint.drive]
      exact inductionHypothesis _ _

theorem drive_advanceRetrieval (count : Nat) (phase : RetrievalPhase σ) (env : σ) :
    drive (tasks.advance .retrieval) count (.retrieval phase) env =
      (.retrieval (GatherLoop.driveRetrieval tasks count phase env).1,
        (GatherLoop.driveRetrieval tasks count phase env).2) := by
  induction count generalizing phase env with
  | zero => rfl
  | succ count inductionHypothesis => exact inductionHypothesis _ _

end TurnTasks

namespace Turn

variable {services : HarnessServices σ μ} {call : ToolCall}
  {grants : PermissionGrants σ} {world : World σ μ} {env : σ}

theorem run_execute_of_ok {served : Verdict × ToolResult}
    (outcome :
      (services.tools.executeObserved call grants).run world.env = .ok served env) :
    ∃ trace,
      (execute services call grants).run world =
        .ok served { world with env, trace } := by
  unfold execute
  rw [EStateM.run_bind, run_outside, outcome]
  obtain ⟨verdict, result⟩ := served
  dsimp only
  by_cases denied : verdict = .denied
  · rw [if_pos denied]
    exact ⟨_, rfl⟩
  · rw [if_neg denied]
    exact ⟨world.trace, rfl⟩

theorem run_execute_of_error {exc : PyExc}
    (outcome :
      (services.tools.executeObserved call grants).run world.env = .error exc env) :
    (execute services call grants).run world =
      .error (.outside exc) { world with env } := by
  unfold execute
  rw [EStateM.run_bind, run_outside, outcome]

end Turn

namespace OrchestratorFlow

/-- The fan-out of a turn. -/
def tasks (host : Host σ) (flow : OrchestratorFlow σ)
    (services : HarnessServices σ μ) (request : String) : TurnTasks σ where
  host := host
  flow := flow
  request := request
  tools := services.tools
  approvalGate := services.approvalGate

section Sequential

variable {host : Host σ} {flow : OrchestratorFlow σ}
  {services : HarnessServices σ μ} {request : String}

/-- What `_worker` makes of the result of `execute`. -/
theorem toolWorker_ends (toolName : String) (world : World σ μ) :
    let task := GatherLoop.lookupTask (tasks host flow services request) toolName
    let ended :=
      ChokePoint.ending
        ((services.tools.execute task.call task.grants).run world.env)
    let ran :=
      (toolWorker flow services (grantsFor services.approvalGate) toolName).run world
    (WorkerPhase.lookup ended.1).outcome? = some (answer ran) ∧
      (finalState ran).env = ended.2 := by
  intro task ended ran
  have executed :
      services.tools.execute task.call task.grants =
        Prod.snd <$> services.tools.executeObserved task.call task.grants :=
    rfl
  have worked :
      ran =
        (Turn.execute services task.call task.grants >>= fun served =>
          (pure (workerOutput served.2) : Turn σ μ String)).run world :=
    rfl
  rw [EStateM.run_bind] at worked
  cases outcome :
      (services.tools.executeObserved task.call task.grants).run world.env with
  | ok served env =>
      have ends : ended = (.returned served.2, env) := by
        show ChokePoint.ending _ = _
        rw [executed, run_map, outcome]
        rfl
      obtain ⟨trace, serves⟩ := Turn.run_execute_of_ok outcome
      rw [serves] at worked
      rw [ends, worked]
      exact ⟨rfl, rfl⟩
  | error exc env =>
      have ends : ended = (.raised exc, env) := by
        show ChokePoint.ending _ = _
        rw [executed, run_map, outcome]
        rfl
      rw [Turn.run_execute_of_error outcome] at worked
      rw [ends, worked]
      exact ⟨rfl, rfl⟩

/-- Resumed alone until it has finished, a worker comes to what the sequential one
returns or raises. -/
theorem work_ends (host : Host σ) (flow : OrchestratorFlow σ)
    (services : HarnessServices σ μ) (request : String) (worker : Worker)
    (world : World σ μ) :
    let ran :=
      (work host flow services (grantsFor services.approvalGate) request worker).run
        world
    ∃ count,
      let driven :=
        drive ((tasks host flow services request).advance worker) count
          (WorkerPhase.start worker) world.env
      driven.1.outcome? = some (answer ran) ∧ (finalState ran).env = driven.2 := by
  cases worker with
  | account =>
      refine ⟨3, ?_⟩
      rw [WorkerPhase.start, TurnTasks.drive_advanceTool _ (fun _ _ => rfl),
        ChokePoint.drive_execute]
      exact toolWorker_ends "account_lookup" world
  | meeting =>
      refine ⟨3, ?_⟩
      rw [WorkerPhase.start, TurnTasks.drive_advanceTool _ (fun _ _ => rfl),
        ChokePoint.drive_execute]
      exact toolWorker_ends "meeting_history" world
  | retrieval =>
      obtain ⟨count, ends⟩ :=
        GatherLoop.drive_refines (tasks host flow services request)
          (rfl : services.approvalGate = _) world
      refine ⟨count, ?_⟩
      rw [WorkerPhase.start, TurnTasks.drive_advanceRetrieval]
      show (WorkerPhase.retrieval _).outcome? = some (answer
          ((retrievalWorker host flow services request).run world)) ∧ _
      show _ ∧ (finalState ((retrievalWorker host flow services request).run
          world)).env = _
      generalize
        GatherLoop.driveRetrieval (tasks host flow services request) count .created
          world.env = driven at ends ⊢
      generalize ranEq :
        (retrievalWorker host flow services request).run world = ran
      have ended : GatherLoop.EndsAs ran driven := by
        rw [← ranEq]
        exact ends
      cases ended with
      | returned output after => exact ⟨rfl, rfl⟩
      | raised exc after => exact ⟨rfl, rfl⟩

/-- What the workers of a list come to one by one, as tasks and in sequence. -/
theorem runWorkers_of_oneByOne {order : List Worker} {env after : σ}
    {ended : List (Worker × WorkerPhase σ)} {world : World σ μ}
    (ran :
      OneByOne (tasks host flow services request).advance WorkerPhase.Finished
        WorkerPhase.start order env ended after)
    (same : world.env = env) :
    ∃ outcomes final,
      (runWorkers
          (work host flow services (grantsFor services.approvalGate) request)
          order).run world = .ok outcomes final ∧
        final.env = after ∧
        outcomes.map (fun outcome => (outcome.1, some outcome.2)) =
          ended.map fun phase => (phase.1, phase.2.outcome?) := by
  induction ran generalizing world with
  | nil env => exact ⟨[], world, rfl, same, rfl⟩
  | @cons worker rest env middle after phase ended count ran finished _
      inductionHypothesis =>
      subst same
      obtain ⟨other, answers, leaves⟩ :=
        work_ends host flow services request worker world
      have unique :
          drive ((tasks host flow services request).advance worker) other
              (WorkerPhase.start worker) world.env = (phase, middle) := by
        rw [← ran]
        have stays :
            ∀ {phase : WorkerPhase σ}, phase.Finished →
              ∀ env,
                (tasks host flow services request).advance worker phase env =
                  (phase, env) :=
          fun ended env => TurnTasks.advance_finished _ ended worker env
        apply drive_unique stays
        · rw [WorkerPhase.Finished, answers]
          rfl
        · rw [ran]
          exact finished
      rw [unique] at answers leaves
      let worked :=
        (work host flow services (grantsFor services.approvalGate) request
          worker).run world
      obtain ⟨outcomes, final, later, sameEnv, agree⟩ :=
        inductionHypothesis (leaves : (finalState worked).env = middle)
      refine ⟨(worker, answer worked) :: outcomes, final, ?_, sameEnv, ?_⟩
      · unfold runWorkers
        rw [EStateM.run_bind, run_attempt]
        dsimp only
        rw [EStateM.run_bind, later]
        rfl
      · rw [List.map_cons, List.map_cons, agree, answers]

end Sequential

end OrchestratorFlow

namespace GatherLoop

/-- The workers of the event loop and what they share. -/
def workers (loop : GatherLoop σ) : SharedTasks.State Worker (WorkerPhase σ) σ where
  env := loop.env
  phases
    | .account => .lookup loop.account.phase
    | .meeting => .lookup loop.meeting.phase
    | .retrieval => .retrieval loop.retrieval

/-- What a worker came to. -/
def outcome? (loop : GatherLoop σ) (worker : Worker) :
    Option (Except TurnExc String) :=
  (loop.workers.phases worker).outcome?

def Label.worker? : Label σ → Option Worker
  | .worker resumed => some resumed
  | _ => none

/-- Nothing but the turn itself runs. -/
def Label.Inside : Label σ → Prop
  | .outside _ => False
  | _ => True

/-- The task is the lookup of this tool, in some phase. -/
structure LooksUp (tasks : TurnTasks σ) (toolName : String)
    (task : ChokePoint.Task σ) : Prop where
  call : task.call = (lookupTask tasks toolName).call
  grants : task.grants = (lookupTask tasks toolName).grants

theorem LooksUp.advance {tasks : TurnTasks σ} {toolName : String}
    {task : ChokePoint.Task σ} (looksUp : LooksUp tasks toolName task) (env : σ) :
    (WorkerPhase.lookup (advanceLookup tasks task env).1.phase,
        (advanceLookup tasks task env).2.1) =
      tasks.advanceTool toolName task.phase env := by
  obtain ⟨call, grants, phase⟩ := task
  obtain ⟨sameCall, sameGrants⟩ := looksUp
  cases sameCall
  cases sameGrants
  rfl

/-- The lookups are those of the turn. -/
structure Looks (tasks : TurnTasks σ) (loop : GatherLoop σ) : Prop where
  account : LooksUp tasks "account_lookup" loop.account
  meeting : LooksUp tasks "meeting_history" loop.meeting

theorem workers_resumeRun (loop : GatherLoop σ) :
    loop.resumeRun.workers = loop.workers := by
  unfold resumeRun
  cases loop.run with
  | gathering =>
      dsimp only
      split
      · rfl
      · split <;> rfl
  | concluding => rfl
  | ended => rfl

theorem looks_resumeRun {tasks : TurnTasks σ} {loop : GatherLoop σ}
    (looks : Looks tasks loop) : Looks tasks loop.resumeRun := by
  unfold resumeRun
  cases loop.run with
  | gathering =>
      dsimp only
      split
      · exact ⟨looks.account, looks.meeting⟩
      · split
        · exact ⟨looks.account, looks.meeting⟩
        · exact looks
  | concluding => exact ⟨looks.account, looks.meeting⟩
  | ended => exact looks

theorem looks_step {tasks : TurnTasks σ} {loop : GatherLoop σ}
    (looks : Looks tasks loop) (label : Label σ) :
    Looks tasks (step tasks loop label) := by
  cases label with
  | worker worker =>
      cases worker with
      | account =>
          exact ⟨⟨looks.account.call, looks.account.grants⟩, looks.meeting⟩
      | meeting =>
          exact ⟨looks.account, ⟨looks.meeting.call, looks.meeting.grants⟩⟩
      | retrieval => exact ⟨looks.account, looks.meeting⟩
  | run => exact looks_resumeRun looks
  | outside change => exact ⟨looks.account, looks.meeting⟩

/-- A step of the event loop resumes the worker it names, or none. -/
theorem workers_step {tasks : TurnTasks σ} {loop : GatherLoop σ}
    (looks : Looks tasks loop) {label : Label σ} (inside : label.Inside) :
    (step tasks loop label).workers =
      LabelledRun.run (SharedTasks.step tasks.advance) loop.workers
        label.worker?.toList := by
  cases label with
  | worker worker =>
      cases worker with
      | account =>
          have advanced := looks.account.advance loop.env
          apply SharedTasks.State.ext
          · exact congrArg Prod.snd advanced
          · funext worker
            cases worker with
            | account => exact congrArg Prod.fst advanced
            | meeting => rfl
            | retrieval => rfl
      | meeting =>
          have advanced := looks.meeting.advance loop.env
          apply SharedTasks.State.ext
          · exact congrArg Prod.snd advanced
          · funext worker
            cases worker with
            | account => rfl
            | meeting => exact congrArg Prod.fst advanced
            | retrieval => rfl
      | retrieval =>
          apply SharedTasks.State.ext
          · rfl
          · funext worker
            cases worker with
            | account => rfl
            | meeting => rfl
            | retrieval => rfl
  | run => exact workers_resumeRun loop
  | outside change => exact inside.elim

theorem workers_run {tasks : TurnTasks σ} {loop : GatherLoop σ}
    (looks : Looks tasks loop) {schedule : List (Label σ)}
    (inside : ∀ label ∈ schedule, label.Inside) :
    (LabelledRun.run (step tasks) loop schedule).workers =
      LabelledRun.run (SharedTasks.step tasks.advance) loop.workers
        (schedule.filterMap Label.worker?) := by
  induction schedule generalizing loop with
  | nil => rfl
  | cons label rest inductionHypothesis =>
      have first := workers_step looks (inside label List.mem_cons_self)
      have later :=
        inductionHypothesis (looks_step looks label)
          fun other member => inside other (List.mem_cons_of_mem _ member)
      rw [run_cons, later, first, ← run_append]
      congr 1
      cases named : label.worker? with
      | none => rw [List.filterMap_cons_none named]; rfl
      | some worker => rw [List.filterMap_cons_some named]; rfl

end GatherLoop

namespace OrchestratorFlow

/-- Every schedule that finishes independent workers comes to the workers run one
after the other in any order: the same outcomes, and the same outside world. -/
theorem interleaving_refines_sequence (host : Host σ) (flow : OrchestratorFlow σ)
    (services : HarnessServices σ μ) (request : String)
    {owned : Worker → ∀ {α : Type}, (σ → α × σ) → Prop}
    (independent :
      (tasks host flow services request).IndependentWorkers owned)
    (world : World σ μ) {schedule : List (GatherLoop.Label σ)}
    (inside : ∀ label ∈ schedule, label.Inside)
    {order : List Worker}
    (complete : order.Perm [.account, .meeting, .retrieval]) :
    let loop :=
      LabelledRun.run (GatherLoop.step (tasks host flow services request))
        (.initial (tasks host flow services request) world.env) schedule
    (∀ worker, (loop.outcome? worker).isSome = true) →
      ∃ outcomes after,
        (runWorkers
            (work host flow services (grantsFor services.approvalGate) request)
            order).run world = .ok outcomes after ∧
          after.env = loop.env ∧
          outcomes.map (fun outcome => (outcome.1, some outcome.2)) =
            order.map fun worker => (worker, loop.outcome? worker) := by
  intro loop finished
  let start : GatherLoop σ :=
    .initial (tasks host flow services request) world.env
  have looks : GatherLoop.Looks (tasks host flow services request) start :=
    ⟨⟨rfl, rfl⟩, ⟨rfl, rfl⟩⟩
  have ran := GatherLoop.workers_run looks inside
  have fresh : start.workers.phases = WorkerPhase.start := by
    funext worker
    cases worker <;> rfl
  have isValid :
      ∀ worker,
        (tasks host flow services request).Keeps owned worker
          (start.workers.phases worker) := by
    intro worker
    cases worker <;> trivial
  have nodup : order.Nodup := complete.nodup_iff.mpr (by decide)
  have listed : ∀ worker : Worker, worker ∈ order := by
    intro worker
    rw [complete.mem_iff]
    cases worker <;> decide
  let resumed := schedule.filterMap GatherLoop.Label.worker?
  have ended :
      ∀ worker ∈ order,
        WorkerPhase.Finished
          ((LabelledRun.run
            (SharedTasks.step (tasks host flow services request).advance)
            start.workers resumed).phases worker) := by
    rw [← ran]
    exact fun worker _ => finished worker
  have oneByOne :=
    (TurnTasks.independent_advance independent).oneByOne nodup
      (fun worker _ => listed worker) isValid ended
  dsimp only at oneByOne
  rw [← ran, fresh] at oneByOne
  obtain ⟨outcomes, after, sequence, sameEnv, agree⟩ :=
    runWorkers_of_oneByOne oneByOne rfl
  refine ⟨outcomes, after, sequence, sameEnv, ?_⟩
  rw [agree, List.map_map]
  rfl

end OrchestratorFlow

/-! ## Workers with an outside world of their own -/

namespace CountedWorkers

/-- How often each worker has used its tool. -/
abbrev Uses := Worker → Nat

def use (worker : Worker) (output : String) : Py Uses String :=
  fun env => .ok output (Function.update env worker (env worker + 1))

def lookup (name : String) (worker : Worker) : ToolSpec Uses where
  name := name
  riskTier := .readOnly
  handler := ⟨fun _ => none, fun _ => use worker name⟩

def host : Host Uses where
  runtime := Idle.host.runtime
  elapse env := ((Idle.host.elapse ()).1, env)
  uuid4 env := ((Idle.host.uuid4 ()).1, env)
  rejection name _ := name

/-- The retrieval agent searches once. -/
def flow : OrchestratorFlow Uses where
  retrievalModel _ :=
    pure (.call {} "search" [] fun _ => .answer {} "found" [])
  synthesisModel _ := pure (.answer {} ⟨"", []⟩ [])
  criticModel _ := pure (.answer {} ⟨"", []⟩ [])
  server _ _ := ToolReply.value <$> use .retrieval "found"
  gatherOrder env := ((Idle.orchestrator.gatherOrder ()).1, env)

def services : HarnessServices Uses Unit where
  tools :=
    (({} : InMemoryToolRegistry Uses).register (lookup "account_lookup" .account)).register
      (lookup "meeting_history" .meeting)
  memory := nullMemoryStore Unit
  budget := { budget := {}, modelId := "test", start := 0 }

def world : World Uses Unit where
  env _ := 0
  memory := ()
  clock := 0

/-- What a worker may do: read and write its own counter. -/
def Own (worker : Worker) {α : Type} (action : Uses → α × Uses) : Prop :=
  OnPart worker action

theorem own_pure (worker : Worker) {α : Type} (value : α) :
    Own worker (observe (pure value : Py Uses α)) :=
  ⟨fun count => (.ok value, count), fun env =>
    congrArg (Prod.mk _) (Function.update_eq_self worker env).symm⟩

theorem own_use (worker : Worker) (output : String) :
    Own worker (observe (use worker output)) :=
  ⟨fun count => (.ok output, count + 1), fun _ => rfl⟩

theorem independent :
    (OrchestratorFlow.tasks host flow services "prep me").IndependentWorkers Own where
  commute different _ _ _ _ := commute_of_onPart different
  handler {worker call} calls isLookup spec found := by
    cases calls with
    | account =>
        cases found
        exact own_use .account "account_lookup"
    | meeting =>
        cases found
        exact own_use .meeting "meeting_history"
    | retrieval => exact absurd rfl isLookup
  callback _ callback present := by cases present
  resolve _ callback present := by cases present
  model := own_pure .retrieval _
  server _ _ := ⟨fun count => (.ok (.value "found"), count + 1), fun _ => rfl⟩
  clock :=
    ⟨fun count => ((Idle.host.elapse ()).1, count), fun env =>
      congrArg (Prod.mk _) (Function.update_eq_self Worker.retrieval env).symm⟩

def schedule : List (GatherLoop.Label Uses) :=
  [.worker .account, .worker .retrieval, .worker .meeting, .worker .retrieval,
    .worker .meeting, .run, .worker .retrieval, .worker .account, .worker .retrieval]

/-- The interleaved workers, and the same in the order in which they finish. -/
theorem interleaved_workers :
    let tasks := OrchestratorFlow.tasks host flow services "prep me"
    let loop :=
      LabelledRun.run (GatherLoop.step tasks) (.initial tasks world.env) schedule
    let order : List Worker := [.meeting, .account, .retrieval]
    ∃ outcomes after,
      (OrchestratorFlow.runWorkers
          (OrchestratorFlow.work host flow services
            (grantsFor services.approvalGate) "prep me") order).run world =
        .ok outcomes after ∧
        after.env = loop.env ∧
        outcomes.map (fun outcome => (outcome.1, some outcome.2)) =
          order.map fun worker => (worker, loop.outcome? worker) := by
  have inside : ∀ label ∈ schedule, label.Inside := by
    intro label member
    simp only [schedule, List.mem_cons, List.not_mem_nil, or_false] at member
    rcases member with rfl | rfl | rfl | rfl | rfl | rfl | rfl | rfl | rfl <;> trivial
  apply
    OrchestratorFlow.interleaving_refines_sequence host flow services "prep me"
      independent world inside (by decide)
  intro worker
  cases worker <;> rfl

end CountedWorkers

end FableHarness
