import FableHarness.Flows.GatherLoop

/-!
# Workers that nothing interrupts

Resumed without interruption, the tasks of the event loop compute what the
workers of the sequential flow compute.
-/

namespace FableHarness

open ExceptionState LabelledRun

variable {σ : Type}

namespace GatherLoop

/-! ## Lookups -/

section Lookups

variable (tasks : TurnTasks σ)

/-- Resumptions of the account lookup alone. -/
theorem run_account (count : Nat) (loop : GatherLoop σ) :
    let after :=
      LabelledRun.run (step tasks) loop
        (List.replicate count (.worker .account))
    (after.account.phase, after.env) =
      ChokePoint.drive tasks.tools 0 loop.account.call loop.account.grants count
        loop.account.phase loop.env := by
  induction count generalizing loop with
  | zero => rfl
  | succ count inductionHypothesis =>
      rw [List.replicate_succ, run_cons]
      exact inductionHypothesis _

/-- The account lookup comes to what `execute` returns or raises. -/
theorem account_refines_execute {loop : GatherLoop σ}
    (created : loop.account.phase = .created) :
    let after :=
      LabelledRun.run (step tasks) loop (List.replicate 3 (.worker .account))
    (after.account.phase, after.env) =
      ChokePoint.ending
        ((tasks.tools.execute loop.account.call loop.account.grants).run
          loop.env) := by
  have ran := run_account tasks 3 loop
  rw [created, ChokePoint.drive_execute] at ran
  exact ran

end Lookups

/-! ## Retrieval -/

section Retrieval

variable (tasks : TurnTasks σ)

/-- Resumptions of the retrieval worker alone. -/
def driveRetrieval : Nat → RetrievalPhase σ → σ → RetrievalPhase σ × σ
  | 0, phase, env => (phase, env)
  | count + 1, phase, env =>
      let progress := tasks.advanceRetrieval phase env
      driveRetrieval count progress.phase progress.env

theorem run_retrieval (count : Nat) (loop : GatherLoop σ) :
    let after :=
      LabelledRun.run (step tasks) loop
        (List.replicate count (.worker .retrieval))
    (after.retrieval, after.env) =
      driveRetrieval tasks count loop.retrieval loop.env := by
  induction count generalizing loop with
  | zero => rfl
  | succ count inductionHypothesis =>
      rw [List.replicate_succ, run_cons]
      exact inductionHypothesis _

theorem driveRetrieval_add (first second : Nat) (phase : RetrievalPhase σ)
    (env : σ) :
    driveRetrieval tasks (first + second) phase env =
      driveRetrieval tasks second (driveRetrieval tasks first phase env).1
        (driveRetrieval tasks first phase env).2 := by
  induction first generalizing phase env with
  | zero => rw [Nat.zero_add, driveRetrieval]
  | succ first inductionHypothesis =>
      rw [Nat.succ_add, driveRetrieval, driveRetrieval]
      exact inductionHypothesis _ _

/-- How a check of the hook ends, as a phase of the worker. -/
def hookEnding (name : String) (arguments : Arguments)
    (next : ToolReply → ModelRun String) :
    EStateM.Result PyExc σ Unit → RetrievalPhase σ × σ
  | .ok () env => (.inServer name arguments next, env)
  | .error exc env => (.raised exc, env)

def toolset : RetrievalToolset σ where
  approvalGate := tasks.approvalGate
  riskTier := .readOnly
  flow := OrchestratorFlow.flowName

/-- The end of the hook once the callback has answered. -/
theorem afterAnswer_eq (name : String) (arguments : Arguments)
    (next : ToolReply → ModelRun String)
    (outcome : EStateM.Result PyExc σ Bool) :
    let progress := TurnTasks.afterAnswer name arguments next outcome
    (progress.phase, progress.env) =
      hookEnding name arguments next
        (resultOf
          (ChokePoint.checkAnswer (TurnTasks.mcpCall name arguments) .readOnly
            outcome)
          (finalState outcome)) := by
  cases outcome with
  | error exc env => rfl
  | ok approved env =>
      cases approved with
      | true => rfl
      | false => rfl

/-- One or two resumptions complete the check of the hook. -/
theorem drive_hook (response : ModelResponse) (name : String)
    (arguments : Arguments) (next : ToolReply → ModelRun String) (env : σ) :
    ∃ count,
      driveRetrieval tasks count
          (.awaitingModel (.call response name arguments next)) env =
        hookEnding name arguments next
          (((toolset tasks).checkCall name arguments).run env) := by
  have started :
      driveRetrieval tasks 1
          (.awaitingModel (.call response name arguments next)) env =
        ((tasks.startHook name arguments next env).phase,
          (tasks.startHook name arguments next env).env) :=
    rfl
  cases gated : tasks.approvalGate with
  | none =>
      refine ⟨1, ?_⟩
      rw [started]
      simp only [TurnTasks.startHook, RetrievalToolset.checkCall, toolset, gated]
      rfl
  | some gate =>
      have checked :
          (toolset tasks).checkCall name arguments =
            gate.check (TurnTasks.mcpCall name arguments) .readOnly := by
        simp only [RetrievalToolset.checkCall, toolset, gated]
        rfl
      obtain ⟨start, starts⟩ :=
        gate.exists_starts (TurnTasks.mcpCall name arguments) .readOnly env
      rw [checked, ChokePoint.run_check_of_starts starts]
      rw [tasks.startHook_of_starts name arguments next gated starts] at started
      cases start with
      | concluded outcome =>
          refine ⟨1, ?_⟩
          rw [started]
          cases outcome <;> rfl
      | answered outcome =>
          refine ⟨1, ?_⟩
          rw [started]
          exact afterAnswer_eq name arguments next outcome
      | suspended resolve after =>
          refine ⟨2, ?_⟩
          rw [driveRetrieval_add tasks 1 1, started]
          exact afterAnswer_eq name arguments next (resolve.run after)

variable {μ : Type}

/-- What is left of the retrieval worker once the model goes on with
`behaviour`. -/
def restOfRetrieval (services : HarnessServices σ μ) (usage : RunUsage)
    (behaviour : ModelRun String) : Turn σ μ String := do
  let result ←
    Agent.drive .retrieval none (OrchestratorFlow.mcpTool tasks.flow services)
      usage behaviour
  let time ← Turn.monotonic tasks.host
  Turn.record (.agentEnded .retrieval time)
  return result.output

/-- A run of the worker and the end of its task. -/
inductive EndsAs : EStateM.Result TurnExc (World σ μ) String →
    RetrievalPhase σ × σ → Prop where
  | returned (output : String) (world : World σ μ) :
      EndsAs (.ok output world) (.returned output, world.env)
  | raised (exc : PyExc) (world : World σ μ) :
      EndsAs (.error (.outside exc) world) (.raised exc, world.env)

section Call

variable {tasks} {services : HarnessServices σ μ} {name : String}
  {arguments : Arguments} (world : World σ μ) {env : σ}
  (gated : services.approvalGate = tasks.approvalGate)
include gated

theorem toolset_eq : OrchestratorFlow.toolset services = toolset tasks := by
  rw [OrchestratorFlow.toolset, toolset, gated]

theorem run_mcpTool_of_refused {exc : PyExc}
    (refused :
      ((toolset tasks).checkCall name arguments).run world.env =
        .error exc env) :
    ∃ trace,
      (OrchestratorFlow.mcpTool tasks.flow services name arguments).run world =
        .error (.outside exc) { world with env, trace } := by
  unfold OrchestratorFlow.mcpTool
  rw [toolset_eq gated]
  simp only [EStateM.run_bind, run_attempt, Turn.run_outside, refused,
    answer_error, finalState_error]
  cases exc with
  | permissionDenied message => exact ⟨_, rfl⟩
  | usageLimitExceeded message => exact ⟨_, rfl⟩
  | other className message => exact ⟨_, rfl⟩

theorem run_mcpTool_of_passed
    (passed :
      ((toolset tasks).checkCall name arguments).run world.env = .ok () env) :
    (OrchestratorFlow.mcpTool tasks.flow services name arguments).run world =
      (Turn.outside (tasks.flow.server name arguments)).run
        { world with env } := by
  unfold OrchestratorFlow.mcpTool
  rw [toolset_eq gated]
  simp only [EStateM.run_bind, run_attempt, Turn.run_outside, passed, answer_ok,
    finalState_ok]

end Call

/-- A response with a call, and the rest of the worker after the call. -/
theorem run_rest_of_call (services : HarnessServices σ μ) (usage : RunUsage)
    (response : ModelResponse) (name : String) (arguments : Arguments)
    (next : ToolReply → ModelRun String) (world : World σ μ) :
    ∃ trace,
      (restOfRetrieval tasks services usage
          (.call response name arguments next)).run world =
        (Agent.callTool .retrieval none
            (OrchestratorFlow.mcpTool tasks.flow services) (usage.add response)
            name arguments >>= fun replied =>
          restOfRetrieval tasks services replied.2 (next replied.1)).run
            { world with trace } := by
  have charges := Agent.run_charge .retrieval none usage response world
  refine
    ⟨world.trace ++
      [.modelResponded .retrieval response.inputTokens response.outputTokens], ?_⟩
  unfold restOfRetrieval
  rw [Agent.drive, bind_assoc, EStateM.run_bind, charges]
  simp only [UsageLimits.checkTokens, Option.bind_none, bind_assoc]

section CallTool

variable (role : AgentRole) {tool : String → Arguments → Turn σ μ ToolReply}
  (usage : RunUsage) {name : String} {arguments : Arguments}
  {before after : World σ μ}

theorem run_callTool_of_raised {exc : TurnExc}
    (raised : (tool name arguments).run before = .error exc after) :
    (Agent.callTool role none tool usage name arguments).run before =
      .error exc after := by
  have unlimited :
      (Agent.raiseIf (UsageLimits.checkToolCalls none usage) :
          Turn σ μ Unit).run before = .ok () before :=
    rfl
  rw [Agent.callTool, EStateM.run_bind, unlimited]
  simp only [EStateM.run_bind, raised]

theorem run_callTool_of_reply {reply : ToolReply}
    (replied : (tool name arguments).run before = .ok reply after) :
    ∃ trace,
      (Agent.callTool role none tool usage name arguments).run before =
        .ok (reply, usage.count reply) { after with trace } := by
  have unlimited :
      (Agent.raiseIf (UsageLimits.checkToolCalls none usage) :
          Turn σ μ Unit).run before = .ok () before :=
    rfl
  rw [Agent.callTool, EStateM.run_bind, unlimited]
  simp only [EStateM.run_bind, replied]
  cases reply with
  | value output => exact ⟨_, rfl⟩
  | retry message => exact ⟨after.trace, rfl⟩

end CallTool

/-- Resumed again and again, the retrieval worker comes to what it returns or
raises. -/
theorem rest_refines {services : HarnessServices σ μ}
    (gated : services.approvalGate = tasks.approvalGate)
    (behaviour : ModelRun String) :
    ∀ (usage : RunUsage) (world : World σ μ),
      ∃ count,
        EndsAs ((restOfRetrieval tasks services usage behaviour).run world)
          (driveRetrieval tasks count (.awaitingModel behaviour) world.env) := by
  induction behaviour with
  | answer response output messages =>
      intro usage world
      refine ⟨1, ?_⟩
      exact EndsAs.returned output _
  | raises exc =>
      intro usage world
      exact ⟨1, EndsAs.raised exc world⟩
  | call response name arguments next inductionHypothesis =>
      intro usage world
      obtain ⟨first, checks⟩ :=
        drive_hook tasks response name arguments next world.env
      obtain ⟨trace, rest⟩ :=
        run_rest_of_call tasks services usage response name arguments next world
      let charged : World σ μ := { world with trace }
      rw [rest, EStateM.run_bind]
      cases checked : ((toolset tasks).checkCall name arguments).run world.env with
      | error exc env =>
          rw [checked] at checks
          obtain ⟨denied, refused⟩ :=
            run_mcpTool_of_refused charged gated checked
          refine ⟨first, ?_⟩
          rw [run_callTool_of_raised _ _ refused, checks]
          exact EndsAs.raised exc { charged with env, trace := denied }
      | ok passed env =>
          rw [checked] at checks
          have forwarded := run_mcpTool_of_passed charged gated checked
          have served :
              driveRetrieval tasks (first + 1)
                  (.awaitingModel (.call response name arguments next)) world.env =
                driveRetrieval tasks 1 (.inServer name arguments next) env := by
            rw [driveRetrieval_add, checks]
            rfl
          rw [Turn.run_outside] at forwarded
          cases replied : (tasks.flow.server name arguments).run env with
          | error exc after =>
              simp only [replied] at forwarded
              refine ⟨first + 1, ?_⟩
              rw [run_callTool_of_raised _ _ forwarded, served]
              simp only [driveRetrieval, TurnTasks.advanceRetrieval, replied]
              exact EndsAs.raised exc { charged with env := after }
          | ok reply after =>
              simp only [replied] at forwarded
              obtain ⟨counted, called⟩ :=
                run_callTool_of_reply .retrieval (usage.add response) forwarded
              obtain ⟨more, ends⟩ :=
                inductionHypothesis reply ((usage.add response).count reply)
                  { charged with env := after, trace := counted }
              refine ⟨first + 1 + more, ?_⟩
              rw [called, driveRetrieval_add, served]
              simp only [driveRetrieval, TurnTasks.advanceRetrieval, replied]
              exact ends

theorem drive_refines {services : HarnessServices σ μ}
    (gated : services.approvalGate = tasks.approvalGate) (world : World σ μ) :
    ∃ count,
      EndsAs
        ((OrchestratorFlow.retrievalWorker tasks.host tasks.flow services
          tasks.request).run world)
        (driveRetrieval tasks count .created world.env) := by
  let started : World σ μ :=
    { world with
      trace :=
        world.trace ++ [.agentStarted .retrieval tasks.retrievalPrompt []] }
  have worker :
      (OrchestratorFlow.retrievalWorker tasks.host tasks.flow services
          tasks.request).run world =
        (Turn.outside (tasks.flow.retrievalModel tasks.retrievalPrompt) >>=
          restOfRetrieval tasks services {}).run started := by
    have recorded :
        (Turn.record (.agentStarted .retrieval tasks.retrievalPrompt []) :
            Turn σ μ Unit).run world = .ok () started :=
      rfl
    have stages :
        OrchestratorFlow.retrievalWorker tasks.host tasks.flow services
            tasks.request =
          Turn.record (.agentStarted .retrieval tasks.retrievalPrompt []) >>=
            fun _ =>
              Turn.outside (tasks.flow.retrievalModel tasks.retrievalPrompt) >>=
                restOfRetrieval tasks services {} := by
      unfold OrchestratorFlow.retrievalWorker OrchestratorFlow.runAgent Agent.run
      simp only [bind_assoc, pure_bind]
      rfl
    rw [stages, EStateM.run_bind, recorded]
  rw [worker, EStateM.run_bind, Turn.run_outside]
  cases chosen :
      (tasks.flow.retrievalModel tasks.retrievalPrompt).run world.env with
  | error exc env =>
      have raises :
          driveRetrieval tasks 1 .created world.env = (.raised exc, env) := by
        simp only [driveRetrieval, TurnTasks.advanceRetrieval, chosen]
      refine ⟨1, ?_⟩
      rw [raises]
      simp only [started]
      exact EndsAs.raised exc { started with env }
  | ok behaviour env =>
      have chooses :
          driveRetrieval tasks 1 .created world.env =
            (.awaitingModel behaviour, env) := by
        simp only [driveRetrieval, TurnTasks.advanceRetrieval, chosen]
      obtain ⟨more, ends⟩ :=
        rest_refines tasks gated behaviour {} { started with env }
      refine ⟨1 + more, ?_⟩
      rw [driveRetrieval_add, chooses]
      simp only [started] at ends ⊢
      exact ends

/-- Uninterrupted, the task of the retrieval worker ends as the worker does. -/
theorem retrieval_refines_worker {services : HarnessServices σ μ}
    (gated : services.approvalGate = tasks.approvalGate) {loop : GatherLoop σ}
    (created : loop.retrieval = .created) (world : World σ μ)
    (same : world.env = loop.env) :
    ∃ count,
      let after :=
        LabelledRun.run (step tasks) loop
          (List.replicate count (.worker .retrieval))
      EndsAs
        ((OrchestratorFlow.retrievalWorker tasks.host tasks.flow services
          tasks.request).run world)
        (after.retrieval, after.env) := by
  obtain ⟨count, ends⟩ := drive_refines tasks gated world
  have ran := run_retrieval tasks count loop
  rw [created, ← same] at ran
  rw [← ran] at ends
  exact ⟨count, ends⟩

end Retrieval

end GatherLoop

end FableHarness
