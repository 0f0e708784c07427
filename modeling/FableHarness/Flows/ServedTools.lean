import FableHarness.Flows.FanOut
import FableHarness.Flows.RepeatedFailure
import FableHarness.Flows.WholeTurn

/-!
# Turns whose tools answer

What a turn records and raises if its registry is known to answer the calls that the
harness makes: the sources that synthesis and critic are given, and, if no call is
denied, no failure of a tool anywhere.
-/

namespace FableHarness

open ExceptionState EventLog

variable {σ μ α : Type}

/-- In every state the call comes back, with a result of which this holds. -/
def InMemoryToolRegistry.Answers (registry : InMemoryToolRegistry σ)
    (grants : PermissionGrants σ) (call : ToolCall)
    (holds : Verdict → ToolResult → Prop) : Prop :=
  ∀ env, ∃ verdict result after,
    (registry.executeObserved call grants).run env = .ok (verdict, result) after ∧
      holds verdict result

/-- A turn's calls are answered: the lookups of the orchestrator with texts for their
slots, and if `lenient`, every call of a tool and every search is let through and
none of them fails. -/
structure ToolsAnswer (services : HarnessServices σ μ)
    (orchestrator : OrchestratorFlow σ) (lenient : Prop)
    (slots : Worker → String → Prop) : Prop where
  account :
    services.tools.Answers (grantsFor services.approvalGate)
      ⟨"account_lookup", [("client", .str orchestrator.clientKey)],
        OrchestratorFlow.flowName⟩
      fun verdict result =>
        slots .account (OrchestratorFlow.workerOutput result) ∧
          (lenient → verdict ≠ .denied)
  meeting :
    services.tools.Answers (grantsFor services.approvalGate)
      ⟨"meeting_history", [("client", .str orchestrator.clientKey)],
        OrchestratorFlow.flowName⟩
      fun verdict result =>
        slots .meeting (OrchestratorFlow.workerOutput result) ∧
          (lenient → verdict ≠ .denied)
  retrieved : ∀ text, slots .retrieval text
  wired :
    lenient → ∀ name arguments passed,
      SingleAgentFlow.wiredArguments name arguments = some passed →
        services.tools.Answers (grantsFor services.approvalGate)
          ⟨name, passed, SingleAgentFlow.flowName⟩ fun _ result => result.ok = true
  searched :
    lenient → ∀ name arguments,
      (OrchestratorFlow.toolset services).checkCall name arguments = pure ()

/-- Synthesis and critic are given these sources. -/
def Interaction.Grounded (runtime : PyRuntime) (request : String)
    (slots : Worker → String → Prop) : Interaction → Prop
  | .agentStarted .synthesis prompt memory =>
      ∃ gathered, (∀ worker, slots worker (gathered worker)) ∧
        prompt = OrchestratorFlow.sourcesBlock request gathered memory
  | .agentStarted .critic prompt memory =>
      ∃ gathered draft, (∀ worker, slots worker (gathered worker)) ∧
        prompt =
          OrchestratorFlow.criticPrompt runtime draft
            (OrchestratorFlow.sourcesBlock request gathered memory)
  | _ => True

/-- What a turn whose tools answer may record. -/
structure Interaction.Accounted (lenient : Prop) (runtime : PyRuntime)
    (request : String) (slots : Worker → String → Prop) (event : Interaction) :
    Prop where
  grounded : event.Grounded runtime request slots
  quiet : lenient → event.Quiet

section Accounted

variable {lenient : Prop} {runtime : PyRuntime} {request : String}
  {slots : Worker → String → Prop}

theorem admitsRuns_accounted (role : AgentRole) :
    Agent.AdmitsRuns (Interaction.Accounted lenient runtime request slots) role :=
  ⟨fun _ _ => ⟨trivial, fun _ => trivial⟩, ⟨trivial, fun _ => trivial⟩,
    fun _ => ⟨trivial, fun _ => trivial⟩⟩

theorem allows_accounted :
    Allows
      (Only (Interaction.Accounted lenient runtime request slots) :
        World σ μ → _ → World σ μ → Prop)
      (fun exc => lenient → exc.Ordinary)
      (Interaction.Accounted lenient runtime request slots) :=
  allows_only fun _ _ => trivial

theorem allowsMemory_accounted (memory : MemoryStore μ) :
    AllowsMemory
      (Only (Interaction.Accounted lenient runtime request slots) :
        World σ μ → _ → World σ μ → Prop)
      memory :=
  allowsMemory_only (fun _ => ⟨trivial, fun _ => trivial⟩) memory

end Accounted

/-! ## One call -/

theorem Turn.execute_ends {services : HarnessServices σ μ} {call : ToolCall}
    {grants : PermissionGrants σ} {holds : Verdict → ToolResult → Prop}
    (answers : services.tools.Answers grants call holds) (before : World σ μ) :
    Ends World.trace (execute services call grants) before
      fun outcome events _ =>
        ∃ verdict result, holds verdict result ∧ outcome = .ok (verdict, result) ∧
          (verdict ≠ .denied → events = []) ∧
            ∀ event ∈ events, event = .callDenied call := by
  obtain ⟨verdict, result, env, ran, held⟩ := answers before.env
  have called :
      (outside (services.tools.executeObserved call grants) : Turn σ μ _).run before =
        .ok (verdict, result) { before with env } := by
    rw [run_outside, ran]
  refine ends_bind_of_ok called (List.append_nil _).symm ?_
  by_cases denied : verdict = .denied
  · simp only [denied, if_true]
    refine ends_of_ok rfl rfl ⟨verdict, result, held, ?_, ?_, ?_⟩
    · rw [denied]
    · exact fun allowed => absurd denied allowed
    · simp
  · simp only [denied, if_false]
    refine ends_pure ⟨verdict, result, held, rfl, fun _ => rfl, ?_⟩
    simp

/-! ## The single agent -/

namespace SingleAgentFlow

variable {services : HarnessServices σ μ} {orchestrator : OrchestratorFlow σ}
  {lenient : Prop} {slots : Worker → String → Prop}

theorem confined_tool_of_answers
    (answers : ToolsAnswer services orchestrator lenient slots) (host : Host σ)
    (runtime : PyRuntime) (request name : String) (arguments : Arguments) :
    Confined (Only (Interaction.Accounted lenient runtime request slots))
      (fun exc => lenient → exc.Ordinary)
      (tool host services (grantsFor services.approvalGate) name arguments) := by
  by_cases isLenient : lenient
  · unfold tool wiredCall
    by_cases offered :
        ((services.tools.scopedFor flowName).any fun spec => spec.name == name) = true
    · rw [if_pos offered]
      cases wired : wiredArguments name arguments with
      | none => exact confined_pure _
      | some passed =>
          intro before
          obtain ⟨verdict, result, env, observed, ok⟩ :=
            answers.wired isLenient name arguments passed wired before.env
          refine
            ends_of_ok (dispatch_of_ok host services _ name passed observed ok)
              (List.append_nil _).symm ⟨by simp [Only], ?_⟩
          intro exc equal
          cases equal
    · rw [if_neg offered]
      exact confined_pure _
  · have vacuous : ∀ {event : Interaction}, lenient → event.Quiet :=
      fun holds => absurd holds isLenient
    have failures : AdmitsFailures (Interaction.Accounted lenient runtime request slots) :=
      ⟨fun _ => ⟨trivial, vacuous⟩, fun _ _ => ⟨trivial, vacuous⟩,
        fun _ _ => ⟨trivial, vacuous⟩⟩
    apply confined_tool allows_accounted failures
    exact fun _ _ _ _ holds => absurd holds isLenient

theorem confined_run_of_answers
    (answers : ToolsAnswer services orchestrator lenient slots) (host : Host σ)
    (runtime : PyRuntime) (flow : SingleAgentFlow σ) (ctx : RunContext)
    (request : String) :
    Confined (Only (Interaction.Accounted lenient runtime request slots))
      (fun exc => lenient → exc.Ordinary)
      (flow.run host request ctx services) := by
  apply confined_run_of_tool allows_accounted host services ctx
    (allowsMemory_accounted services.memory)
  · exact fun _ _ => by simp [Only]
  · exact fun _ _ => trivial
  · exact admitsRuns_accounted
  · exact fun _ _ => ⟨trivial, fun _ => trivial⟩
  · exact fun _ => ⟨trivial, fun _ => trivial⟩
  · exact confined_tool_of_answers answers host runtime request

end SingleAgentFlow

/-! ## The orchestrator -/

namespace OrchestratorFlow

/-- The part of a run after the fan-out keeps to a relation that admits the prompts
built from what was gathered. -/
theorem confined_conclude
    {spec : World σ μ → List Interaction → World σ μ → Prop} [Composes spec]
    {benign : TurnExc → Prop} {safe : Interaction → Prop}
    (allows : Allows spec benign safe) (runs : ∀ role, Agent.AdmitsRuns safe role)
    (host : Host σ) (flow : OrchestratorFlow σ) (request : String)
    (ctx : RunContext) (services : HarnessServices σ μ)
    (allowsMemory : AllowsMemory spec services.memory)
    (gathered : Worker → String)
    (synthesisSafe :
      ∀ memory,
        safe (.agentStarted .synthesis (sourcesBlock request gathered memory) memory))
    (criticSafe :
      ∀ draft memory,
        safe
          (.agentStarted .critic
            (criticPrompt host.runtime draft (sourcesBlock request gathered memory))
            memory))
    (extractionSafe : ∀ prompt, safe (.agentStarted .extraction prompt [])) :
    Confined spec benign (conclude host flow request ctx services gathered) := by
  have recalls := Turn.confined_recallContext allows allowsMemory ctx request
  have runsAgent :
      ∀ {α : Type} {role : AgentRole} (model : Model σ α) {prompt : String}
        {memory : List String}, safe (.agentStarted role prompt memory) →
        Confined spec benign
          (runAgent host role model (Agent.noTools host) prompt memory :
            Turn σ μ α) := by
    intro α role model prompt memory startSafe
    apply
      confined_bind
        (Agent.confined_run allows (runs role) host none model
          (Agent.confined_noTools host) startSafe)
    exact fun _ => confined_pure _
  have synthesizes :
      Confined spec benign (synthesize host flow request ctx services gathered) := by
    apply confined_bind recalls
    intro memory
    apply confined_bind (runsAgent flow.synthesisModel (synthesisSafe memory))
    intro draft
    unfold review
    split
    · exact runsAgent flow.criticModel (criticSafe draft memory)
    · exact confined_pure draft
  apply confined_bind synthesizes
  intro synthesis
  refine confined_bind ?remembers fun _ => confined_pure _
  case remembers =>
    unfold rememberTurn
    split
    · rename_i extractor _ _
      apply
        confined_bind
          (extractor.confined_extract allows (runs .extraction) host request
            synthesis.summary flowName extractionSafe)
      intro facts
      split
      · exact Turn.confined_remember allows allowsMemory facts _
      · exact confined_pure _
    · exact confined_pure _

variable {services : HarnessServices σ μ} {flow : OrchestratorFlow σ}
  {lenient : Prop} {slots : Worker → String → Prop}
  (answers : ToolsAnswer services flow lenient slots) (host : Host σ)
  (runtime : PyRuntime) (request : String)

theorem confined_toolWorker_of_answers {toolName : String}
    {slot : String → Prop}
    (answered :
      services.tools.Answers (grantsFor services.approvalGate)
        ⟨toolName, [("client", .str flow.clientKey)], flowName⟩
        fun verdict result =>
          slot (workerOutput result) ∧ (lenient → verdict ≠ .denied)) :
    Confined (Only (Interaction.Accounted lenient runtime request slots))
      (fun exc => lenient → exc.Ordinary)
      (toolWorker flow services (grantsFor services.approvalGate) toolName) := by
  intro before
  apply ends_bind (Turn.execute_ends answered before)
  · rintro exc events after ⟨_, _, _, returned, _⟩
    cases returned
  · rintro ⟨verdict, result⟩ events after ⟨_, _, held, returned, silent, denials⟩
    cases returned
    refine ends_pure ⟨?_, ?_⟩
    · rw [List.append_nil]
      intro event member
      obtain rfl := denials event member
      refine ⟨trivial, ?_⟩
      intro isLenient
      rw [silent (held.2 isLenient)] at member
      cases member
    · intro exc equal
      cases equal

omit answers in
theorem slot_of_lookupReport {toolName : String} {slot : String → Prop}
    (answered :
      services.tools.Answers (grantsFor services.approvalGate)
        ⟨toolName, [("client", .str flow.clientKey)], flowName⟩
        fun verdict result =>
          slot (workerOutput result) ∧ (lenient → verdict ≠ .denied))
    {started : World σ μ} {own : Report}
    (reported :
      answer
          ((lookupReport flow services (grantsFor services.approvalGate)
            toolName).run started) =
        .ok own) :
    slot own.text := by
  obtain ⟨_, _, verdict, result, held, returned, _⟩ :=
    Turn.execute_ends answered started
  unfold lookupReport at reported
  rw [EStateM.run_bind] at reported
  cases ran :
      (Turn.execute services ⟨toolName, [("client", .str flow.clientKey)], flowName⟩
        (grantsFor services.approvalGate)).run started with
  | error exc after =>
      rw [ran] at returned
      cases returned
  | ok observed after =>
      rw [ran] at returned reported
      cases returned
      cases reported
      exact held.1

include answers

theorem confined_mcpTool_of_answers (name : String) (arguments : Arguments) :
    Confined (Only (Interaction.Accounted lenient runtime request slots))
      (fun exc => lenient → exc.Ordinary)
      (mcpTool flow services name arguments) := by
  by_cases isLenient : lenient
  · have passes := answers.searched isLenient name arguments
    unfold mcpTool
    rw [passes]
    intro before
    have passed :
        (attempt (Turn.outside (pure ())) : Turn σ μ (Except TurnExc Unit)).run
            before =
          .ok (.ok ()) before :=
      rfl
    refine ends_bind_of_ok passed (List.append_nil _).symm ?_
    exact Turn.confined_outside allows_accounted _ before
  · have vacuous : ∀ {event : Interaction}, lenient → event.Quiet :=
      fun holds => absurd holds isLenient
    have admits : AdmitsFlow (Interaction.Accounted lenient runtime request slots) :=
      ⟨admitsRuns_accounted, fun _ => ⟨trivial, vacuous⟩,
        fun _ _ => ⟨trivial, vacuous⟩⟩
    exact confined_mcpTool allows_accounted admits flow services name arguments

theorem confined_workers_of_answers (worker : Worker) :
    Confined (Only (Interaction.Accounted lenient runtime request slots))
      (fun exc => lenient → exc.Ordinary)
      (workers host flow request services worker) := by
  cases worker with
  | account => exact confined_toolWorker_of_answers runtime request answers.account
  | meeting => exact confined_toolWorker_of_answers runtime request answers.meeting
  | retrieval =>
      apply
        confined_bind
          (Agent.confined_run allows_accounted (admitsRuns_accounted .retrieval) host
            none flow.retrievalModel
            (confined_mcpTool_of_answers answers runtime request)
            ⟨trivial, fun _ => trivial⟩)
      exact fun _ => confined_pure _

/-- What a worker reports fits its slot. -/
theorem slot_of_report {worker : Worker} {started : World σ μ} {own : Report}
    (reported :
      answer
          ((report host flow services (grantsFor services.approvalGate) request
            worker).run started) =
        .ok own) :
    slots worker own.text := by
  cases worker with
  | account => exact slot_of_lookupReport answers.account reported
  | meeting => exact slot_of_lookupReport answers.meeting reported
  | retrieval => exact answers.retrieved own.text

/-- Whatever the fan-out gathers fits the slots. -/
theorem slots_of_gather {before after : World σ μ} {gathered : Worker → String}
    (gathers :
      (gather flow (workers host flow request services)).run before =
        .ok gathered after)
    (worker : Worker) : slots worker (gathered worker) := by
  obtain ⟨returned, rfl, _⟩ := gather_returns_iff.mp gathers
  have present :
      worker ∈ (outcomes host flow request services before).map Prod.fst := by
    rw [keys_outcomes.mem_iff]
    cases worker <;> decide
  obtain ⟨⟨_, outcome⟩, member, rfl⟩ := List.mem_map.mp present
  obtain ⟨own, rfl⟩ := returned _ _ member
  obtain ⟨started, ended⟩ := mem_fanOut member
  rw [outputOf_texts nodup_outcomes member]
  exact slot_of_report answers host request ended.symm

theorem confined_run_of_answers (ctx : RunContext) :
    Confined (Only (Interaction.Accounted lenient host.runtime request slots))
      (fun exc => lenient → exc.Ordinary)
      (flow.run host request ctx services) := by
  have gathers : ∀ before : World σ μ,
      Ends World.trace (gather flow (workers host flow request services)) before
        fun outcome events after =>
          Only (Interaction.Accounted lenient host.runtime request slots) before
              events after ∧
            (∀ exc, outcome = .error exc → lenient → exc.Ordinary) ∧
              ∀ gathered, outcome = .ok gathered →
                ∀ worker, slots worker (gathered worker) := by
    intro before
    obtain ⟨events, appended, kept, ordinary⟩ :=
      confined_gather allows_accounted flow
        (confined_workers_of_answers answers host host.runtime request) before
    refine ⟨events, appended, kept, ordinary, ?_⟩
    intro gathered equal
    cases ran : (gather flow (workers host flow request services)).run before with
    | error exc after =>
        rw [ran] at equal
        cases equal
    | ok own after =>
        rw [ran] at equal
        cases equal
        exact slots_of_gather answers host request ran
  rw [run_eq]
  intro before
  apply ends_bind (gathers before)
  · rintro exc events after ⟨kept, ordinary, _⟩
    refine ⟨kept, ?_⟩
    intro other equal
    cases equal
    exact ordinary exc rfl
  · rintro gathered events after ⟨kept, _, slotsFit⟩
    have fits := slotsFit gathered rfl
    have concludes :
        Confined (Only (Interaction.Accounted lenient host.runtime request slots))
          (fun exc => lenient → exc.Ordinary)
          (conclude host flow request ctx services gathered) := by
      apply confined_conclude allows_accounted admitsRuns_accounted
      · exact allowsMemory_accounted services.memory
      · exact fun memory => ⟨⟨gathered, fits, rfl⟩, fun _ => trivial⟩
      · exact fun draft memory => ⟨⟨gathered, draft, fits, rfl⟩, fun _ => trivial⟩
      · exact fun _ => ⟨trivial, fun _ => trivial⟩
    refine (concludes after).mono ?_
    intro outcome later _ concluded
    exact ⟨Composes.append kept concluded.1, concluded.2⟩

end OrchestratorFlow

/-! ## The turn -/

/-- What is left of an ordinary exception after its conversion was raised by outside
code. -/
theorem AgentLoop.confined_convert_ordinary {lenient : Prop}
    {spec : World σ μ → List Interaction → World σ μ → Prop} [Composes spec]
    (exc : TurnExc) :
    Confined spec
      (fun raised => (lenient → exc.Ordinary) → lenient →
        ∃ outside, raised = .outside outside)
      (convert exc : Turn σ μ FlowResult) := by
  cases exc with
  | toolError message =>
      exact confined_throw fun ordinary holds => absurd (ordinary holds) id
  | repeatedFailure message => exact confined_pure _
  | budgetExhausted message => exact confined_pure _
  | outside raised =>
      cases raised with
      | permissionDenied message => exact confined_pure _
      | usageLimitExceeded message => exact confined_throw fun _ _ => ⟨_, rfl⟩
      | other className message => exact confined_throw fun _ _ => ⟨_, rfl⟩

/-- A turn whose tools answer records only what it has to account for, and a turn
whose tools all serve raises only what outside code raises. -/
theorem AgentLoop.turn_accounted {services : HarnessServices σ μ}
    {orchestrator : OrchestratorFlow σ} {lenient : Prop}
    {slots : Worker → String → Prop}
    (answers : ToolsAnswer services orchestrator lenient slots) (host : Host σ)
    (single : SingleAgentFlow σ) (ctx : RunContext) (world : World σ μ) :
    let ran := (harness host single orchestrator).turn ctx services world
    (∀ event ∈ (finalState ran).trace,
        event.Accounted lenient host.runtime ctx.request slots) ∧
      (lenient → SingleAgentFlow.OutsideOnly (answer ran)) := by
  have kept :=
    confined_runTurn_of_flows allows_accounted host services ctx
      (fun exc _ => ⟨exc, rfl⟩) confined_convert_ordinary
      (SingleAgentFlow.confined_run_of_answers answers host host.runtime single ctx
        ctx.request)
      (OrchestratorFlow.confined_run_of_answers answers host ctx.request ctx)
  obtain ⟨events, appended, accounted, outside⟩ := kept world.untraced
  have trace :
      (finalState
        ((harness host single orchestrator).turn ctx services world)).trace =
        events :=
    appended
  refine ⟨?_, ?_⟩
  · rw [trace]
    exact accounted
  · exact fun holds exc equal => outside exc equal holds

end FableHarness
