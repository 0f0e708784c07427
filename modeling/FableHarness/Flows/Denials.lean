import FableHarness.Flows.RepeatedFailure

/-!
# Denials inside a turn

A denial of the approval gate reaches the orchestrator's in-process workers as
data and leaves its retrieval agent as the `PermissionDenied` that `run_turn`
converts.  In the single-agent flow it becomes a failed result, and then a
`RuntimeError` that nothing converts.
-/

namespace FableHarness

open ExceptionState EventLog SingleAgentFlow

variable {σ μ : Type}

/-- The result of a flow that went on, or of a turn that a denial stopped. -/
def FlowResult.Continues (result : FlowResult) : Prop :=
  (∃ output, result = ⟨some output, true, "success", result.transcript⟩) ∨
    ∃ message, result = ⟨some (.text message), false, "permission_denied", []⟩

/-- What becomes of a denial: the turn goes on or is stopped with a result. -/
structure DenialContained (outcome : Except TurnExc FlowResult)
    (trace : List Interaction) : Prop where
  /-- The turn returns, unless outside code raises something else. -/
  returns : ∀ exc, outcome = .error exc → exc.Foreign
  /-- It returns the success of the flow or the stop on a denial. -/
  continues : ∀ result, outcome = .ok result → result.Continues
  /-- What leaves the turn was not raised on a denial. -/
  unrelated :
    ∀ call exc, .raisedOnDenial call exc ∈ trace → outcome ≠ .error exc

/-! ## The single-agent flow -/

theorem denied_of_callDenied_mem {first : ToolFailure} {call : ToolCall}
    (denied : .callDenied call ∈ first.events) : first.verdict = .denied := by
  unfold ToolFailure.events at denied
  by_cases verdict : first.verdict = .denied
  · exact verdict
  · simp [verdict] at denied

theorem raisedOnDenial_mem_events {first : ToolFailure}
    (denied : first.verdict = .denied) :
    .raisedOnDenial first.call first.exc ∈ first.events := by
  unfold ToolFailure.events
  simp [denied]

/-- A run with a denied call that stopped at its first failure did not contain
the denial. -/
theorem not_denialContained_of_stopsAt
    {calm limited : Except TurnExc FlowResult → Prop}
    {failure : Option ToolFailure} {outcome : Except TurnExc FlowResult}
    {trace : List Interaction} {call : ToolCall}
    (stops : StopsAt calm limited failure outcome trace)
    (denied : .callDenied call ∈ trace) :
    ¬ DenialContained outcome trace := by
  intro contained
  cases stops with
  | calm absent quiet calm => exact quiet _ denied
  | limited quiet limited => exact quiet _ denied
  | failed first before present quiet raised split =>
      rw [split, List.mem_append] at denied
      rcases denied with early | own
      · exact quiet _ early
      · have verdict := denied_of_callDenied_mem own
        have recorded : .raisedOnDenial first.call first.exc ∈ trace := by
          rw [split]
          exact List.mem_append_right before (raisedOnDenial_mem_events verdict)
        exact contained.unrelated first.call first.exc recorded raised

/-! ## The orchestrator flow -/

/-- An exception raised on a denial is a `PermissionDenied`. -/
def Interaction.DeniesByPermission : Interaction → Prop
  | .raisedOnDenial _ exc =>
      ∃ message, exc = .outside (.permissionDenied message)
  | _ => True

/-- Only outside code raises out of the orchestrator flow. -/
theorem OrchestratorFlow.confined_deniesByPermission (host : Host σ)
    (orchestrator : OrchestratorFlow σ) (request : String) (ctx : RunContext)
    (services : HarnessServices σ μ) :
    Confined (Only Interaction.DeniesByPermission)
      (fun exc => ∃ raised, exc = .outside raised)
      (orchestrator.run host request ctx services) := by
  have allows :
      Allows
        (Only Interaction.DeniesByPermission : World σ μ → _ → World σ μ → Prop)
        (fun exc => ∃ raised, exc = .outside raised)
        Interaction.DeniesByPermission :=
    allows_only fun exc => ⟨exc, rfl⟩
  have admits :
      OrchestratorFlow.AdmitsFlow Interaction.DeniesByPermission := by
    constructor
    · exact fun _ => ⟨fun _ _ => trivial, trivial, fun _ => trivial⟩
    · exact fun _ => trivial
    · exact fun _ message => ⟨message, rfl⟩
  exact
    OrchestratorFlow.confined_run allows admits host orchestrator request ctx
      (allowsMemory_only (fun _ => trivial) services.memory)
      (fun _ _ _ => trivial)

theorem OrchestratorFlow.confined_converted (host : Host σ)
    (orchestrator : OrchestratorFlow σ) (request : String) (ctx : RunContext)
    (services : HarnessServices σ μ) :
    Confined (Only Interaction.DeniesByPermission) TurnExc.Foreign
      (tryCatch (orchestrator.run host request ctx services)
        AgentLoop.convert) :=
  confined_tryCatch
    (OrchestratorFlow.confined_deniesByPermission host orchestrator request ctx
      services)
    AgentLoop.confined_convert

/-- Whatever the orchestrator flow returns is a success. -/
theorem OrchestratorFlow.continues_of_run {host : Host σ}
    {orchestrator : OrchestratorFlow σ} {request : String} {ctx : RunContext}
    {services : HarnessServices σ μ} {result : FlowResult}
    {before after : World σ μ}
    (returned :
      (orchestrator.run host request ctx services).run before =
        .ok result after) : result.Continues := by
  unfold OrchestratorFlow.run at returned
  obtain ⟨gathered, _, _, returned⟩ := run_bind_eq_ok.mp returned
  obtain ⟨memory, _, _, returned⟩ := run_bind_eq_ok.mp returned
  obtain ⟨draft, _, _, returned⟩ := run_bind_eq_ok.mp returned
  obtain ⟨synthesis, _, _, returned⟩ := run_bind_eq_ok.mp returned
  obtain ⟨_, _, _, returned⟩ := run_bind_eq_ok.mp returned
  cases returned
  exact .inl ⟨.synthesis synthesis, rfl⟩

/-- Of what outside code raises, `run_turn` makes a result only for a denial. -/
theorem continues_of_convert {raised : PyExc} {result : FlowResult}
    {before after : World σ μ}
    (returned :
      (AgentLoop.convert (.outside raised) : Turn σ μ FlowResult).run before =
        .ok result after) : result.Continues := by
  cases raised with
  | permissionDenied message =>
      cases returned
      exact .inr ⟨message, rfl⟩
  | usageLimitExceeded message => cases returned
  | other className message => cases returned

theorem OrchestratorFlow.continues_of_converted {host : Host σ}
    {orchestrator : OrchestratorFlow σ} {request : String} {ctx : RunContext}
    {services : HarnessServices σ μ} {result : FlowResult}
    {before : World σ μ}
    (returned :
      answer
          ((tryCatch (orchestrator.run host request ctx services)
            AgentLoop.convert).run before) =
        .ok result) : result.Continues := by
  obtain ⟨_, _, _, raises⟩ :=
    OrchestratorFlow.confined_deniesByPermission host orchestrator request ctx
      services before
  rw [run_tryCatch] at returned
  cases ran : (orchestrator.run host request ctx services).run before with
  | ok own after =>
      simp only [ran] at returned
      cases returned
      exact continues_of_run ran
  | error exc after =>
      rw [ran] at raises
      obtain ⟨raised, rfl⟩ := raises exc rfl
      cases converted :
          (AgentLoop.convert (.outside raised) : Turn σ μ FlowResult).run after with
      | ok own last =>
          simp only [ran, converted] at returned
          cases returned
          exact continues_of_convert converted
      | error other last =>
          simp only [ran, converted] at returned
          cases returned

theorem denialContained_of_confined {outcome : Except TurnExc FlowResult}
    {trace : List Interaction}
    (denies : ∀ event ∈ trace, event.DeniesByPermission)
    (foreign : ∀ exc, outcome = .error exc → exc.Foreign)
    (continues : ∀ result, outcome = .ok result → result.Continues) :
    DenialContained outcome trace := by
  refine ⟨foreign, continues, ?_⟩
  intro call exc recorded raised
  obtain ⟨message, permission⟩ := denies _ recorded
  obtain ⟨other, outside, notPermission⟩ := foreign exc raised
  rw [permission] at outside
  cases outside
  cases notPermission

/-! ## Every turn -/

/-- In a turn with a denied call, the denial is contained exactly if the turn is
not one of the single-agent flow. -/
theorem denial_contained_iff (host : Host σ) (single : SingleAgentFlow σ)
    (orchestrator : OrchestratorFlow σ) (ctx : RunContext)
    (services : HarnessServices σ μ) (world : World σ μ) (call : ToolCall)
    (denied :
      .callDenied call ∈
        (finalState
          ((AgentLoop.harness host single orchestrator).turn ctx services
            world)).trace) :
    DenialContained
        (answer
          ((AgentLoop.harness host single orchestrator).turn ctx services world))
        (finalState
          ((AgentLoop.harness host single orchestrator).turn ctx services
            world)).trace ↔
      (AgentLoop.harness host single orchestrator).target ctx services world ≠
        some SingleAgentFlow.flowName := by
  constructor
  · intro contained targeted
    have stops :=
      SingleAgentFlow.turn_stops host single ctx services orchestrator targeted
    exact not_denialContained_of_stopsAt stops denied contained
  · intro elsewhere
    cases targeted :
        (AgentLoop.harness host single orchestrator).target ctx services world with
    | none =>
        rw [AgentLoop.trace_of_no_target targeted] at denied
        cases denied
    | some name =>
        obtain ⟨flow, decision, env, metadata, found, routed, turnEnds⟩ :=
          AgentLoop.exists_routed targeted
        rcases AgentLoop.get?_harnessFlows found with ⟨same, _⟩ | ⟨_, same⟩
        · rw [same] at targeted
          exact absurd targeted elsewhere
        · apply turnEnds
          rw [same]
          have confined :=
            OrchestratorFlow.confined_converted host orchestrator ctx.request ctx
              services { world.untraced with env, metadata }
          apply confined.with_answer.mono
          intro outcome events _ ⟨holds, answered⟩
          refine denialContained_of_confined holds.1 holds.2 ?_
          intro result returned
          rw [answered] at returned
          exact OrchestratorFlow.continues_of_converted returned

/-! ## Turns with a denied call -/

/-- A gate that denies read-only tools. -/
def denyingGate : ApprovalGate Unit where
  matrix := ⟨.ofList [(.readOnly, .deny)]⟩

/-- The services of a single agent whose `echo` is denied. -/
def deniedServices : HarnessServices Unit Unit :=
  { EchoTurn.services EchoTurn.working with approvalGate := some denyingGate }

def deniedTurn : EStateM.Result TurnExc (World Unit Unit) FlowResult :=
  EchoTurn.loop.turn Idle.ctx deniedServices Idle.world

def echoCall : ToolCall :=
  ⟨"echo", [("text", .str "hello")], SingleAgentFlow.flowName⟩

/-- The denial of an `echo` leaves `run_turn` as a `RuntimeError`. -/
theorem denied_echo_escapes_turn :
    .callDenied echoCall ∈ (finalState deniedTurn).trace ∧
      answer deniedTurn =
        .error (.toolError (ApprovalGate.notAllowed echoCall .readOnly).message) ∧
      ¬ DenialContained (answer deniedTurn) (finalState deniedTurn).trace := by
  have escaped :
      answer deniedTurn =
        .error (.toolError (ApprovalGate.notAllowed echoCall .readOnly).message) :=
    rfl
  have third :
      (finalState deniedTurn).trace[2]? = some (.callDenied echoCall) :=
    rfl
  have denied := List.mem_of_getElem? third
  refine ⟨denied, escaped, ?_⟩
  intro contained
  obtain ⟨raised, outside, _⟩ := contained.returns _ escaped
  cases outside

/-- The same gate in a turn of the orchestrator. -/
def orchestratorServices : HarnessServices Unit Unit :=
  { deniedServices with
    tools :=
      InMemoryToolRegistry.register {}
        { EchoTurn.working with name := "account_lookup" }
    router := some (staticRouter .flow "orchestrator") }

def Interaction.isDenial : Interaction → Bool
  | .callDenied _ => true
  | _ => false

theorem exists_callDenied_of_any {trace : List Interaction}
    (reached : trace.any Interaction.isDenial = true) :
    ∃ call, .callDenied call ∈ trace := by
  obtain ⟨event, member, denial⟩ := List.any_eq_true.mp reached
  cases event with
  | callDenied call => exact ⟨call, member⟩
  | _ => cases denial

/-- The lookup is denied and the turn goes on. -/
theorem denied_lookup_stays_in_turn :
    DenialContained
      (answer (EchoTurn.loop.turn Idle.ctx orchestratorServices Idle.world))
      (finalState
        (EchoTurn.loop.turn Idle.ctx orchestratorServices Idle.world)).trace := by
  have reached :
      ((finalState
        (EchoTurn.loop.turn Idle.ctx orchestratorServices
          Idle.world)).trace.any Interaction.isDenial) = true := by
    decide +kernel
  obtain ⟨call, denied⟩ := exists_callDenied_of_any reached
  have elsewhere :
      EchoTurn.loop.target Idle.ctx orchestratorServices Idle.world ≠
        some SingleAgentFlow.flowName := by
    have orchestrated :
        EchoTurn.loop.target Idle.ctx orchestratorServices Idle.world =
          some OrchestratorFlow.flowName :=
      rfl
    rw [orchestrated]
    decide
  exact
    (denial_contained_iff Idle.host EchoTurn.single Idle.orchestrator Idle.ctx
      orchestratorServices Idle.world call denied).mpr elsewhere

end FableHarness
