import Mathlib.Data.List.Duplicate
import FableHarness.Core.RoutedTurn
import FableHarness.Flows.FirstFailure

/-!
# Repeated failures over a whole turn

The detector is there to stop a turn at the second of two equal failures.  The
first failed tool call already leaves the turn with a `RuntimeError`, so the
stop is reached exactly as promised in the turns in which no call fails.
-/

namespace FableHarness

open ExceptionState EventLog

variable {σ μ α : Type}

/-- Raised by outside code, or a budget stop. -/
def TurnExc.Ordinary : TurnExc → Prop
  | .outside _ => True
  | .budgetExhausted _ => True
  | _ => False

namespace SingleAgentFlow

variable (host : Host σ) (flow : SingleAgentFlow σ) (ctx : RunContext)
  (services : HarnessServices σ μ)

/-- The first failed tool call of the flow. -/
def flowFailure (request : String) (world : World σ μ) : Option ToolFailure :=
  match (Turn.recallContext services ctx request).run (resetCounters world) with
  | .error _ _ => none
  | .ok memory recalled =>
      runFailure host services (grantsFor services.approvalGate) flow.model
        (prompt request memory) recalled.env

/-- What the model of the flow may answer. -/
def FlowMayAnswer (request : String) (world : World σ μ) (output : String)
    (messages : List Json) : Prop :=
  ∃ memory recalled,
    (Turn.recallContext services ctx request).run (resetCounters world) =
        .ok memory recalled ∧
      RunMayAnswer host services (grantsFor services.approvalGate) flow.model
        (prompt request memory) recalled.env output messages

/-- Only ordinary exceptions. -/
def OrdinaryOnly (outcome : Except TurnExc α) : Prop :=
  ∀ exc, outcome = .error exc → exc.Ordinary

def BudgetLimited (outcome : Except TurnExc α) : Prop :=
  ∃ message, outcome = .error (.budgetExhausted message)

/-- The agent run returned one of these answers, or an ordinary exception left
it. -/
structure Guarded (mayAnswer : String → List Json → Prop)
    (outcome : Except TurnExc (AgentResult String)) : Prop where
  ordinary : OrdinaryOnly outcome
  answers :
    ∀ result, outcome = .ok result → mayAnswer result.output result.messages

/-- The success that carries a model's answer. -/
def answeredResult (output : String) (messages : List Json) : FlowResult where
  output := some (.text output)
  success := true
  stopReason := "success"
  transcript := messages

/-- The flow returned one of these answers, or an ordinary exception left it. -/
structure Settled (mayAnswer : String → List Json → Prop)
    (outcome : Except TurnExc FlowResult) : Prop where
  ordinary : OrdinaryOnly outcome
  answers :
    ∀ result, outcome = .ok result →
      ∃ output messages,
        mayAnswer output messages ∧ result = answeredResult output messages

theorem ordinaryOnly_error {exc : TurnExc} (ordinary : exc.Ordinary) :
    OrdinaryOnly (.error exc : Except TurnExc α) := by
  intro other equal
  cases equal
  exact ordinary

theorem guarded_error {mayAnswer : String → List Json → Prop} {exc : TurnExc}
    (ordinary : exc.Ordinary) : Guarded mayAnswer (.error exc) :=
  ⟨ordinaryOnly_error ordinary, fun _ equal => by cases equal⟩

theorem settled_error {mayAnswer : String → List Json → Prop} {exc : TurnExc}
    (ordinary : exc.Ordinary) : Settled mayAnswer (.error exc) :=
  ⟨ordinaryOnly_error ordinary, fun _ equal => by cases equal⟩

theorem settled_ok {mayAnswer : String → List Json → Prop} {output : String}
    {messages : List Json} (answers : mayAnswer output messages) :
    Settled mayAnswer (.ok (answeredResult output messages)) := by
  constructor
  · intro exc equal
    cases equal
  · intro result equal
    cases equal
    exact ⟨output, messages, answers, rfl⟩

theorem guardedRun_ends (request : String) (memory : List String)
    (before : World σ μ) (fresh : before.detector = {}) :
    Ends World.trace
      (tryCatch
        (Agent.run host .singleAgent (some services.budget.usageLimits) flow.model
          (tool host services (grantsFor services.approvalGate))
          (prompt request memory) memory)
        convertUsageLimit)
      before
      fun outcome events _ =>
        StopsAt
          (Guarded
            (RunMayAnswer host services (grantsFor services.approvalGate)
              flow.model (prompt request memory) before.env))
          BudgetLimited
          (runFailure host services (grantsFor services.approvalGate) flow.model
            (prompt request memory) before.env)
          outcome events := by
  apply
    ends_tryCatch
      (agentRun_ends host services (grantsFor services.approvalGate) .singleAgent
        (some services.budget.usageLimits) flow.model (prompt request memory)
        memory fresh)
  · intro result events _ stops
    cases stops with
    | calm absent quiet calm =>
        refine .calm absent quiet ⟨?_, calm.answers⟩
        intro exc equal
        cases equal
    | limited quiet limited =>
        obtain ⟨message, limited⟩ := limited
        cases limited
    | failed first before present quiet raised split =>
        cases raised
  · intro exc events after stops
    cases stops with
    | calm absent quiet calm =>
        obtain ⟨raised, equal⟩ := calm.outsideOnly exc rfl
        cases equal
        have stillQuiet : ∀ event ∈ events ++ [], event.Quiet :=
          quiet_append quiet (by simp)
        cases raised with
        | permissionDenied message =>
            exact ends_throw (.calm absent stillQuiet (guarded_error trivial))
        | usageLimitExceeded message =>
            exact ends_throw (.calm absent stillQuiet (guarded_error trivial))
        | other className message =>
            exact ends_throw (.calm absent stillQuiet (guarded_error trivial))
    | limited quiet limited =>
        obtain ⟨message, limited⟩ := limited
        cases limited
        refine ends_throw (.limited (quiet_append quiet (by simp)) ⟨message, rfl⟩)
    | failed first before present quiet raised split =>
        cases raised
        refine ends_throw (.failed first before present quiet rfl ?_)
        rw [List.append_nil, split]

theorem finish_emits (request : String) (result : AgentResult String)
    {mayAnswer : String → List Json → Prop}
    (answers : mayAnswer result.output result.messages) :
    Emits World.trace
      (do
        settleBudget host services result.usage
        rememberTurn host flow ctx services request result.output
        return {
          output := some (.text result.output)
          success := true
          stopReason := "success"
          transcript := result.messages } : Turn σ μ FlowResult)
      fun outcome events =>
        (∀ event ∈ events, event.Quiet) ∧ Settled mayAnswer outcome := by
  have allows :
      Allows (Only Interaction.Quiet : World σ μ → _ → World σ μ → Prop)
        TurnExc.Ordinary Interaction.Quiet :=
    allows_only fun _ => trivial
  have admits : Agent.AdmitsRuns Interaction.Quiet .extraction :=
    ⟨fun _ _ => trivial, trivial, fun _ => trivial⟩
  apply
    emits_confined_bind
      (confined_settleBudget allows (fun _ _ => by simp [Only]) (fun _ => trivial)
        host services result.usage)
      (fun _ ordinary => settled_error ordinary)
  intro _
  apply
    emits_confined_bind
      (confined_rememberTurn allows admits (fun _ => trivial) host flow ctx
        (allowsMemory_only (fun _ => trivial) services.memory) request result.output)
      (fun _ ordinary => settled_error ordinary)
  intro _
  apply emits_pure
  exact ⟨by simp, settled_ok answers⟩

theorem run_ends (request : String) (before : World σ μ) :
    Ends World.trace (run host flow request ctx services) before
      fun outcome events _ =>
        StopsAt
          (Settled (FlowMayAnswer host flow ctx services request before))
          BudgetLimited
          (flowFailure host flow ctx services request before) outcome events := by
  unfold run flowFailure
  refine
    ends_bind_of_ok (run_resetCounters before) (List.append_nil _).symm ?_
  rcases Turn.run_recallContext services ctx request (resetCounters before) with
    ⟨memory, backend, recalled⟩ | ⟨exc, backend, recalled⟩
  · rw [recalled]
    refine ends_bind_of_ok recalled (List.append_nil _).symm ?_
    have guarded :=
      guardedRun_ends host flow services request memory
        { resetCounters before with memory := backend } rfl
    have answers :
        ∀ output messages,
          RunMayAnswer host services (grantsFor services.approvalGate) flow.model
              (prompt request memory) (resetCounters before).env output messages →
            FlowMayAnswer host flow ctx services request before output messages :=
      fun _ _ mayAnswer => ⟨memory, _, recalled, mayAnswer⟩
    refine
      stops_bind guarded ?_ (fun exc calm => settled_error (calm.ordinary exc rfl))
        ?_ fun result calm =>
          finish_emits host flow ctx services request result
            (answers _ _ (calm.answers result rfl))
    · intro result ⟨message, limited⟩
      cases limited
    · intro exc ⟨message, limited⟩
      cases limited
      exact ⟨message, rfl⟩
  · rw [recalled]
    refine ends_bind_of_error recalled (List.append_nil _).symm ?_
    exact .calm rfl (by simp) (settled_error trivial)

/-! ## The turn -/

/-- What the model may answer in a turn of the single agent. -/
def TurnMayAnswer (world : World σ μ) (output : String) (messages : List Json) :
    Prop :=
  ∃ decision routed,
    (AgentLoop.route ctx services).run world.untraced = .ok decision routed ∧
      FlowMayAnswer host flow ctx services ctx.request routed output messages

/-- Outside code raised this inside the flow. -/
def FlowRaises (request : String) (world : World σ μ) (exc : PyExc) : Prop :=
  answer ((run host flow request ctx services).run world) = .error (.outside exc)

/-- Outside code raised this inside the flow of a turn of the single agent. -/
def TurnRaises (world : World σ μ) (exc : PyExc) : Prop :=
  ∃ decision routed,
    (AgentLoop.route ctx services).run world.untraced = .ok decision routed ∧
      FlowRaises host flow ctx services ctx.request routed exc

/-- The first failed tool call of a turn of the single agent. -/
def turnFailure (world : World σ μ) : Option ToolFailure :=
  match (AgentLoop.route ctx services).run world.untraced with
  | .error _ _ => none
  | .ok _ routed => flowFailure host flow ctx services ctx.request routed

end SingleAgentFlow

/-- A result was returned with this stop reason. -/
def StopsWith (reason : String) (outcome : Except TurnExc FlowResult) : Prop :=
  ∃ result, outcome = .ok result ∧ result.stopReason = reason

namespace SingleAgentFlow

/-- How `run_turn` ends when outside code raised this inside a flow. -/
def leaves : PyExc → Except TurnExc FlowResult
  | .permissionDenied message =>
      .ok ⟨some (.text message), false, "permission_denied", []⟩
  | exc => .error (.outside exc)

/-- A turn that no failed tool call ended: it returns one of these answers, unless
outside code raised one of these exceptions. -/
def Unaborted (mayAnswer : String → List Json → Prop) (raises : PyExc → Prop)
    (outcome : Except TurnExc FlowResult) : Prop :=
  (∃ exc, raises exc ∧ outcome = leaves exc) ∨
    ∃ output messages,
      mayAnswer output messages ∧ outcome = .ok (answeredResult output messages)

/-- Such a turn was not stopped on a repeated failure. -/
theorem not_stopsWith_of_unaborted {mayAnswer : String → List Json → Prop}
    {raises : PyExc → Prop} {outcome : Except TurnExc FlowResult}
    (unaborted : Unaborted mayAnswer raises outcome) :
    ¬ StopsWith "repeated_failure" outcome := by
  intro ⟨result, returned, repeated⟩
  rcases unaborted with ⟨exc, _, left⟩ | ⟨output, messages, _, answered⟩
  · rw [left] at returned
    cases exc with
    | permissionDenied message =>
        cases returned
        have same : "permission_denied" = "repeated_failure" := repeated
        exact absurd same (by decide)
    | usageLimitExceeded message => cases returned
    | other className message => cases returned
  · rw [answered] at returned
    cases returned
    have same : "success" = "repeated_failure" := repeated
    exact absurd same (by decide)

/-- The exception of a failed tool call is not the exit of outside code. -/
theorem not_unaborted_toolError (mayAnswer : String → List Json → Prop)
    (raises : PyExc → Prop) (message : String) :
    ¬ Unaborted mayAnswer raises (.error (.toolError message)) := by
  intro unaborted
  rcases unaborted with ⟨exc, _, left⟩ | ⟨output, messages, _, answered⟩
  · cases exc <;> cases left
  · cases answered

variable (host : Host σ) (flow : SingleAgentFlow σ) (ctx : RunContext)
  (services : HarnessServices σ μ)

theorem convertedRun_ends (request : String) (before : World σ μ) :
    Ends World.trace
      (tryCatch (run host flow request ctx services) AgentLoop.convert) before
      fun outcome events _ =>
        StopsAt
          (Unaborted (FlowMayAnswer host flow ctx services request before)
            (FlowRaises host flow ctx services request before))
          (StopsWith "budget_exhausted")
          (flowFailure host flow ctx services request before) outcome events := by
  apply ends_tryCatch (run_ends host flow ctx services request before).with_answer
  · intro result events _ ⟨stops, _⟩
    cases stops with
    | calm absent quiet calm =>
        obtain ⟨output, messages, answers, same⟩ := calm.answers result rfl
        rw [same]
        exact .calm absent quiet (.inr ⟨output, messages, answers, rfl⟩)
    | limited quiet limited =>
        obtain ⟨message, limited⟩ := limited
        cases limited
    | failed first before present quiet raised split =>
        cases raised
  · intro exc events after ⟨stops, same⟩
    cases stops with
    | calm absent quiet calm =>
        have ordinary := calm.ordinary exc rfl
        have stillQuiet : ∀ event ∈ events ++ [], event.Quiet :=
          quiet_append quiet (by simp)
        cases exc with
        | toolError message => exact absurd ordinary id
        | repeatedFailure message => exact absurd ordinary id
        | budgetExhausted message =>
            exact ends_pure (.limited stillQuiet ⟨_, rfl, rfl⟩)
        | outside raised =>
            -- Only `PermissionDenied` has a clause of its own in `run_turn`.
            cases raised with
            | permissionDenied message =>
                exact
                  ends_pure
                    (.calm absent stillQuiet (.inl ⟨.permissionDenied message, same.symm, rfl⟩))
            | usageLimitExceeded message =>
                exact
                  ends_throw
                    (.calm absent stillQuiet (.inl ⟨.usageLimitExceeded message, same.symm, rfl⟩))
            | other className message =>
                exact
                  ends_throw
                    (.calm absent stillQuiet (.inl ⟨.other className message, same.symm, rfl⟩))
    | limited quiet limited =>
        obtain ⟨message, limited⟩ := limited
        cases limited
        exact
          ends_pure (.limited (quiet_append quiet (by simp)) ⟨_, rfl, rfl⟩)
    | failed first before present quiet raised split =>
        cases raised
        refine ends_throw (.failed first before present quiet rfl ?_)
        rw [List.append_nil, split]

/-- How a turn of the single agent ends, by its first failed tool call. -/
theorem turn_stops (orchestrator : OrchestratorFlow σ) {world : World σ μ}
    (targeted :
      (AgentLoop.harness host flow orchestrator).target ctx services world =
        some flowName) :
    StopsAt
      (Unaborted (TurnMayAnswer host flow ctx services world)
        (TurnRaises host flow ctx services world))
      (StopsWith "budget_exhausted")
      (turnFailure host flow ctx services world)
      (answer
        ((AgentLoop.harness host flow orchestrator).turn ctx services world))
      (finalState
        ((AgentLoop.harness host flow orchestrator).turn ctx services world)).trace
    := by
  obtain ⟨other, decision, env, metadata, found, routed, turnEnds⟩ :=
    AgentLoop.exists_routed targeted
  rcases AgentLoop.get?_harnessFlows found with ⟨_, same⟩ | ⟨different, _⟩
  · unfold turnFailure
    rw [routed]
    apply turnEnds
    rw [same]
    refine (convertedRun_ends host flow ctx services ctx.request _).mono ?_
    intro outcome events _ stops
    refine stops.mono_calm ?_
    intro unaborted
    rcases unaborted with ⟨exc, raises, left⟩ | ⟨output, messages, answers, answered⟩
    · exact .inl ⟨exc, ⟨decision, _, routed, raises⟩, left⟩
    · exact .inr ⟨output, messages, ⟨decision, _, routed, answers⟩, answered⟩
  · exact absurd different (by decide)

end SingleAgentFlow

/-! ## The stop that the detector promises -/

/-- The failed tool calls of a turn, with their errors. -/
def failuresIn (trace : List Interaction) : List (ToolCall × Option String) :=
  trace.filterMap fun event =>
    match event with
    | .callFailed call error => some (call, error)
    | _ => none

/-- A turn stops on a repeated failure and on no other. -/
structure StopsOnRepetition (mayAnswer : String → List Json → Prop)
    (raises : PyExc → Prop) (outcome : Except TurnExc FlowResult)
    (trace : List Interaction) : Prop where
  stops_iff :
    StopsWith "repeated_failure" outcome ↔
      ∃ failure, List.Duplicate failure (failuresIn trace)
  /-- Pairwise different failures do not end it: it returns the model's answer,
  unless outside code raised something. -/
  goesOn :
    (failuresIn trace).Nodup → SingleAgentFlow.Unaborted mayAnswer raises outcome

theorem failuresIn_of_quiet {trace : List Interaction}
    (quiet : ∀ event ∈ trace, event.Quiet) : failuresIn trace = [] := by
  rw [failuresIn, List.filterMap_eq_nil_iff]
  intro event member
  cases event with
  | callFailed call error => exact absurd (quiet _ member) id
  | _ => rfl

theorem failuresIn_events (first : ToolFailure) :
    failuresIn first.events = [(first.call, first.result.error)] := by
  unfold ToolFailure.events
  split
  · rfl
  · rfl

/-- In a turn of the single agent that no budget stops, the promise is kept
exactly if no tool call fails. -/
theorem repeated_failure_stops_turn_iff (host : Host σ)
    (single : SingleAgentFlow σ) (orchestrator : OrchestratorFlow σ)
    (ctx : RunContext) (services : HarnessServices σ μ) (world : World σ μ)
    (targeted :
      (AgentLoop.harness host single orchestrator).target ctx services world =
        some SingleAgentFlow.flowName)
    (withinBudget :
      ¬ StopsWith "budget_exhausted"
        (answer
          ((AgentLoop.harness host single orchestrator).turn ctx services world))) :
    StopsOnRepetition
        (SingleAgentFlow.TurnMayAnswer host single ctx services world)
        (SingleAgentFlow.TurnRaises host single ctx services world)
        (answer
          ((AgentLoop.harness host single orchestrator).turn ctx services world))
        (finalState
          ((AgentLoop.harness host single orchestrator).turn ctx services
            world)).trace ↔
      SingleAgentFlow.turnFailure host single ctx services world = none := by
  have stops :=
    SingleAgentFlow.turn_stops host single ctx services orchestrator targeted
  cases stops with
  | calm absent quiet calm =>
      refine iff_of_true ⟨?_, fun _ => calm⟩ absent
      rw [failuresIn_of_quiet quiet]
      refine iff_of_false (SingleAgentFlow.not_stopsWith_of_unaborted calm) ?_
      intro ⟨failure, duplicate⟩
      cases duplicate
  | limited quiet limited => exact absurd limited withinBudget
  | failed first before present quiet raised split =>
      refine iff_of_false ?_ (by rw [present]; simp)
      intro kept
      have single :
          failuresIn
              (finalState
                ((AgentLoop.harness host single orchestrator).turn ctx services
                  world)).trace =
            [(first.call, first.result.error)] := by
        have ahead := failuresIn_of_quiet quiet
        have own := failuresIn_events first
        unfold failuresIn at ahead own ⊢
        rw [split, List.filterMap_append, ahead, own, List.nil_append]
      have unaborted := kept.goesOn (by rw [single]; simp)
      rw [raised] at unaborted
      exact SingleAgentFlow.not_unaborted_toolError _ _ _ unaborted

/-! ## A turn with one call of `echo` -/

namespace EchoTurn

/-- The model calls `echo` once and then answers. -/
def single : SingleAgentFlow Unit where
  model _ :=
    pure <|
      .call {} "echo" [("text", .str "hello")] fun _ => .answer {} "done" []

def echo (tier : RiskTier) (body : Py Unit String) : ToolSpec Unit where
  name := "echo"
  riskTier := tier
  handler := ⟨fun _ => none, fun _ => body⟩

def services (spec : ToolSpec Unit) : HarnessServices Unit Unit where
  tools := InMemoryToolRegistry.register {} spec
  memory := nullMemoryStore Unit
  budget := { budget := {}, modelId := "model", start := 0 }

abbrev loop : AgentLoop Unit Unit := .harness Idle.host single Idle.orchestrator

def turn (spec : ToolSpec Unit) :
    EStateM.Result TurnExc (World Unit Unit) FlowResult :=
  loop.turn Idle.ctx (services spec) Idle.world

/-- The tool always fails. -/
def failing : ToolSpec Unit := echo .readOnly (throw (.other "OSError" "boom"))

/-- The tool works. -/
def working : ToolSpec Unit := echo .readOnly (pure "hello")

end EchoTurn

/-- One failed call, no second one, and the turn is over with a `RuntimeError`
although the model would have answered. -/
theorem one_failed_call_aborts_turn :
    EchoTurn.loop.target Idle.ctx (EchoTurn.services EchoTurn.failing) Idle.world =
        some SingleAgentFlow.flowName ∧
      (failuresIn (finalState (EchoTurn.turn EchoTurn.failing)).trace).length = 1 ∧
      SingleAgentFlow.TurnMayAnswer Idle.host EchoTurn.single Idle.ctx
        (EchoTurn.services EchoTurn.failing) Idle.world "done" [] ∧
      answer (EchoTurn.turn EchoTurn.failing) = .error (.toolError "boom") ∧
      ¬ StopsOnRepetition
          (SingleAgentFlow.TurnMayAnswer Idle.host EchoTurn.single Idle.ctx
            (EchoTurn.services EchoTurn.failing) Idle.world)
          (SingleAgentFlow.TurnRaises Idle.host EchoTurn.single Idle.ctx
            (EchoTurn.services EchoTurn.failing) Idle.world)
          (answer (EchoTurn.turn EchoTurn.failing))
          (finalState (EchoTurn.turn EchoTurn.failing)).trace := by
  have one :
      (failuresIn (finalState (EchoTurn.turn EchoTurn.failing)).trace).length = 1 :=
    rfl
  have aborted :
      answer (EchoTurn.turn EchoTurn.failing) = .error (.toolError "boom") :=
    rfl
  have answers :
      SingleAgentFlow.TurnMayAnswer Idle.host EchoTurn.single Idle.ctx
        (EchoTurn.services EchoTurn.failing) Idle.world "done" [] :=
    ⟨_, _, rfl, _, _, rfl, _, _, rfl, .failed (.value "boom") () rfl (.answer ..)⟩
  refine ⟨rfl, one, answers, aborted, ?_⟩
  intro kept
  obtain ⟨failure, single⟩ := List.length_eq_one_iff.mp one
  have unaborted := kept.goesOn (by rw [single]; simp)
  rw [aborted] at unaborted
  exact SingleAgentFlow.not_unaborted_toolError _ _ _ unaborted

/-- A turn whose tool works keeps the promise. -/
theorem working_call_keeps_promise :
    StopsOnRepetition
      (SingleAgentFlow.TurnMayAnswer Idle.host EchoTurn.single Idle.ctx
        (EchoTurn.services EchoTurn.working) Idle.world)
      (SingleAgentFlow.TurnRaises Idle.host EchoTurn.single Idle.ctx
        (EchoTurn.services EchoTurn.working) Idle.world)
      (answer (EchoTurn.turn EchoTurn.working))
      (finalState (EchoTurn.turn EchoTurn.working)).trace := by
  have returned : ¬ StopsWith "budget_exhausted"
      (answer (EchoTurn.turn EchoTurn.working)) := by
    intro ⟨result, equal, reason⟩
    cases equal
    exact absurd reason (by decide)
  exact
    (repeated_failure_stops_turn_iff Idle.host EchoTurn.single Idle.orchestrator
      Idle.ctx (EchoTurn.services EchoTurn.working) Idle.world rfl returned).mpr rfl

end FableHarness
