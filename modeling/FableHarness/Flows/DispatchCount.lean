import FableHarness.Flows.BudgetCeiling
import FableHarness.Flows.LedgerAgreement

/-!
# The two counts of tool calls

The single-agent flow counts its dispatches beside the agent library, which
counts the calls that returned.  A dispatch that does not return a value raises
out of the agent run (nothing in it raises the library's retry signal), so the two
counts agree whenever the run returns.
-/

namespace FableHarness

open ExceptionState EventLog

variable {σ μ α : Type}

/-- A program that returns has left the dispatch count alone. -/
abbrev KeepsCount (program : Turn σ μ α) : Prop :=
  Returns World.trace program fun before _ _ after =>
    after.callCount = before.callCount

namespace Turn

theorem keepsCount_outside (program : Py σ α) :
    KeepsCount (outside program : Turn σ μ α) := by
  apply returns_of_silent
  · intro before
    rw [run_outside]
    cases program.run before.env <;> rfl
  · intro before value after returned
    rw [run_outside] at returned
    cases ran : program.run before.env with
    | ok answered env =>
        rw [ran] at returned
        cases returned
        rfl
    | error exc env =>
        rw [ran] at returned
        cases returned

theorem keepsCount_record (event : Interaction) :
    KeepsCount (record event : Turn σ μ Unit) := by
  intro before
  refine ends_of_ok rfl rfl ?_
  intro value equal
  rfl

theorem keepsCount_execute (services : HarnessServices σ μ) (call : ToolCall)
    (grants : PermissionGrants σ) : KeepsCount (execute services call grants) := by
  apply returns_bind (keepsCount_outside _)
  intro (verdict, result)
  by_cases denied : verdict = .denied
  · simp only [denied, if_true]
    apply returns_bind (keepsCount_record _)
    intro _
    apply returns_pure
    intro last middle recording recorded before executing executed
    exact recorded.trans executed
  · simp only [denied, if_false]
    apply returns_pure
    intro last before executing executed
    exact executed

end Turn

namespace SingleAgentFlow

/-- How many dispatches a reply of a tool function stands for. -/
def dispatchesOf : ToolReply → Nat
  | .value _ => 1
  | .retry _ => 0

/-- Where `_dispatch` returns, it returns a value. -/
theorem answerCall_returns (host : Host σ) (call : ToolCall) (verdict : Verdict)
    (result : ToolResult) :
    Returns World.trace
      (answerCall host call verdict result : Turn σ μ ToolReply)
      fun before reply _ after =>
        after.callCount = before.callCount ∧ dispatchesOf reply = 1 := by
  have recorded :
      KeepsCount
        (modifyGet fun world =>
          let recorded := world.detector.record host.runtime result call.arguments
          (recorded.2, { world with detector := recorded.1 }) :
            Turn σ μ (Option String)) := by
    apply returns_of_silent (fun _ => rfl)
    intro before value after returned
    cases returned
    rfl
  apply returns_bind recorded
  intro raised
  cases failed : failure raised result with
  | none =>
      apply returns_pure
      intro last before events kept
      exact ⟨kept, rfl⟩
  | some exc =>
      by_cases denied : verdict = .denied
      · simp only [denied, if_true]
        apply returns_bind (Turn.keepsCount_record _)
        exact fun _ => returns_throw exc
      · simp only [denied, if_false]
        exact returns_throw exc

theorem dispatch_returns (host : Host σ) (services : HarnessServices σ μ)
    (grants : PermissionGrants σ) (name : String) (arguments : Arguments) :
    Returns World.trace (dispatch host services grants name arguments)
      fun before reply _ after =>
        after.callCount = before.callCount + dispatchesOf reply := by
  have counted :
      Returns World.trace
        (modify fun world => { world with callCount := world.callCount + 1 } :
          Turn σ μ PUnit)
        fun before _ _ after => after.callCount = before.callCount + 1 := by
    apply returns_of_silent (fun _ => rfl)
    intro before value after returned
    cases returned
    rfl
  apply returns_bind counted
  intro _
  apply returns_bind (Turn.keepsCount_execute services _ grants)
  intro (verdict, result)
  by_cases failed : result.ok = false
  · simp only [failed, if_true]
    apply returns_bind (Turn.keepsCount_record _)
    intro _
    refine (answerCall_returns host _ verdict result).mono ?_
    intro answering reply later last ⟨kept, one⟩ middle reporting reports executed
      executing executes before counting counts
    rw [kept, reports, executes, counts, one]
  · simp only [failed]
    refine (answerCall_returns host _ verdict result).mono ?_
    intro answering reply later last ⟨kept, one⟩ middle executing executes before
      counting counts
    rw [kept, executes, counts, one]

/-- A call that is not wired is no dispatch. -/
theorem tool_returns (host : Host σ) (services : HarnessServices σ μ)
    (grants : PermissionGrants σ) (name : String) (arguments : Arguments) :
    Returns World.trace (tool host services grants name arguments)
      fun before reply _ after =>
        after.callCount = before.callCount + dispatchesOf reply := by
  unfold tool
  cases wiredCall services name arguments with
  | none => exact returns_pure fun _ => rfl
  | some passed => exact dispatch_returns host services grants name passed

end SingleAgentFlow

namespace Agent

open SingleAgentFlow

variable {limits : Option UsageLimits}
  {tool : String → Arguments → Turn σ μ ToolReply}
  (toolCounts :
    ∀ name arguments,
      Returns World.trace (tool name arguments) fun before reply _ after =>
        after.callCount = before.callCount + dispatchesOf reply)
  (role : AgentRole)

theorem keepsCount_charge (usage : RunUsage) (response : ModelResponse) :
    Returns World.trace (charge role limits usage response : Turn σ μ RunUsage)
      fun before charged _ after =>
        after.callCount = before.callCount ∧
          charged.toolCalls = usage.toolCalls := by
  intro before
  have ran := run_charge role limits usage response before
  cases checked : UsageLimits.checkTokens limits (usage.add response) with
  | none =>
      rw [checked] at ran
      refine ends_of_ok ran rfl ?_
      intro charged equal
      cases equal
      exact ⟨rfl, rfl⟩
  | some exc =>
      rw [checked] at ran
      refine ends_of_error ran rfl ?_
      intro charged equal
      cases equal

include toolCounts

theorem counts_callTool (usage : RunUsage) (name : String)
    (arguments : Arguments) :
    Returns World.trace (callTool role limits tool usage name arguments)
      fun before replied _ after =>
        after.callCount + usage.toolCalls =
          before.callCount + replied.2.toolCalls := by
  unfold callTool
  cases UsageLimits.checkToolCalls limits usage with
  | some exc => exact returns_throw (TurnExc.outside exc)
  | none =>
      apply returns_bind (toolCounts name arguments)
      intro reply
      cases reply with
      | retry message =>
          apply returns_pure
          intro middle before events counted
          rw [counted]
          rfl
      | value output =>
          apply returns_bind (Turn.keepsCount_record _)
          intro _
          apply returns_pure
          intro last middle recording recorded before events counted
          rw [recorded, counted]
          exact Nat.add_right_comm _ _ _

/-- Along the loop, dispatches and counted calls grow alike. -/
theorem counts_drive (behaviour : ModelRun α) :
    ∀ usage,
      Returns World.trace (drive role limits tool usage behaviour)
        fun before result _ after =>
          after.callCount + usage.toolCalls =
            before.callCount + result.usage.toolCalls := by
  induction behaviour with
  | answer response output messages =>
      intro usage
      apply returns_bind (keepsCount_charge role usage response)
      intro charged
      apply returns_pure
      intro last before events ⟨kept, same⟩
      rw [kept, same]
  | raises exc =>
      intro usage
      exact returns_throw (TurnExc.outside exc)
  | call response name arguments next inductionHypothesis =>
      intro usage
      apply returns_bind (keepsCount_charge role usage response)
      intro charged
      apply returns_bind (counts_callTool toolCounts role charged name arguments)
      intro replied
      refine (inductionHypothesis replied.1 replied.2).mono ?_
      intro called result later last driven middle calling called before events
        ⟨kept, same⟩
      omega

theorem counts_run (host : Host σ) (model : Model σ α) (prompt : String)
    (memory : List String) :
    Returns World.trace (Agent.run host role limits model tool prompt memory)
      fun before result _ after =>
        after.callCount = before.callCount + result.usage.toolCalls := by
  unfold Agent.run
  apply returns_bind (Turn.keepsCount_record _)
  intro _
  apply returns_bind (Turn.keepsCount_outside (model prompt))
  intro behaviour
  apply returns_bind (counts_drive toolCounts role behaviour {})
  intro result driven
  refine ends_of_ok rfl rfl ?_
  intro same equal replying replies counted choosing chose chosen beginning begun
    started
  cases equal
  have nothing : ({} : RunUsage).toolCalls = 0 := rfl
  rw [nothing, Nat.add_zero, chosen, started] at counted
  exact counted

end Agent

namespace SingleAgentFlow

theorem counts_mainRun (host : Host σ) (flow : SingleAgentFlow σ) (request : String)
    (services : HarnessServices σ μ) (memory : List String) :
    Returns World.trace (mainRun host flow request services memory)
      fun before result _ after =>
        after.callCount = before.callCount + result.usage.toolCalls :=
  Agent.counts_run (tool_returns host services (grantsFor services.approvalGate))
    .singleAgent host flow.model (prompt request memory) memory

theorem callCount_of_mainRun {host : Host σ} {flow : SingleAgentFlow σ}
    {request : String} {services : HarnessServices σ μ} {memory : List String}
    {before answered : World σ μ} {result : AgentResult String}
    (fresh : before.callCount = 0)
    (ran : (mainRun host flow request services memory).run before =
      .ok result answered) :
    answered.callCount = result.usage.toolCalls := by
  obtain ⟨events, appended, counts⟩ :=
    counts_mainRun host flow request services memory before
  rw [ran] at counts
  have counted :
      answered.callCount = before.callCount + result.usage.toolCalls :=
    counts result rfl
  rw [fresh, Nat.zero_add] at counted
  exact counted

end SingleAgentFlow

end FableHarness
