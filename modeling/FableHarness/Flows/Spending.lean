import Mathlib.Algebra.BigOperators.Group.List.Basic
import Mathlib.Algebra.GroupWithZero.Nat
import FableHarness.Flows.Confinement

/-!
# What agent runs spend

The usage of the agent runs that produce a flow's output, read off the trace,
and what the agent library and the budget tracker make sure of.  The
extraction after a turn is not counted.
-/

namespace FableHarness

open ExceptionState EventLog

variable {σ μ α : Type}

/-! ## Reading a trace -/

/-- The usage that an event adds. -/
def Interaction.usage : Interaction → RunUsage
  | .modelResponded .extraction _ _ => {}
  | .modelResponded _ input output => ⟨input, output, 0⟩
  | .toolReturned .extraction => {}
  | .toolReturned _ => ⟨0, 0, 1⟩
  | _ => {}

/-- The time at which a counted agent run ended. -/
def Interaction.endTime : Interaction → Option ℚ
  | .agentEnded .extraction _ => none
  | .agentEnded _ time => some time
  | _ => none

/-- The sum over a trace of one component of the usage. -/
def totalOf (component : RunUsage → Nat) (trace : List Interaction) : Nat :=
  (trace.map fun event => component event.usage).sum

/-- When the last counted agent run ended. -/
def lastEnd (trace : List Interaction) : Option ℚ :=
  (trace.filterMap Interaction.endTime).getLast?

/-- Every limit that is set holds of the trace. -/
structure WithinBudget (tracker : BudgetTracker) (trace : List Interaction) :
    Prop where
  tokens :
    ∀ limit, tracker.budget.maxTotalTokens = some limit →
      totalOf RunUsage.totalTokens trace ≤ limit
  toolCalls :
    ∀ limit, tracker.budget.maxToolCalls = some limit →
      totalOf RunUsage.toolCalls trace ≤ limit
  cost :
    ∀ limit, tracker.budget.maxCostUsd = some limit →
      tracker.cost (totalOf RunUsage.inputTokens trace)
        (totalOf RunUsage.outputTokens trace) ≤ limit
  wallClock :
    ∀ limit, tracker.budget.maxWallClockSeconds = some limit →
      ∀ time, lastEnd trace = some time → time - tracker.start ≤ limit

theorem totalOf_append (component : RunUsage → Nat)
    (earlier later : List Interaction) :
    totalOf component (earlier ++ later) =
      totalOf component earlier + totalOf component later := by
  simp [totalOf]

theorem totalOf_singleton (component : RunUsage → Nat) (event : Interaction) :
    totalOf component [event] = component event.usage := by
  simp [totalOf]

theorem totalOf_totalTokens (trace : List Interaction) :
    totalOf RunUsage.totalTokens trace =
      totalOf RunUsage.inputTokens trace + totalOf RunUsage.outputTokens trace := by
  exact List.sum_map_add

/-- An event that adds nothing. -/
structure Interaction.Uncounted (event : Interaction) : Prop where
  usage : event.usage = {}
  endTime : event.endTime = none

theorem totalOf_of_uncounted {component : RunUsage → Nat}
    (nothing : component {} = 0) {trace : List Interaction}
    (uncounted : ∀ event ∈ trace, event.Uncounted) :
    totalOf component trace = 0 := by
  unfold totalOf
  rw [List.sum_eq_zero]
  intro amount member
  obtain ⟨event, present, equal⟩ := List.mem_map.mp member
  rw [← equal, (uncounted event present).usage]
  exact nothing

theorem filterMap_endTime_of_uncounted {trace : List Interaction}
    (uncounted : ∀ event ∈ trace, event.Uncounted) :
    trace.filterMap Interaction.endTime = [] := by
  rw [List.filterMap_eq_nil_iff]
  exact fun event member => (uncounted event member).endTime

/-- Uncounted events at either end change nothing. -/
theorem WithinBudget.surround {tracker : BudgetTracker}
    {earlier trace later : List Interaction}
    (earlierUncounted : ∀ event ∈ earlier, event.Uncounted)
    (laterUncounted : ∀ event ∈ later, event.Uncounted)
    (within : WithinBudget tracker trace) :
    WithinBudget tracker (earlier ++ (trace ++ later)) := by
  have same :
      ∀ component : RunUsage → Nat, component {} = 0 →
        totalOf component (earlier ++ (trace ++ later)) =
          totalOf component trace := by
    intro component nothing
    rw [totalOf_append, totalOf_append,
      totalOf_of_uncounted nothing earlierUncounted,
      totalOf_of_uncounted nothing laterUncounted]
    omega
  have sameEnd : lastEnd (earlier ++ (trace ++ later)) = lastEnd trace := by
    unfold lastEnd
    rw [List.filterMap_append, List.filterMap_append,
      filterMap_endTime_of_uncounted earlierUncounted,
      filterMap_endTime_of_uncounted laterUncounted, List.nil_append,
      List.append_nil]
  constructor
  · rw [same _ rfl]
    exact within.tokens
  · rw [same _ rfl]
    exact within.toolCalls
  · rw [same RunUsage.inputTokens rfl, same RunUsage.outputTokens rfl]
    exact within.cost
  · rw [sameEnd]
    exact within.wallClock

/-! ## Programs that spend nothing -/

/-- The tracker's ledger is left alone and the clock does not go back. -/
structure World.KeepsLedger (before after : World σ μ) : Prop where
  status : after.status = before.status
  clock : before.clock ≤ after.clock

theorem World.KeepsLedger.trans {before middle after : World σ μ}
    (first : before.KeepsLedger middle) (second : middle.KeepsLedger after) :
    before.KeepsLedger after :=
  ⟨second.status.trans first.status, first.clock.trans second.clock⟩

/-- Nothing is counted and the ledger is kept. -/
structure Spendless (before : World σ μ) (events : List Interaction)
    (after : World σ μ) : Prop where
  uncounted : ∀ event ∈ events, event.Uncounted
  keeps : before.KeepsLedger after

theorem Spendless.append {before middle after : World σ μ}
    {earlier later : List Interaction} (first : Spendless before earlier middle)
    (second : Spendless middle later after) :
    Spendless before (earlier ++ later) after := by
  refine ⟨?_, first.keeps.trans second.keeps⟩
  intro event member
  rcases List.mem_append.mp member with early | late
  · exact first.uncounted event early
  · exact second.uncounted event late

instance : Composes (Spendless : World σ μ → _ → World σ μ → Prop) where
  nil _ := ⟨by simp, rfl, le_rfl⟩
  append := Spendless.append

theorem spendless_singleton {before after : World σ μ} {event : Interaction}
    (uncounted : event.Uncounted) (keeps : before.KeepsLedger after) :
    Spendless before [event] after := by
  refine ⟨?_, keeps⟩
  intro other member
  rw [List.mem_singleton.mp member]
  exact uncounted

theorem allows_spendless :
    Allows (Spendless : World σ μ → _ → World σ μ → Prop) (fun _ => True)
      Interaction.Uncounted where
  working _ _ _ _ status clock := ⟨by simp, status, clock⟩
  recording _ uncounted _ := spendless_singleton uncounted ⟨rfl, le_rfl⟩
  outside _ := trivial

theorem allowsMemory_spendless (memory : MemoryStore μ) :
    AllowsMemory (Spendless : World σ μ → _ → World σ μ → Prop) memory where
  recalling _ _ _ _ := ⟨by simp, rfl, le_rfl⟩
  remembering _ _ _ _ _ := spendless_singleton ⟨rfl, rfl⟩ ⟨rfl, le_rfl⟩
  failing _ _ _ _ _ _ := ⟨by simp, rfl, le_rfl⟩

abbrev SpendsNothing (program : Turn σ μ α) : Prop :=
  Returns World.trace program fun before _ events after =>
    Spendless before events after

theorem SingleAgentFlow.spendsNothing_tool (host : Host σ)
    (services : HarnessServices σ μ) (grants : PermissionGrants σ) (name : String)
    (arguments : Arguments) :
    SpendsNothing (tool host services grants name arguments) := by
  have admits : AdmitsFailures Interaction.Uncounted :=
    ⟨fun _ => ⟨rfl, rfl⟩, fun _ _ => ⟨rfl, rfl⟩, fun _ _ => ⟨rfl, rfl⟩⟩
  exact
    (confined_tool allows_spendless admits (fun _ _ _ _ => trivial) host services
      grants name arguments).returns

/-- The step after the answer spends nothing, and raises what outside code
raises. -/
theorem SingleAgentFlow.spendsNothing_rememberTurn (host : Host σ)
    (flow : SingleAgentFlow σ) (ctx : RunContext) (services : HarnessServices σ μ)
    (request output : String) :
    Confined Spendless (fun exc => ∃ raised, exc = .outside raised)
      (rememberTurn host flow ctx services request output) := by
  have admits : Agent.AdmitsRuns Interaction.Uncounted .extraction :=
    ⟨fun _ _ => ⟨rfl, rfl⟩, ⟨rfl, rfl⟩, fun _ => ⟨rfl, rfl⟩⟩
  exact
    confined_rememberTurn (allows_spendless.raising fun raised => ⟨raised, rfl⟩)
      admits (fun _ => ⟨rfl, rfl⟩) host flow ctx
      (allowsMemory_spendless services.memory) request output

/-! ## Agent runs under usage limits -/

/-- The token limit, if there is one, is kept. -/
def TokensWithin (limits : Option UsageLimits) (usage : RunUsage) : Prop :=
  ∀ limit, limits.bind UsageLimits.totalTokensLimit = some limit →
    usage.totalTokens ≤ limit

/-- The tool call limit, if there is one, is kept. -/
def CallsWithin (limits : Option UsageLimits) (usage : RunUsage) : Prop :=
  ∀ limit, limits.bind UsageLimits.toolCallsLimit = some limit →
    usage.toolCalls ≤ limit

theorem tokensWithin_of_checkTokens {limits : Option UsageLimits}
    {usage : RunUsage} (passed : UsageLimits.checkTokens limits usage = none) :
    TokensWithin limits usage := by
  intro limit present
  unfold UsageLimits.checkTokens at passed
  rw [present] at passed
  by_cases exceeded : limit < usage.totalTokens
  · simp [exceeded] at passed
  · exact not_lt.mp exceeded

theorem callsWithin_of_checkToolCalls {limits : Option UsageLimits}
    {usage : RunUsage} (passed : UsageLimits.checkToolCalls limits usage = none)
    (reply : ToolReply) (within : CallsWithin limits usage) :
    CallsWithin limits (usage.count reply) := by
  intro limit present
  have before := within limit present
  unfold UsageLimits.checkToolCalls at passed
  rw [present] at passed
  by_cases exceeded : limit < usage.toolCalls + 1
  · simp [exceeded] at passed
  · cases reply with
    | retry message => exact before
    | value output => exact not_lt.mp exceeded

/-- What the events of a stretch of an agent run did to its usage. -/
structure Charges (limits : Option UsageLimits) (usage charged : RunUsage)
    (before : World σ μ) (events : List Interaction) (after : World σ μ) :
    Prop where
  input :
    charged.inputTokens = usage.inputTokens + totalOf RunUsage.inputTokens events
  output :
    charged.outputTokens =
      usage.outputTokens + totalOf RunUsage.outputTokens events
  toolCalls :
    charged.toolCalls = usage.toolCalls + totalOf RunUsage.toolCalls events
  running : events.filterMap Interaction.endTime = []
  callsWithin : CallsWithin limits usage → CallsWithin limits charged
  keeps : before.KeepsLedger after

theorem Charges.append {limits : Option UsageLimits}
    {usage charged final : RunUsage} {before middle after : World σ μ}
    {earlier later : List Interaction}
    (first : Charges limits usage charged before earlier middle)
    (second : Charges limits charged final middle later after) :
    Charges limits usage final before (earlier ++ later) after := by
  constructor
  · rw [second.input, first.input, totalOf_append, Nat.add_assoc]
  · rw [second.output, first.output, totalOf_append, Nat.add_assoc]
  · rw [second.toolCalls, first.toolCalls, totalOf_append, Nat.add_assoc]
  · rw [List.filterMap_append, first.running, second.running, List.nil_append]
  · exact fun within => second.callsWithin (first.callsWithin within)
  · exact first.keeps.trans second.keeps

/-- One event charges its own usage. -/
theorem charges_singleton {limits : Option UsageLimits}
    {usage charged own : RunUsage} {before after : World σ μ} {event : Interaction}
    (added : event.usage = own)
    (sum :
      charged =
        ⟨usage.inputTokens + own.inputTokens, usage.outputTokens + own.outputTokens,
          usage.toolCalls + own.toolCalls⟩)
    (running : event.endTime = none)
    (within : CallsWithin limits usage → CallsWithin limits charged)
    (keeps : before.KeepsLedger after) :
    Charges limits usage charged before [event] after := by
  subst sum
  constructor
  · rw [totalOf_singleton, added]
  · rw [totalOf_singleton, added]
  · rw [totalOf_singleton, added]
  · rw [List.filterMap_cons, running, List.filterMap_nil]
  · exact within
  · exact keeps

/-- Spending nothing charges nothing. -/
theorem Spendless.charges {before after : World σ μ} {events : List Interaction}
    (spendless : Spendless before events after) (limits : Option UsageLimits)
    (usage : RunUsage) : Charges limits usage usage before events after := by
  have nothing :
      ∀ component : RunUsage → Nat, component {} = 0 →
        totalOf component events = 0 :=
    fun component zero => totalOf_of_uncounted zero spendless.uncounted
  constructor
  · rw [nothing _ rfl, Nat.add_zero]
  · rw [nothing _ rfl, Nat.add_zero]
  · rw [nothing _ rfl, Nat.add_zero]
  · exact filterMap_endTime_of_uncounted spendless.uncounted
  · exact id
  · exact spendless.keeps

namespace Agent

variable {role : AgentRole} (counted : role ≠ .extraction)
  (limits : Option UsageLimits)
include counted

theorem charge_returns (usage : RunUsage) (response : ModelResponse) :
    Returns World.trace
      (charge role limits usage response : Turn σ μ RunUsage)
      fun before charged events after =>
        Charges limits usage charged before events after ∧
          TokensWithin limits charged := by
  intro before
  have run := run_charge role limits usage response before
  cases checked : UsageLimits.checkTokens limits (usage.add response) with
  | some exc =>
      rw [checked] at run
      refine ends_of_error run rfl ?_
      intro charged equal
      cases equal
  | none =>
      rw [checked] at run
      refine ends_of_ok run rfl ?_
      intro charged equal
      cases equal
      refine ⟨?_, tokensWithin_of_checkTokens checked⟩
      have added :
          (Interaction.modelResponded role response.inputTokens
            response.outputTokens).usage =
            ⟨response.inputTokens, response.outputTokens, 0⟩ := by
        cases role with
        | extraction => exact absurd rfl counted
        | _ => rfl
      exact charges_singleton added rfl rfl id ⟨rfl, le_rfl⟩

theorem callTool_returns {tool : String → Arguments → Turn σ μ ToolReply}
    (toolSpends : ∀ name arguments, SpendsNothing (tool name arguments))
    (usage : RunUsage) (name : String) (arguments : Arguments) :
    Returns World.trace (callTool role limits tool usage name arguments)
      fun before replied events after =>
        Charges limits usage replied.2 before events after := by
  unfold callTool
  cases checked : UsageLimits.checkToolCalls limits usage with
  | some exc => exact returns_throw (TurnExc.outside exc)
  | none =>
      apply returns_bind (toolSpends name arguments)
      intro reply
      cases reply with
      | retry message =>
          apply returns_pure
          intro middle before events spends
          rw [List.append_nil]
          exact spends.charges limits usage
      | value output =>
          intro middle
          refine ends_of_ok rfl rfl ?_
          intro replied equal before events spends
          cases equal
          have added :
              (Interaction.toolReturned role).usage = ⟨0, 0, 1⟩ := by
            cases role with
            | extraction => exact absurd rfl counted
            | _ => rfl
          exact
            (spends.charges limits usage).append
              (charges_singleton added rfl rfl
                (callsWithin_of_checkToolCalls checked (.value output))
                ⟨rfl, le_rfl⟩)

/-- The usage that a run reports is what its events add up to, and it is within
the limits of the run. -/
theorem drive_returns {tool : String → Arguments → Turn σ μ ToolReply}
    (toolSpends : ∀ name arguments, SpendsNothing (tool name arguments))
    (behaviour : ModelRun α) :
    ∀ usage,
      Returns World.trace (drive role limits tool usage behaviour)
        fun before result events after =>
          Charges limits usage result.usage before events after ∧
            TokensWithin limits result.usage := by
  induction behaviour with
  | answer response output messages =>
      intro usage
      apply returns_bind (charge_returns counted limits usage response)
      intro charged
      apply returns_pure
      intro middle before events holds
      rw [List.append_nil]
      exact holds
  | raises exc =>
      intro usage
      exact returns_throw (TurnExc.outside exc)
  | call response name arguments next inductionHypothesis =>
      intro usage
      apply returns_bind (charge_returns counted limits usage response)
      intro charged
      apply
        returns_bind
          (callTool_returns counted limits toolSpends charged name arguments)
      intro replied
      refine (inductionHypothesis replied.1 replied.2).mono ?_
      intro called result last after driven middle later calling before events charging
      refine ⟨?_, driven.2⟩
      rw [← List.append_assoc]
      exact (charging.1.append calling).append driven.1

/-- What a finished agent run has spent. -/
structure Spent (limits : Option UsageLimits) (usage : RunUsage)
    (before : World σ μ) (events : List Interaction) (after : World σ μ) :
    Prop where
  input : usage.inputTokens = totalOf RunUsage.inputTokens events
  output : usage.outputTokens = totalOf RunUsage.outputTokens events
  toolCalls : usage.toolCalls = totalOf RunUsage.toolCalls events
  tokensWithin : TokensWithin limits usage
  callsWithin : CallsWithin limits usage
  status : after.status = before.status
  ended : ∃ time, lastEnd events = some time ∧ time ≤ after.clock

theorem spent_of_charges {usage : RunUsage} {before driven after : World σ μ}
    {events : List Interaction} {time : ℚ}
    (charges : Charges limits {} usage before events driven)
    (tokensWithin : TokensWithin limits usage)
    (status : after.status = driven.status) (clock : time ≤ after.clock) :
    Spent limits usage before (events ++ [.agentEnded role time]) after := by
  have uncharged :
      (Interaction.agentEnded role time).usage = {} := rfl
  have ended : (Interaction.agentEnded role time).endTime = some time := by
    cases role with
    | extraction => exact absurd rfl counted
    | _ => rfl
  have total :
      ∀ component : RunUsage → Nat, component {} = 0 →
        totalOf component (events ++ [.agentEnded role time]) =
          totalOf component events := by
    intro component nothing
    rw [totalOf_append, totalOf_singleton, uncharged, nothing, Nat.add_zero]
  constructor
  · rw [total _ rfl, charges.input]
    exact Nat.zero_add _
  · rw [total _ rfl, charges.output]
    exact Nat.zero_add _
  · rw [total _ rfl, charges.toolCalls]
    exact Nat.zero_add _
  · exact tokensWithin
  · exact charges.callsWithin fun _ _ => Nat.zero_le _
  · exact status.trans charges.keeps.status
  · refine ⟨time, ?_, clock⟩
    unfold lastEnd
    rw [List.filterMap_append, charges.running]
    simp [ended]

theorem run_returns {tool : String → Arguments → Turn σ μ ToolReply}
    (toolSpends : ∀ name arguments, SpendsNothing (tool name arguments))
    (host : Host σ) (model : Model σ α) (prompt : String)
    (memory : List String) :
    Returns World.trace (Agent.run host role limits model tool prompt memory)
      fun before result events after =>
        Spent limits result.usage before events after := by
  unfold Agent.run
  have started : (Interaction.agentStarted role prompt memory).Uncounted :=
    ⟨rfl, rfl⟩
  apply returns_bind (Turn.confined_record allows_spendless started).returns
  intro _
  apply returns_bind (Turn.confined_outside allows_spendless (model prompt)).returns
  intro behaviour
  apply returns_bind (drive_returns counted limits toolSpends behaviour {})
  intro result driven
  refine ends_of_ok rfl rfl ?_
  intro same equal replying replies charges choosing chose chosen beginning begun
    spends
  cases equal
  have whole :=
    ((spends.append chosen).charges limits {}).append charges.1
  rw [← List.append_assoc, ← List.append_assoc]
  exact spent_of_charges counted limits whole charges.2 rfl le_rfl

end Agent

end FableHarness
