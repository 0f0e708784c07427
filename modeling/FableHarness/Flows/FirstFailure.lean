import FableHarness.Flows.Confinement

/-!
# The first failed tool call of the single agent

The detector of a turn starts empty, so whatever it does with the second of two
equal failures, the first failed call already raises out of the agent run.
Which call that is can be read off the model, the registry and the outside
world.
-/

namespace FableHarness

open ExceptionState EventLog

variable {σ μ α β : Type}

/-- No tool call failed and none was denied. -/
def Interaction.Quiet : Interaction → Prop
  | .callFailed _ _ => False
  | .callDenied _ => False
  | .raisedOnDenial _ _ => False
  | _ => True

/-- A tool call that the registry answered with a failure. -/
structure ToolFailure where
  call : ToolCall
  verdict : Verdict
  result : ToolResult
  failed : result.ok = false

namespace ToolFailure

/-- The exception of the first such call in a turn. -/
def exc (failure : ToolFailure) : TurnExc :=
  .toolError (failure.result.error.getD "")

/-- The events of the first such call in a turn. -/
def events (failure : ToolFailure) : List Interaction :=
  if failure.verdict = .denied then
    [.callDenied failure.call, .callFailed failure.call failure.result.error,
      .raisedOnDenial failure.call failure.exc]
  else
    [.callFailed failure.call failure.result.error]

end ToolFailure

namespace SingleAgentFlow

/-! ## Where the first failure is -/

/-- What becomes of one tool call of the model. -/
inductive CallOutcome (σ : Type) where
  | replied (reply : ToolReply) (env : σ)
  | raised (exc : PyExc)
  | failed (failure : ToolFailure)

def CallOutcome.ofExecute (call : ToolCall) :
    EStateM.Result PyExc σ (Verdict × ToolResult) → CallOutcome σ
  | .error exc _ => .raised exc
  | .ok (verdict, result) after =>
      if ok : result.ok = true then
        .replied (.value (result.output.getD "None")) after
      else
        .failed ⟨call, verdict, result, Bool.eq_false_iff.mpr ok⟩

def callOutcome (host : Host σ) (services : HarnessServices σ μ)
    (grants : PermissionGrants σ) (name : String) (arguments : Arguments)
    (env : σ) : CallOutcome σ :=
  match wiredCall services name arguments with
  | none => .replied (.retry (host.rejection name arguments)) env
  | some passed =>
      let call : ToolCall := ⟨name, passed, flowName⟩
      .ofExecute call ((services.tools.executeObserved call grants).run env)

/-- The first failed tool call of an agent run, if there is one before the model
answers or outside code raises. -/
def firstFailure (host : Host σ) (services : HarnessServices σ μ)
    (grants : PermissionGrants σ) : ModelRun α → σ → Option ToolFailure
  | .answer _ _ _, _ => none
  | .raises _, _ => none
  | .call _ name arguments next, env =>
      match callOutcome host services grants name arguments env with
      | .replied reply after =>
          firstFailure host services grants (next reply) after
      | .raised _ => none
      | .failed failure => some failure

/-- What the model may answer.  A call that does not fail is replied to; what the
model is told of a failed call, and what such a call leaves behind, is left
open. -/
inductive MayAnswer (host : Host σ) (services : HarnessServices σ μ)
    (grants : PermissionGrants σ) :
    ModelRun α → σ → α → List Json → Prop
  | answer (response : ModelResponse) (output : α) (messages : List Json)
      (env : σ) :
      MayAnswer host services grants (.answer response output messages) env
        output messages
  | replied {response : ModelResponse} {name : String} {arguments : Arguments}
      {next : ToolReply → ModelRun α} {env after : σ} {reply : ToolReply}
      {output : α} {messages : List Json}
      (replies :
        callOutcome host services grants name arguments env =
          .replied reply after)
      (rest : MayAnswer host services grants (next reply) after output messages) :
      MayAnswer host services grants (.call response name arguments next) env
        output messages
  | failed {response : ModelResponse} {name : String} {arguments : Arguments}
      {next : ToolReply → ModelRun α} {env : σ} {failure : ToolFailure}
      {output : α} {messages : List Json} (reply : ToolReply) (after : σ)
      (fails :
        callOutcome host services grants name arguments env = .failed failure)
      (rest : MayAnswer host services grants (next reply) after output messages) :
      MayAnswer host services grants (.call response name arguments next) env
        output messages

/-! ## How a program ends with respect to it -/

/-- How a program ends when `failure` is the first failed call it comes across:
calmly if there is none, on a limit before it, or with the exception of that
call. -/
inductive StopsAt (calm limited : Except TurnExc α → Prop)
    (failure : Option ToolFailure) (outcome : Except TurnExc α)
    (events : List Interaction) : Prop where
  | calm (absent : failure = none) (quiet : ∀ event ∈ events, event.Quiet)
      (calm : calm outcome)
  | limited (quiet : ∀ event ∈ events, event.Quiet) (limited : limited outcome)
  | failed (first : ToolFailure) (before : List Interaction)
      (present : failure = some first) (quiet : ∀ event ∈ before, event.Quiet)
      (raised : outcome = .error first.exc)
      (split : events = before ++ first.events)

theorem quiet_append {earlier later : List Interaction}
    (earlierQuiet : ∀ event ∈ earlier, event.Quiet)
    (laterQuiet : ∀ event ∈ later, event.Quiet) :
    ∀ event ∈ earlier ++ later, event.Quiet := by
  intro event member
  rcases List.mem_append.mp member with early | late
  · exact earlierQuiet event early
  · exact laterQuiet event late

theorem quiet_singleton {event : Interaction} (quiet : event.Quiet) :
    ∀ other ∈ [event], other.Quiet := by
  intro other member
  rw [List.mem_singleton.mp member]
  exact quiet

/-- What is calm may be weakened. -/
theorem StopsAt.mono_calm {calm weaker limited : Except TurnExc α → Prop}
    {failure : Option ToolFailure} {outcome : Except TurnExc α}
    {events : List Interaction}
    (implies : calm outcome → weaker outcome)
    (stops : StopsAt calm limited failure outcome events) :
    StopsAt weaker limited failure outcome events := by
  cases stops with
  | calm absent quiet calm => exact .calm absent quiet (implies calm)
  | limited quiet limited => exact .limited quiet limited
  | failed first before present quiet raised split =>
      exact .failed first before present quiet raised split

/-- Quiet events in front change nothing. -/
theorem StopsAt.prepend {calm limited : Except TurnExc α → Prop}
    {failure : Option ToolFailure} {outcome : Except TurnExc α}
    {events earlier : List Interaction}
    (quiet : ∀ event ∈ earlier, event.Quiet)
    (stops : StopsAt calm limited failure outcome events) :
    StopsAt calm limited failure outcome (earlier ++ events) := by
  cases stops with
  | calm absent laterQuiet calm =>
      exact .calm absent (quiet_append quiet laterQuiet) calm
  | limited laterQuiet limited =>
      exact .limited (quiet_append quiet laterQuiet) limited
  | failed first before present laterQuiet raised split =>
      refine
        .failed first (earlier ++ before) present (quiet_append quiet laterQuiet)
          raised ?_
      rw [split, List.append_assoc]

/-- Only outside code raised. -/
def OutsideOnly (outcome : Except TurnExc α) : Prop :=
  ∀ exc, outcome = .error exc → ∃ raised, exc = .outside raised

/-- A usage limit was exceeded. -/
def UsageLimited (outcome : Except TurnExc α) : Prop :=
  ∃ message, outcome = .error (.outside (.usageLimitExceeded message))

theorem outsideOnly_ok (value : α) : OutsideOnly (.ok value) := by
  intro exc equal
  cases equal

theorem outsideOnly_outside (exc : PyExc) :
    OutsideOnly (.error (.outside exc) : Except TurnExc α) := by
  intro other equal
  cases equal
  exact ⟨exc, rfl⟩

/-- An agent run returned one of these answers, or outside code raised. -/
structure Answered (mayAnswer : α → List Json → Prop)
    (outcome : Except TurnExc (AgentResult α)) : Prop where
  outsideOnly : OutsideOnly outcome
  answers :
    ∀ result, outcome = .ok result → mayAnswer result.output result.messages

theorem answered_ok {mayAnswer : α → List Json → Prop} {result : AgentResult α}
    (answers : mayAnswer result.output result.messages) :
    Answered mayAnswer (.ok result) := by
  refine ⟨outsideOnly_ok result, ?_⟩
  intro other equal
  cases equal
  exact answers

theorem answered_outside (mayAnswer : α → List Json → Prop) (exc : PyExc) :
    Answered mayAnswer (.error (.outside exc)) := by
  refine ⟨outsideOnly_outside exc, ?_⟩
  intro result equal
  cases equal

theorem Answered.mono {mayAnswer wider : α → List Json → Prop}
    {outcome : Except TurnExc (AgentResult α)}
    (widens : ∀ output messages, mayAnswer output messages → wider output messages)
    (answered : Answered mayAnswer outcome) : Answered wider outcome := by
  refine ⟨answered.outsideOnly, ?_⟩
  intro result equal
  exact widens result.output result.messages (answered.answers result equal)

/-- How an agent run ends. -/
abbrev RunEnd (mayAnswer : α → List Json → Prop) (failure : Option ToolFailure)
    (outcome : Except TurnExc (AgentResult α)) (events : List Interaction) : Prop :=
  StopsAt (Answered mayAnswer) UsageLimited failure outcome events

/-! ## One tool call -/

/-- How a program that makes one tool call under a fresh detector ends. -/
inductive CallEnd (replyOf : α → ToolReply) (expected : CallOutcome σ)
    (outcome : Except TurnExc α) (events : List Interaction)
    (after : World σ μ) : Prop where
  | replied (value : α) (expects : expected = .replied (replyOf value) after.env)
      (returned : outcome = .ok value) (quiet : ∀ event ∈ events, event.Quiet)
      (fresh : after.detector = {})
  | raised (exc : PyExc) (expects : expected = .raised exc)
      (raised : outcome = .error (.outside exc)) (silent : events = [])
  | limited (message : String)
      (limited : outcome = .error (.outside (.usageLimitExceeded message)))
      (silent : events = [])
  | failed (first : ToolFailure) (expects : expected = .failed first)
      (raised : outcome = .error first.exc) (split : events = first.events)

/-- A call that returned was expected to return this, with quiet events. -/
theorem CallEnd.of_ok {replyOf : α → ToolReply} {expected : CallOutcome σ}
    {value : α} {events : List Interaction} {after : World σ μ}
    (callEnd : CallEnd replyOf expected (.ok value) events after) :
    expected = .replied (replyOf value) after.env ∧
      (∀ event ∈ events, event.Quiet) ∧ after.detector = {} := by
  cases callEnd with
  | replied same expects returned quiet fresh =>
      cases returned
      exact ⟨expects, quiet, fresh⟩
  | raised exc expects raised silent => cases raised
  | limited message limited silent => cases limited
  | failed first expects raised split => cases raised

/-- An exception passes through what the call is part of. -/
theorem CallEnd.of_error {replyOf : α → ToolReply} {otherReplyOf : β → ToolReply}
    {expected : CallOutcome σ} {exc : TurnExc} {events : List Interaction}
    {after : World σ μ}
    (callEnd : CallEnd replyOf expected (.error exc) events after) :
    CallEnd otherReplyOf expected (.error exc) events after := by
  cases callEnd with
  | replied value expects returned quiet fresh => cases returned
  | raised exc expects raised silent =>
      cases raised
      exact .raised exc expects rfl silent
  | limited message limited silent =>
      cases limited
      exact .limited message rfl silent
  | failed first expects raised split =>
      cases raised
      exact .failed first expects rfl split

theorem failure_of_ok {result : ToolResult} (ok : result.ok = true) :
    failure none result = none := by
  have absent : result.error = none := by simpa [ToolResult.ok] using ok
  simp [failure, absent]

theorem failure_first (first : ToolFailure) :
    failure none first.result = some first.exc := by
  have present : first.result.error.isSome := by
    simpa [ToolResult.ok] using first.failed
  obtain ⟨error, found⟩ := Option.isSome_iff_exists.mp present
  simp [failure, ToolFailure.exc, found]

section Dispatch

variable (host : Host σ) (services : HarnessServices σ μ)
  (grants : PermissionGrants σ) (name : String) (arguments : Arguments)
  {before : World σ μ}

theorem dispatch_of_raised {exc : PyExc} {env : σ}
    (observed :
      (services.tools.executeObserved ⟨name, arguments, flowName⟩ grants).run
        before.env = .error exc env) :
    (dispatch host services grants name arguments).run before =
      .error (.outside exc)
        { before with env, callCount := before.callCount + 1 } := by
  simp [dispatch, Turn.execute, Turn.outside, run_focus, observed]

theorem dispatch_of_ok {verdict : Verdict} {result : ToolResult} {env : σ}
    (observed :
      (services.tools.executeObserved ⟨name, arguments, flowName⟩ grants).run
        before.env = .ok (verdict, result) env)
    (ok : result.ok = true) :
    (dispatch host services grants name arguments).run before =
      .ok (.value (result.output.getD "None"))
        { before with env, callCount := before.callCount + 1 } := by
  have served : verdict ≠ .denied := by
    intro denied
    rw [denied] at observed
    have failed := InMemoryToolRegistry.ok_of_denied observed
    rw [ok] at failed
    cases failed
  simp [dispatch, answerCall, Turn.execute, Turn.outside, run_focus, observed,
    served, ok, RepeatedFailureDetector.record_of_ok, failure_of_ok]

/-- The first failed call raises, whatever the detector counts. -/
theorem dispatch_of_failed (fresh : before.detector = {}) (first : ToolFailure)
    {env : σ}
    (called : first.call = ⟨name, arguments, flowName⟩)
    (observed :
      (services.tools.executeObserved first.call grants).run before.env =
        .ok (first.verdict, first.result) env) :
    ∃ detector,
      (dispatch host services grants name arguments).run before =
        .error first.exc
          { before with
            env, detector
            callCount := before.callCount + 1
            trace := before.trace ++ first.events } := by
  rw [called] at observed
  refine ⟨(RepeatedFailureDetector.record host.runtime {} first.result arguments).1, ?_⟩
  have raises := failure_first first
  have notYet := RepeatedFailureDetector.record_first host.runtime first.result arguments
  by_cases denied : first.verdict = .denied
  · simp [dispatch, answerCall, Turn.execute, Turn.outside, Turn.record, run_focus,
      observed, denied, first.failed, fresh, notYet, raises, ToolFailure.events, called]
  · simp [dispatch, answerCall, Turn.execute, Turn.outside, Turn.record, run_focus,
      observed, denied, first.failed, fresh, notYet, raises, ToolFailure.events, called]

theorem dispatch_ends (fresh : before.detector = {}) :
    Ends World.trace (dispatch host services grants name arguments) before
      (CallEnd id
        (.ofExecute ⟨name, arguments, flowName⟩
          ((services.tools.executeObserved ⟨name, arguments, flowName⟩ grants).run
            before.env))) := by
  cases observed :
      (services.tools.executeObserved ⟨name, arguments, flowName⟩ grants).run
        before.env with
  | error exc env =>
      exact
        ends_of_error (dispatch_of_raised host services grants name arguments observed)
          (List.append_nil _).symm (.raised exc rfl rfl rfl)
  | ok pair env =>
      obtain ⟨verdict, result⟩ := pair
      by_cases ok : result.ok = true
      · rw [CallOutcome.ofExecute, dif_pos ok]
        exact
          ends_of_ok
            (dispatch_of_ok host services grants name arguments observed ok)
            (List.append_nil _).symm (.replied _ rfl rfl (by simp) fresh)
      · rw [CallOutcome.ofExecute, dif_neg ok]
        obtain ⟨detector, run⟩ :=
          dispatch_of_failed host services grants name arguments fresh
            ⟨_, verdict, result, Bool.eq_false_iff.mpr ok⟩ rfl observed
        exact ends_of_error run rfl (.failed _ rfl rfl rfl)

theorem tool_ends (fresh : before.detector = {}) :
    Ends World.trace (tool host services grants name arguments) before
      (CallEnd id (callOutcome host services grants name arguments before.env)) := by
  unfold tool callOutcome
  cases wiredCall services name arguments with
  | none => exact ends_pure (.replied _ rfl rfl (by simp) fresh)
  | some passed => exact dispatch_ends host services grants name passed fresh

end Dispatch

/-! ## The agent run -/

/-- Charging a response or a tool call leaves the outside world and the
detector alone, and only a usage limit stops it. -/
structure Charged (before : World σ μ) (outcome : Except TurnExc α)
    (events : List Interaction) (after : World σ μ) : Prop where
  quiet : ∀ event ∈ events, event.Quiet
  env : after.env = before.env
  detector : after.detector = before.detector
  limited :
    ∀ exc, outcome = .error exc →
      ∃ message, exc = .outside (.usageLimitExceeded message)

theorem usageLimit_of_checkTokens {limits : Option UsageLimits} {usage : RunUsage}
    {exc : PyExc} (raised : UsageLimits.checkTokens limits usage = some exc) :
    ∃ message, exc = .usageLimitExceeded message := by
  unfold UsageLimits.checkTokens at raised
  split at raised
  · split at raised
    · cases raised
      exact ⟨_, rfl⟩
    · cases raised
  · cases raised

theorem usageLimit_of_checkToolCalls {limits : Option UsageLimits}
    {usage : RunUsage} {exc : PyExc}
    (raised : UsageLimits.checkToolCalls limits usage = some exc) :
    ∃ message, exc = .usageLimitExceeded message := by
  unfold UsageLimits.checkToolCalls at raised
  split at raised
  · split at raised
    · cases raised
      exact ⟨_, rfl⟩
    · cases raised
  · cases raised

theorem charge_ends (role : AgentRole) (limits : Option UsageLimits)
    (usage : RunUsage) (response : ModelResponse) (before : World σ μ) :
    Ends World.trace
      (Agent.charge role limits usage response : Turn σ μ RunUsage) before
      (Charged before) := by
  have run := Agent.run_charge role limits usage response before
  cases checked : UsageLimits.checkTokens limits (usage.add response) with
  | none =>
      rw [checked] at run
      refine ends_of_ok run rfl ⟨quiet_singleton trivial, rfl, rfl, ?_⟩
      intro exc equal
      cases equal
  | some exc =>
      rw [checked] at run
      obtain ⟨message, rfl⟩ := usageLimit_of_checkTokens checked
      refine ends_of_error run rfl ⟨quiet_singleton trivial, rfl, rfl, ?_⟩
      intro other equal
      cases equal
      exact ⟨message, rfl⟩

section Run

variable (host : Host σ) (services : HarnessServices σ μ)
  (grants : PermissionGrants σ) (role : AgentRole) (limits : Option UsageLimits)

theorem callTool_ends (usage : RunUsage) (name : String) (arguments : Arguments)
    {before : World σ μ} (fresh : before.detector = {}) :
    Ends World.trace
      (Agent.callTool role limits (tool host services grants) usage name arguments)
      before
      (CallEnd Prod.fst
        (callOutcome host services grants name arguments before.env)) := by
  cases checked : UsageLimits.checkToolCalls limits usage with
  | some exc =>
      obtain ⟨message, rfl⟩ := usageLimit_of_checkToolCalls checked
      have run :
          (Agent.callTool role limits (tool host services grants) usage name
            arguments).run before =
              .error (.outside (.usageLimitExceeded message)) before := by
        simp [Agent.callTool, Agent.raiseIf, checked]
      exact ends_of_error run (List.append_nil _).symm (.limited message rfl rfl)
  | none =>
      unfold Agent.callTool
      rw [checked]
      apply ends_bind (tool_ends host services grants name arguments fresh)
      · exact fun exc events after callEnd => callEnd.of_error
      · intro reply events after callEnd
        obtain ⟨expects, quiet, stillFresh⟩ := callEnd.of_ok
        cases reply with
        | retry message =>
            refine ends_pure (.replied _ expects rfl ?_ stillFresh)
            exact quiet_append quiet (by simp)
        | value output =>
            refine ends_of_ok rfl rfl (.replied _ expects rfl ?_ stillFresh)
            exact quiet_append quiet (quiet_singleton trivial)

/-- A tool call that raises ends the run. -/
theorem CallEnd.runEnd {replyOf : β → ToolReply}
    {mayAnswer : α → List Json → Prop} {response : ModelResponse}
    {name : String} {arguments : Arguments} {next : ToolReply → ModelRun α}
    {env : σ} {exc : TurnExc} {events : List Interaction} {after : World σ μ}
    (callEnd :
      CallEnd replyOf (callOutcome host services grants name arguments env)
        (.error exc) events after) :
    RunEnd mayAnswer
      (firstFailure host services grants (.call response name arguments next) env)
      (.error exc) events := by
  cases callEnd with
  | replied value expects returned quiet fresh => cases returned
  | raised raisedExc expects raised silent =>
      cases raised
      exact
        .calm (by simp [firstFailure, expects]) (by simp [silent])
          (answered_outside mayAnswer raisedExc)
  | limited message limited silent =>
      cases limited
      exact .limited (by simp [silent]) ⟨message, rfl⟩
  | failed first expects raised split =>
      cases raised
      exact .failed first [] (by simp [firstFailure, expects]) (by simp) rfl split

/-- An agent run that starts with a fresh detector ends in its first failed tool
call, if the run gets that far, and with the model's answer otherwise. -/
theorem drive_ends (behaviour : ModelRun α) :
    ∀ (usage : RunUsage) (before : World σ μ), before.detector = {} →
      Ends World.trace
        (Agent.drive role limits (tool host services grants) usage behaviour)
        before
        fun outcome events _ =>
          RunEnd (MayAnswer host services grants behaviour before.env)
            (firstFailure host services grants behaviour before.env) outcome
            events := by
  induction behaviour with
  | answer response output messages =>
      intro usage before fresh
      apply ends_bind (charge_ends role limits usage response before)
      · intro exc events after charged
        obtain ⟨message, equal⟩ := charged.limited exc rfl
        exact .limited charged.quiet ⟨message, by rw [equal]⟩
      · intro usage events after charged
        have answers :
            MayAnswer host services grants (.answer response output messages)
              before.env output messages :=
          .answer response output messages before.env
        exact
          ends_pure
            (.calm rfl (quiet_append charged.quiet (by simp))
              (answered_ok answers))
  | raises exc =>
      intro usage before fresh
      exact ends_throw (.calm rfl (by simp) (answered_outside _ exc))
  | call response name arguments next inductionHypothesis =>
      intro usage before fresh
      apply ends_bind (charge_ends role limits usage response before)
      · intro exc events after charged
        obtain ⟨message, equal⟩ := charged.limited exc rfl
        exact .limited charged.quiet ⟨message, by rw [equal]⟩
      · intro usage events charging charged
        have stillFresh : charging.detector = {} := charged.detector.trans fresh
        apply
          ends_bind
            (callTool_ends host services grants role limits usage name arguments
              stillFresh)
        · intro exc later after callEnd
          rw [charged.env] at callEnd
          exact
            (CallEnd.runEnd host services grants callEnd).prepend charged.quiet
        · intro replied later called callEnd
          obtain ⟨expects, quiet, calledFresh⟩ := callEnd.of_ok
          rw [charged.env] at expects
          refine
            (inductionHypothesis replied.1 replied.2 called calledFresh).mono ?_
          intro outcome last _ stops
          have continues :
              firstFailure host services grants
                  (.call response name arguments next) before.env =
                firstFailure host services grants (next replied.1) called.env := by
            rw [firstFailure, expects]
          rw [continues]
          have widens :
              ∀ output messages,
                MayAnswer host services grants (next replied.1) called.env output
                    messages →
                  MayAnswer host services grants
                    (.call response name arguments next) before.env output
                    messages :=
            fun _ _ answers => .replied expects answers
          have whole := stops.mono_calm fun answered => answered.mono widens
          exact (whole.prepend quiet).prepend charged.quiet

end Run

/-! ## What follows the agent run -/

/-- A program that stops at a failure, followed by one that is quiet. -/
theorem stops_bind {first : Turn σ μ α} {next : α → Turn σ μ β}
    {calm limited : Except TurnExc α → Prop}
    {nextCalm nextLimited : Except TurnExc β → Prop}
    {failure : Option ToolFailure} {before : World σ μ}
    (firstEnds :
      Ends World.trace first before fun outcome events _ =>
        StopsAt calm limited failure outcome events)
    (neverLimited : ∀ value, ¬ limited (.ok value))
    (raisesCalm : ∀ exc, calm (.error exc) → nextCalm (.error exc))
    (raisesLimited : ∀ exc, limited (.error exc) → nextLimited (.error exc))
    (nextEmits :
      ∀ value, calm (.ok value) →
        Emits World.trace (next value) fun outcome events =>
          (∀ event ∈ events, event.Quiet) ∧ nextCalm outcome) :
    Ends World.trace (first >>= next) before fun outcome events _ =>
      StopsAt nextCalm nextLimited failure outcome events := by
  apply ends_bind firstEnds
  · intro exc events _ stops
    cases stops with
    | calm absent quiet calm => exact .calm absent quiet (raisesCalm exc calm)
    | limited quiet limited => exact .limited quiet (raisesLimited exc limited)
    | failed first before present quiet raised split =>
        cases raised
        exact .failed first before present quiet rfl split
  · intro value events after stops
    cases stops with
    | limited quiet limited => exact absurd limited (neverLimited value)
    | failed first before present quiet raised split => cases raised
    | calm absent quiet calm =>
        refine (nextEmits value calm after).mono ?_
        intro outcome later _ emitted
        exact .calm absent (quiet_append quiet emitted.1) emitted.2

section Agent

variable (host : Host σ) (services : HarnessServices σ μ)
  (grants : PermissionGrants σ) (role : AgentRole) (limits : Option UsageLimits)

/-- The first failed tool call of `agent.run`. -/
def runFailure (model : Model σ α) (prompt : String) (env : σ) :
    Option ToolFailure :=
  match (model prompt).run env with
  | .ok behaviour after => firstFailure host services grants behaviour after
  | .error _ _ => none

/-- What the model of `agent.run` may answer. -/
def RunMayAnswer (model : Model σ α) (prompt : String) (env : σ) (output : α)
    (messages : List Json) : Prop :=
  ∃ behaviour after,
    (model prompt).run env = .ok behaviour after ∧
      MayAnswer host services grants behaviour after output messages

/-- What follows the last response of an agent run returns its result. -/
theorem agentEnd_emits {mayAnswer : α → List Json → Prop}
    {result : AgentResult α} (answered : Answered mayAnswer (.ok result)) :
    Emits World.trace
      (do
        let time ← Turn.monotonic host
        Turn.record (.agentEnded role time)
        return result : Turn σ μ (AgentResult α))
      fun outcome events =>
        (∀ event ∈ events, event.Quiet) ∧ Answered mayAnswer outcome := by
  intro before
  exact ends_of_ok rfl rfl ⟨quiet_singleton trivial, answered⟩

theorem agentRun_ends (model : Model σ α) (prompt : String)
    (memory : List String) {before : World σ μ} (fresh : before.detector = {}) :
    Ends World.trace
      (Agent.run host role limits model (tool host services grants) prompt memory)
      before
      fun outcome events _ =>
        RunEnd (RunMayAnswer host services grants model prompt before.env)
          (runFailure host services grants model prompt before.env) outcome
          events := by
  unfold Agent.run
  let event : Interaction := .agentStarted role prompt memory
  let started : World σ μ := { before with trace := before.trace ++ [event] }
  have recorded : (Turn.record event).run before = .ok () started := rfl
  refine ends_bind_of_ok recorded rfl ?_
  have quiet : ∀ other ∈ [event], other.Quiet := quiet_singleton trivial
  unfold runFailure
  cases chosen : (model prompt).run before.env with
  | error exc env =>
      have run :
          (Turn.outside (model prompt) : Turn σ μ (ModelRun α)).run started =
            .error (.outside exc) { started with env } := by
        have there : (model prompt).run started.env = .error exc env := chosen
        rw [Turn.run_outside, there]
      refine ends_bind_of_error run (List.append_nil _).symm ?_
      exact .calm rfl (quiet_append quiet (by simp)) (answered_outside _ exc)
  | ok behaviour env =>
      have run :
          (Turn.outside (model prompt) : Turn σ μ (ModelRun α)).run started =
            .ok behaviour { started with env } := by
        have there : (model prompt).run started.env = .ok behaviour env := chosen
        rw [Turn.run_outside, there]
      refine ends_bind_of_ok run (List.append_nil _).symm ?_
      have driven :=
        drive_ends host services grants role limits behaviour {}
          { started with env } fresh
      have answers :
          ∀ output messages,
            MayAnswer host services grants behaviour env output messages →
              RunMayAnswer host services grants model prompt before.env output
                messages :=
        fun _ _ rest => ⟨behaviour, env, chosen, rest⟩
      refine
        (stops_bind driven ?_ (fun _ calm => calm) (fun _ limited => limited)
          fun _ calm => agentEnd_emits host role calm).mono ?_
      · intro result ⟨message, limited⟩
        cases limited
      · intro outcome later _ stops
        have whole := stops.mono_calm fun answered => answered.mono answers
        exact whole.prepend (quiet_append quiet (by simp))

end Agent

end SingleAgentFlow

end FableHarness
