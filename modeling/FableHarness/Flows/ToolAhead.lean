import FableHarness.Flows.GatherLoop

/-!
# Workers that still have a tool ahead of them

A lookup may enter its handler until its check is over; a retrieval agent may
enter a tool of the server for as long as its model can go on with a call that
the hook lets through.  What one resumption does to a worker shows that the
description is right in both directions.
-/

namespace FableHarness

open ExceptionState LabelledRun

variable {σ : Type}

namespace GatherLoop

/-! ## Which workers still have a tool ahead of them -/

/-- The gate can let the call pass, whatever runs while its answer is awaited. -/
def CanPass (gate : ApprovalGate σ) (call : ToolCall) (tier : RiskTier) : Prop :=
  match gate.matrix.policyFor tier with
  | .autoAllow => True
  | .deny => False
  | .requireApproval =>
      ∃ callback env result after later final,
        gate.onApprovalNeeded = some callback ∧
          (callback call tier).run env = .ok result after ∧
          result.get.run later = .ok true final

/-- A lookup that has not started, or that waits for an approval, and that the
gate and the handler's signature can let through. -/
def LookupAhead (tasks : TurnTasks σ) (task : ChokePoint.Task σ) : Prop :=
  match task.phase with
  | .created =>
      ∃ spec, tasks.tools.tools.get? task.call.toolName = some spec ∧
        CanPass task.grants.gate task.call spec.riskTier ∧
        spec.handler.Accepts task.call.arguments
  | .awaitingApproval spec resolve =>
      (∃ env after, resolve.run env = .ok true after) ∧
        spec.handler.Accepts task.call.arguments
  | _ => False

/-- The model goes on with a tool call that the hook can let through. -/
def CallAhead (tasks : TurnTasks σ) : ModelRun String → Prop
  | .call _ name arguments _ =>
      ∀ gate, tasks.approvalGate = some gate →
        CanPass gate (TurnTasks.mcpCall name arguments) .readOnly
  | _ => False

/-- A retrieval agent that waits for an approval, or that can go on with a tool
call. -/
def RetrievalAhead (tasks : TurnTasks σ) : RetrievalPhase σ → Prop
  | .created =>
      ∃ env behaviour after,
        (tasks.flow.retrievalModel tasks.retrievalPrompt).run env =
            .ok behaviour after ∧
          CallAhead tasks behaviour
  | .awaitingModel behaviour => CallAhead tasks behaviour
  | .awaitingApproval _ _ _ resolve => ∃ env after, resolve.run env = .ok true after
  | .inServer name arguments next =>
      ∃ env reply after,
        (tasks.flow.server name arguments).run env = .ok reply after ∧
          CallAhead tasks (next reply)
  | _ => False

/-- No worker has a tool ahead of it. -/
structure Spent (tasks : TurnTasks σ) (loop : GatherLoop σ) : Prop where
  account : ¬ LookupAhead tasks loop.account
  meeting : ¬ LookupAhead tasks loop.meeting
  retrieval : ¬ RetrievalAhead tasks loop.retrieval

section Advance

variable {tasks : TurnTasks σ}

/-! ### Checks -/

section Check

variable {gate : ApprovalGate σ} {call : ToolCall} {tier : RiskTier}

/-- A start from which a check can let the call pass, whatever runs while an
answer is awaited. -/
def Passable : ApprovalGate.CheckStart σ → Prop
  | .concluded outcome => outcome = .ok ()
  | .answered outcome => ∃ after, outcome = .ok true after
  | .suspended resolve _ => ∃ later final, resolve.run later = .ok true final

theorem canPass_of_starts {env : σ} {start : ApprovalGate.CheckStart σ}
    (starts : gate.Starts call tier env start) (passable : Passable start) :
    CanPass gate call tier := by
  unfold CanPass
  cases starts with
  | allowed policy =>
      rw [policy]
      trivial
  | denied policy => cases passable
  | unasked policy absent => cases passable
  | failed callback exc after policy present asked =>
      obtain ⟨_, equal⟩ := passable
      cases equal
  | answered callback approved after policy present asked =>
      obtain ⟨_, equal⟩ := passable
      cases equal
      rw [policy]
      exact ⟨callback, env, _, after, after, after, present, asked, rfl⟩
  | suspended callback resolve after policy present asked =>
      obtain ⟨later, final, approved⟩ := passable
      rw [policy]
      exact ⟨callback, env, _, after, later, final, present, asked, approved⟩

theorem exists_passable_start (env : σ) (passes : CanPass gate call tier) :
    ∃ asked start, gate.Starts call tier asked start ∧ Passable start := by
  unfold CanPass at passes
  cases policy : gate.matrix.policyFor tier with
  | autoAllow => exact ⟨env, _, .allowed policy, rfl⟩
  | deny =>
      rw [policy] at passes
      exact passes.elim
  | requireApproval =>
      rw [policy] at passes
      obtain ⟨callback, asked, result, after, later, final, present, asks,
        approves⟩ := passes
      cases result with
      | value approved =>
          cases approves
          exact ⟨asked, _, .answered callback true after policy present asks, after,
            rfl⟩
      | awaitable resolve =>
          exact ⟨asked, _, .suspended callback resolve after policy present asks,
            later, final, approves⟩

end Check

/-! ### Lookups -/

section Lookup

variable {task : ChokePoint.Task σ} {spec : ToolSpec σ} {env : σ}

theorem entered_of_afterCheck {outcome : Except PyExc Unit}
    (entered :
      (ChokePoint.afterCheck 0 task spec env outcome).events.any isEntry = true) :
    outcome = .ok () ∧ spec.handler.Accepts task.call.arguments := by
  cases outcome with
  | ok passed =>
      cases binding : spec.handler.bindError task.call.arguments with
      | none => exact ⟨rfl, binding⟩
      | some message => simp [ChokePoint.afterCheck, binding] at entered
  | error exc =>
      cases exc with
      | permissionDenied message => cases entered
      | usageLimitExceeded message => cases entered
      | other className message => cases entered

theorem entered_of_afterAnswer {outcome : EStateM.Result PyExc σ Bool}
    (entered :
      (ChokePoint.afterAnswer 0 task spec outcome).events.any isEntry = true) :
    (∃ after, outcome = .ok true after) ∧
      spec.handler.Accepts task.call.arguments := by
  cases outcome with
  | ok approved after =>
      obtain ⟨concluded, accepts⟩ := entered_of_afterCheck entered
      cases approved with
      | true => exact ⟨⟨after, rfl⟩, accepts⟩
      | false => cases concluded
  | error exc after =>
      obtain ⟨concluded, _⟩ := entered_of_afterCheck entered
      cases concluded

/-- Once its check is over, a lookup has no tool ahead of it but the one it may
have entered. -/
theorem not_ahead_afterCheck (outcome : Except PyExc Unit) :
    ¬ LookupAhead tasks
        { task with
          phase := (ChokePoint.afterCheck 0 task spec env outcome).phase } := by
  cases outcome with
  | ok passed =>
      cases binding : spec.handler.bindError task.call.arguments with
      | none => simp [ChokePoint.afterCheck, binding, LookupAhead]
      | some message => simp [ChokePoint.afterCheck, binding, LookupAhead]
  | error exc =>
      cases exc with
      | permissionDenied message => exact id
      | usageLimitExceeded message => exact id
      | other className message => exact id

theorem not_ahead_afterAnswer (outcome : EStateM.Result PyExc σ Bool) :
    ¬ LookupAhead tasks
        { task with
          phase := (ChokePoint.afterAnswer 0 task spec outcome).phase } := by
  cases outcome with
  | ok approved after => exact not_ahead_afterCheck _
  | error exc after => exact not_ahead_afterCheck _

/-- What a check that is started can come to. -/
theorem passable_of_afterStart {start : ApprovalGate.CheckStart σ}
    (ahead :
      (ChokePoint.afterStart 0 task spec env start).events.any isEntry = true ∨
        LookupAhead tasks
          { task with
            phase := (ChokePoint.afterStart 0 task spec env start).phase }) :
    Passable start ∧ spec.handler.Accepts task.call.arguments := by
  cases start with
  | concluded outcome =>
      exact entered_of_afterCheck (ahead.resolve_right (not_ahead_afterCheck _))
  | answered outcome =>
      exact entered_of_afterAnswer (ahead.resolve_right (not_ahead_afterAnswer _))
  | suspended resolve after =>
      exact ahead.resolve_left Bool.false_ne_true

theorem ahead_of_startCheck
    (found : tasks.tools.tools.get? task.call.toolName = some spec)
    (created : task.phase = .created)
    (ahead :
      (ChokePoint.startCheck 0 task spec env).events.any isEntry = true ∨
        LookupAhead tasks
          { task with phase := (ChokePoint.startCheck 0 task spec env).phase }) :
    LookupAhead tasks task := by
  obtain ⟨start, starts⟩ :=
    task.grants.gate.exists_starts task.call spec.riskTier env
  rw [ChokePoint.startCheck_of_starts starts] at ahead
  obtain ⟨passable, accepts⟩ := passable_of_afterStart ahead
  unfold LookupAhead
  rw [created]
  exact ⟨spec, found, canPass_of_starts starts passable, accepts⟩

/-- A lookup that enters its handler, or that still has it ahead after a
resumption, had it ahead before. -/
theorem lookupAhead_of_advance
    (ahead :
      (advanceLookup tasks task env).2.2 = true ∨
        LookupAhead tasks (advanceLookup tasks task env).1) :
    LookupAhead tasks task := by
  unfold advanceLookup ChokePoint.advance at ahead
  cases phase : task.phase with
  | created =>
      cases found : tasks.tools.tools.get? task.call.toolName with
      | none => simp [phase, found, isEntry, LookupAhead] at ahead
      | some spec =>
          simp only [phase, found, List.any_cons, isEntry, Bool.false_or] at ahead
          exact ahead_of_startCheck found phase ahead
  | awaitingApproval spec resolve =>
      simp only [phase] at ahead
      have entered := ahead.resolve_right (not_ahead_afterAnswer _)
      obtain ⟨⟨after, approved⟩, accepts⟩ := entered_of_afterAnswer entered
      unfold LookupAhead
      rw [phase]
      exact ⟨⟨env, after, approved⟩, accepts⟩
  | inHandler spec =>
      cases served : (spec.handler.body task.call.arguments).run env with
      | ok output after => simp [phase, served, LookupAhead] at ahead
      | error exc after => simp [phase, served, LookupAhead] at ahead
  | returned result => simp [phase, LookupAhead] at ahead
  | raised exc => simp [phase, LookupAhead] at ahead

end Lookup

/-! ### Retrieval -/

section Retrieval

variable {name : String} {arguments : Arguments}
  {next : ToolReply → ModelRun String} {env : σ}

/-- The worker has entered a tool, or still has one ahead of it. -/
def Pending (tasks : TurnTasks σ) (progress : RetrievalProgress σ) : Prop :=
  progress.entered = true ∨ RetrievalAhead tasks progress.phase

theorem passed_of_afterCheck {outcome : Except PyExc Unit}
    (pending :
      Pending tasks (TurnTasks.afterCheck name arguments next env outcome)) :
    outcome = .ok () := by
  cases outcome with
  | ok passed => rfl
  | error exc =>
      rcases pending with entered | ahead
      · cases entered
      · exact ahead.elim

theorem approved_of_afterAnswer {outcome : EStateM.Result PyExc σ Bool}
    (pending :
      Pending tasks (TurnTasks.afterAnswer name arguments next outcome)) :
    ∃ after, outcome = .ok true after := by
  cases outcome with
  | ok approved after =>
      have concluded := passed_of_afterCheck pending
      cases approved with
      | true => exact ⟨after, rfl⟩
      | false => cases concluded
  | error exc after => cases passed_of_afterCheck pending

/-- What a hook that is started can come to. -/
theorem callAhead_of_startHook (response : ModelResponse)
    (pending : Pending tasks (tasks.startHook name arguments next env)) :
    CallAhead tasks (.call response name arguments next) := by
  intro gate gated
  obtain ⟨start, starts⟩ :=
    gate.exists_starts (TurnTasks.mcpCall name arguments) .readOnly env
  rw [tasks.startHook_of_starts name arguments next gated starts] at pending
  apply canPass_of_starts starts
  cases start with
  | concluded outcome => exact passed_of_afterCheck pending
  | answered outcome => exact approved_of_afterAnswer pending
  | suspended resolve after => exact pending.resolve_left Bool.false_ne_true

/-- The same for the retrieval worker. -/
theorem retrievalAhead_of_advance {phase : RetrievalPhase σ}
    (pending : Pending tasks (tasks.advanceRetrieval phase env)) :
    RetrievalAhead tasks phase := by
  unfold TurnTasks.advanceRetrieval at pending
  cases phase with
  | created =>
      cases chosen :
          (tasks.flow.retrievalModel tasks.retrievalPrompt).run env with
      | ok behaviour after =>
          simp only [chosen] at pending
          exact ⟨env, behaviour, after, chosen, pending.resolve_left (by simp)⟩
      | error exc after =>
          simp only [chosen] at pending
          exact (pending.resolve_left (by simp)).elim
  | awaitingModel behaviour =>
      cases behaviour with
      | answer response output messages =>
          exact (pending.resolve_left (by simp)).elim
      | raises exc => exact (pending.resolve_left (by simp)).elim
      | call response name arguments next =>
          exact callAhead_of_startHook response pending
  | awaitingApproval name arguments next resolve =>
      obtain ⟨after, approved⟩ := approved_of_afterAnswer pending
      exact ⟨env, after, approved⟩
  | inServer name arguments next =>
      cases served : (tasks.flow.server name arguments).run env with
      | ok reply after =>
          simp only [served] at pending
          exact ⟨env, reply, after, served, pending.resolve_left (by simp)⟩
      | error exc after =>
          simp only [served] at pending
          exact (pending.resolve_left (by simp)).elim
  | returned output => exact (pending.resolve_left (by simp)).elim
  | raised exc => exact (pending.resolve_left (by simp)).elim

end Retrieval

end Advance

/-! ## What they can still enter -/

/-- Some sequence of resumptions, in worlds of their own, makes a task enter a
tool. -/
inductive CanEnter {P : Type} (advance : P → σ → P × σ × Bool) : P → Prop where
  | now (phase : P) (env : σ) (entered : (advance phase env).2.2 = true) :
      CanEnter advance phase
  | later (phase : P) (env : σ) (rest : CanEnter advance (advance phase env).1) :
      CanEnter advance phase

/-- The resumption of the retrieval worker, in the shape of that of a lookup. -/
def stepRetrieval (tasks : TurnTasks σ) (phase : RetrievalPhase σ) (env : σ) :
    RetrievalPhase σ × σ × Bool :=
  let progress := tasks.advanceRetrieval phase env
  (progress.phase, progress.env, progress.entered)

section Converse

variable {tasks : TurnTasks σ}

theorem canEnter_of_awaiting {task : ChokePoint.Task σ} {spec : ToolSpec σ}
    {resolve : Py σ Bool} {later final : σ}
    (phase : task.phase = .awaitingApproval spec resolve)
    (approved : resolve.run later = .ok true final)
    (accepts : spec.handler.Accepts task.call.arguments) :
    CanEnter (advanceLookup tasks) task := by
  have binding : spec.handler.bindError task.call.arguments = none := accepts
  apply CanEnter.now task later
  simp [advanceLookup, ChokePoint.advance, ChokePoint.afterAnswer,
    ChokePoint.afterCheck, ApprovalGate.conclude, phase, approved, binding,
    isEntry]

theorem canEnter_of_passable {task : ChokePoint.Task σ} {spec : ToolSpec σ}
    {env : σ} {start : ApprovalGate.CheckStart σ}
    (created : task.phase = .created)
    (found : tasks.tools.tools.get? task.call.toolName = some spec)
    (starts : task.grants.gate.Starts task.call spec.riskTier env start)
    (passable : Passable start)
    (accepts : spec.handler.Accepts task.call.arguments) :
    CanEnter (advanceLookup tasks) task := by
  have binding : spec.handler.bindError task.call.arguments = none := accepts
  have started := @ChokePoint.startCheck_of_starts σ 0 task spec env _ starts
  cases start with
  | concluded outcome =>
      cases passable
      apply CanEnter.now task env
      simp [advanceLookup, ChokePoint.advance, created, found, started,
        ChokePoint.afterStart, ChokePoint.afterCheck, binding, isEntry]
  | answered outcome =>
      obtain ⟨after, rfl⟩ := passable
      apply CanEnter.now task env
      simp [advanceLookup, ChokePoint.advance, created, found, started,
        ChokePoint.afterStart, ChokePoint.afterAnswer, ChokePoint.afterCheck,
        ApprovalGate.conclude, binding, isEntry]
  | suspended resolve after =>
      obtain ⟨later, final, approved⟩ := passable
      apply CanEnter.later task env
      have awaiting :
          (advanceLookup tasks task env).1.phase =
            .awaitingApproval spec resolve := by
        simp [advanceLookup, ChokePoint.advance, created, found, started,
          ChokePoint.afterStart]
      exact canEnter_of_awaiting awaiting approved accepts

theorem canEnter_of_lookupAhead {task : ChokePoint.Task σ} (env : σ)
    (ahead : LookupAhead tasks task) : CanEnter (advanceLookup tasks) task := by
  unfold LookupAhead at ahead
  cases phase : task.phase with
  | created =>
      rw [phase] at ahead
      obtain ⟨spec, found, passes, accepts⟩ := ahead
      obtain ⟨asked, start, starts, passable⟩ := exists_passable_start env passes
      exact canEnter_of_passable phase found starts passable accepts
  | awaitingApproval spec resolve =>
      rw [phase] at ahead
      obtain ⟨⟨later, final, approved⟩, accepts⟩ := ahead
      exact canEnter_of_awaiting phase approved accepts
  | inHandler spec =>
      rw [phase] at ahead
      exact ahead.elim
  | returned result =>
      rw [phase] at ahead
      exact ahead.elim
  | raised exc =>
      rw [phase] at ahead
      exact ahead.elim

section Hook

variable {name : String} {arguments : Arguments}
  {next : ToolReply → ModelRun String}

theorem canEnter_of_approval {resolve : Py σ Bool} {later final : σ}
    (approved : resolve.run later = .ok true final) :
    CanEnter (stepRetrieval tasks)
      (.awaitingApproval name arguments next resolve) := by
  apply CanEnter.now _ later
  simp [stepRetrieval, TurnTasks.advanceRetrieval, TurnTasks.afterAnswer,
    TurnTasks.afterCheck, ApprovalGate.conclude, approved]

theorem canEnter_of_hook {gate : ApprovalGate σ} {env : σ}
    {start : ApprovalGate.CheckStart σ} (response : ModelResponse)
    (gated : tasks.approvalGate = some gate)
    (starts :
      gate.Starts (TurnTasks.mcpCall name arguments) .readOnly env start)
    (passable : Passable start) :
    CanEnter (stepRetrieval tasks)
      (.awaitingModel (.call response name arguments next)) := by
  have started := tasks.startHook_of_starts name arguments next gated starts
  cases start with
  | concluded outcome =>
      cases passable
      apply CanEnter.now _ env
      simp [stepRetrieval, TurnTasks.advanceRetrieval, started,
        TurnTasks.afterStart, TurnTasks.afterCheck]
  | answered outcome =>
      obtain ⟨after, rfl⟩ := passable
      apply CanEnter.now _ env
      simp [stepRetrieval, TurnTasks.advanceRetrieval, started,
        TurnTasks.afterStart, TurnTasks.afterAnswer, TurnTasks.afterCheck,
        ApprovalGate.conclude]
  | suspended resolve after =>
      obtain ⟨later, final, approved⟩ := passable
      apply CanEnter.later _ env
      have awaiting :
          (stepRetrieval tasks
              (.awaitingModel (.call response name arguments next)) env).1 =
            .awaitingApproval name arguments next resolve := by
        simp [stepRetrieval, TurnTasks.advanceRetrieval, started,
          TurnTasks.afterStart]
      rw [awaiting]
      exact canEnter_of_approval approved

end Hook

theorem canEnter_of_callAhead {behaviour : ModelRun String} (env : σ)
    (ahead : CallAhead tasks behaviour) :
    CanEnter (stepRetrieval tasks) (.awaitingModel behaviour) := by
  cases behaviour with
  | answer response output messages => exact ahead.elim
  | raises exc => exact ahead.elim
  | call response name arguments next =>
      cases gated : tasks.approvalGate with
      | none =>
          apply CanEnter.now _ env
          simp [stepRetrieval, TurnTasks.advanceRetrieval, TurnTasks.startHook,
            TurnTasks.afterCheck, gated]
      | some gate =>
          obtain ⟨asked, start, starts, passable⟩ :=
            exists_passable_start env (ahead gate gated)
          exact canEnter_of_hook response gated starts passable

theorem canEnter_of_retrievalAhead {phase : RetrievalPhase σ} (env : σ)
    (ahead : RetrievalAhead tasks phase) :
    CanEnter (stepRetrieval tasks) phase := by
  cases phase with
  | created =>
      obtain ⟨chosen, behaviour, after, chooses, calls⟩ := ahead
      apply CanEnter.later _ chosen
      have next :
          (stepRetrieval tasks .created chosen).1 = .awaitingModel behaviour := by
        simp [stepRetrieval, TurnTasks.advanceRetrieval, chooses]
      rw [next]
      exact canEnter_of_callAhead env calls
  | awaitingModel behaviour => exact canEnter_of_callAhead env ahead
  | awaitingApproval name arguments next resolve =>
      obtain ⟨later, final, approved⟩ := ahead
      exact canEnter_of_approval approved
  | inServer name arguments next =>
      obtain ⟨served, reply, after, serves, calls⟩ := ahead
      apply CanEnter.later _ served
      have continues :
          (stepRetrieval tasks (.inServer name arguments next) served).1 =
            .awaitingModel (next reply) := by
        simp [stepRetrieval, TurnTasks.advanceRetrieval, serves]
      rw [continues]
      exact canEnter_of_callAhead env calls
  | returned output => exact ahead.elim
  | raised exc => exact ahead.elim

end Converse

end GatherLoop

end FableHarness
