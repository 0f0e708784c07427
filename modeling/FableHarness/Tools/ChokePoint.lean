import Mathlib.Data.List.Induction
import FableHarness.Library.LabelledRun
import FableHarness.Tools.Registry

/-!
# The choke point under concurrency

Any number of `execute` calls are in flight on one event loop.  A resumption
runs one of them from its current await point to its next one; between two
resumptions other calls, registrations and any other code may run.  The log
records, per call, the specification its lookup found, the answer of its
callback, and the handler it entered.
-/

namespace FableHarness

open ExceptionState LabelledRun

namespace ChokePoint

variable {σ : Type}

/-- Where a call of `execute` is suspended, or how it ended. -/
inductive Phase (σ : Type) where
  | created
  | awaitingApproval (spec : ToolSpec σ) (resolve : Py σ Bool)
  | inHandler (spec : ToolSpec σ)
  | returned (result : ToolResult)
  | raised (exc : PyExc)

structure Task (σ : Type) where
  call : ToolCall
  grants : PermissionGrants σ
  phase : Phase σ := .created

inductive Event (σ : Type) where
  | lookedUp (task : Nat) (spec : Option (ToolSpec σ))
  | answered (task : Nat) (tier : RiskTier) (answer : Except PyExc Bool)
  | entered (task : Nat) (spec : ToolSpec σ)

def Event.task : Event σ → Nat
  | .lookedUp task _ => task
  | .answered task _ _ => task
  | .entered task _ => task

structure EventLoop (σ : Type) where
  env : σ
  registry : InMemoryToolRegistry σ
  tasks : List (Task σ)
  log : List (Event σ)

/-- No call has been made yet. -/
def EventLoop.initial (env : σ) (registry : InMemoryToolRegistry σ) :
    EventLoop σ :=
  ⟨env, registry, [], []⟩

inductive Label (σ : Type) where
  | spawn (call : ToolCall) (grants : PermissionGrants σ)
  | resume (task : Nat)
  | register (spec : ToolSpec σ)
  | outside (change : σ → σ)

/-- What one resumption leaves behind. -/
structure Progress (σ : Type) where
  phase : Phase σ
  env : σ
  events : List (Event σ)

/-- The check is over: enter the handler, or end the call. -/
def afterCheck (index : Nat) (task : Task σ) (spec : ToolSpec σ) (env : σ) :
    Except PyExc Unit → Progress σ
  | .ok () =>
      match spec.handler.bindError task.call.arguments with
      | none => ⟨.inHandler spec, env, [.entered index spec]⟩
      | some message =>
          ⟨.returned (InMemoryToolRegistry.failed spec message), env, []⟩
  | .error (.permissionDenied message) =>
      ⟨.returned (InMemoryToolRegistry.failed spec message), env, []⟩
  | .error exc => ⟨.raised exc, env, []⟩

/-- The callback has answered, directly or through its awaitable. -/
def afterAnswer (index : Nat) (task : Task σ) (spec : ToolSpec σ) :
    EStateM.Result PyExc σ Bool → Progress σ
  | .ok approved env =>
      let progress :=
        afterCheck index task spec env
          (ApprovalGate.conclude task.call spec.riskTier approved)
      { progress with
        events := .answered index spec.riskTier (.ok approved) :: progress.events }
  | .error exc env =>
      let progress := afterCheck index task spec env (.error exc)
      { progress with
        events := .answered index spec.riskTier (.error exc) :: progress.events }

/-- `gate.check` up to its await point. -/
def startCheck (index : Nat) (task : Task σ) (spec : ToolSpec σ) (env : σ) :
    Progress σ :=
  match task.grants.gate.matrix.policyFor spec.riskTier with
  | .autoAllow => afterCheck index task spec env (.ok ())
  | .deny =>
      afterCheck index task spec env
        (.error (ApprovalGate.notAllowed task.call spec.riskTier))
  | .requireApproval =>
      match task.grants.gate.onApprovalNeeded with
      | none =>
          afterCheck index task spec env
            (.error (ApprovalGate.noApprovalGate task.call spec.riskTier))
      | some callback =>
          match (callback task.call spec.riskTier).run env with
          | .ok (.value approved) env' =>
              afterAnswer index task spec (.ok approved env')
          | .ok (.awaitable resolve) env' =>
              ⟨.awaitingApproval spec resolve, env', []⟩
          | .error exc env' => afterAnswer index task spec (.error exc env')

/-- Run one call from where it is suspended to its next await point. -/
def advance (registry : InMemoryToolRegistry σ) (index : Nat)
    (task : Task σ) (env : σ) : Progress σ :=
  match task.phase with
  | .created =>
      match registry.tools.get? task.call.toolName with
      | none =>
          ⟨.returned (InMemoryToolRegistry.unknownTool task.call), env,
            [.lookedUp index none]⟩
      | some spec =>
          let progress := startCheck index task spec env
          { progress with
            events := .lookedUp index (some spec) :: progress.events }
  | .awaitingApproval spec resolve =>
      afterAnswer index task spec (resolve.run env)
  | .inHandler spec =>
      match (spec.handler.body task.call.arguments).run env with
      | .ok output env' =>
          ⟨.returned (InMemoryToolRegistry.succeeded spec output), env', []⟩
      | .error exc env' =>
          ⟨.returned (InMemoryToolRegistry.failed spec exc.message), env', []⟩
  | .returned result => ⟨.returned result, env, []⟩
  | .raised exc => ⟨.raised exc, env, []⟩

def step (loop : EventLoop σ) : Label σ → EventLoop σ
  | .spawn call grants =>
      { loop with tasks := loop.tasks ++ [⟨call, grants, .created⟩] }
  | .register spec => { loop with registry := loop.registry.register spec }
  | .outside change => { loop with env := change loop.env }
  | .resume index =>
      match loop.tasks[index]? with
      | none => loop
      | some task =>
          let progress := advance loop.registry index task loop.env
          { loop with
            env := progress.env
            tasks := loop.tasks.set index { task with phase := progress.phase }
            log := loop.log ++ progress.events }

/-! ## The trail one call leaves in the log -/

def Phase.Finished : Phase σ → Prop
  | .returned _ => True
  | .raised _ => True
  | _ => False

/-- What the log says about one call. -/
def trail (log : List (Event σ)) (index : Nat) : List (Event σ) :=
  log.filter fun event => event.task == index

@[simp]
theorem trail_append (log rest : List (Event σ)) (index : Nat) :
    trail (log ++ rest) index = trail log index ++ trail rest index :=
  List.filter_append ..

theorem mem_trail_iff {log : List (Event σ)} {index : Nat} {event : Event σ} :
    event ∈ trail log index ↔ event ∈ log ∧ event.task = index := by
  simp [trail]

theorem trail_eq_self {log : List (Event σ)} {index : Nat}
    (own : ∀ event ∈ log, event.task = index) :
    trail log index = log :=
  List.filter_eq_self.mpr fun event member => by simp [own event member]

theorem trail_eq_nil {log : List (Event σ)} {index other : Nat}
    (own : ∀ event ∈ log, event.task = index) (different : index ≠ other) :
    trail log other = [] :=
  List.filter_eq_nil_iff.mpr fun event member => by
    simp [own event member, different]

/-- The events of one finished check of `spec`, and whether it let the call
pass. -/
inductive Checked (index : Nat) (grants : PermissionGrants σ)
    (spec : ToolSpec σ) : List (Event σ) → Bool → Prop
  | autoAllow :
      grants.gate.matrix.policyFor spec.riskTier = .autoAllow →
      Checked index grants spec [] true
  | deny :
      grants.gate.matrix.policyFor spec.riskTier = .deny →
      Checked index grants spec [] false
  | noCallback :
      grants.gate.matrix.policyFor spec.riskTier = .requireApproval →
      grants.gate.onApprovalNeeded = none →
      Checked index grants spec [] false
  | approved :
      grants.gate.matrix.policyFor spec.riskTier = .requireApproval →
      grants.gate.onApprovalNeeded.isSome →
      Checked index grants spec
        [.answered index spec.riskTier (.ok true)] true
  | refused (answer : Except PyExc Bool) :
      grants.gate.matrix.policyFor spec.riskTier = .requireApproval →
      grants.gate.onApprovalNeeded.isSome →
      answer ≠ .ok true →
      Checked index grants spec
        [.answered index spec.riskTier answer] false

/-- Every trail a call can have left, phase by phase. -/
inductive Trail (index : Nat) (call : ToolCall) (grants : PermissionGrants σ) :
    Phase σ → List (Event σ) → Prop
  | created : Trail index call grants .created []
  | unknownTool (result : ToolResult) :
      Trail index call grants (.returned result) [.lookedUp index none]
  | awaiting (spec : ToolSpec σ) (resolve : Py σ Bool) :
      grants.gate.matrix.policyFor spec.riskTier = .requireApproval →
      grants.gate.onApprovalNeeded.isSome →
      Trail index call grants (.awaitingApproval spec resolve)
        [.lookedUp index (some spec)]
  | blocked (spec : ToolSpec σ) (events : List (Event σ)) (phase : Phase σ) :
      Checked index grants spec events false →
      phase.Finished →
      Trail index call grants phase (.lookedUp index (some spec) :: events)
  | unbound (spec : ToolSpec σ) (events : List (Event σ)) (result : ToolResult) :
      Checked index grants spec events true →
      ¬ spec.handler.Accepts call.arguments →
      Trail index call grants (.returned result)
        (.lookedUp index (some spec) :: events)
  | inHandler (spec : ToolSpec σ) (events : List (Event σ)) :
      Checked index grants spec events true →
      spec.handler.Accepts call.arguments →
      Trail index call grants (.inHandler spec)
        (.lookedUp index (some spec) :: (events ++ [.entered index spec]))
  | served (spec : ToolSpec σ) (events : List (Event σ)) (result : ToolResult) :
      Checked index grants spec events true →
      spec.handler.Accepts call.arguments →
      Trail index call grants (.returned result)
        (.lookedUp index (some spec) :: (events ++ [.entered index spec]))

section StepLemmas

variable {index : Nat} {task : Task σ} {spec : ToolSpec σ} {env : σ}

/-- A check that let the call pass leads into the handler or, when the
arguments do not bind, to a `TypeError` result. -/
theorem trail_afterCheck_ok (env : σ) {events : List (Event σ)}
    (checked : Checked index task.grants spec events true) :
    Trail index task.call task.grants
      (afterCheck index task spec env (.ok ())).phase
      (.lookedUp index (some spec) ::
        (events ++ (afterCheck index task spec env (.ok ())).events)) := by
  unfold afterCheck
  cases binding : spec.handler.bindError task.call.arguments with
  | none =>
      exact Trail.inHandler spec events checked binding
  | some message =>
      have rejected : ¬ spec.handler.Accepts task.call.arguments := by
        simp [Handler.Accepts, binding]
      simpa [binding] using
        Trail.unbound spec events
          (InMemoryToolRegistry.failed spec message) checked rejected

/-- A check that raised ends the call, as a result or as an exception. -/
theorem trail_afterCheck_error (env : σ) (exc : PyExc)
    {events : List (Event σ)}
    (checked : Checked index task.grants spec events false) :
    Trail index task.call task.grants
      (afterCheck index task spec env (.error exc)).phase
      (.lookedUp index (some spec) ::
        (events ++ (afterCheck index task spec env (.error exc)).events)) := by
  unfold afterCheck
  cases exc with
  | permissionDenied message =>
      have blocked :
          Trail index task.call task.grants
            (.returned (InMemoryToolRegistry.failed spec message))
            (.lookedUp index (some spec) :: events) :=
        .blocked spec events _ checked trivial
      simpa using blocked
  | usageLimitExceeded message =>
      have blocked :
          Trail index task.call task.grants
            (.raised (.usageLimitExceeded message))
            (.lookedUp index (some spec) :: events) :=
        .blocked spec events _ checked trivial
      simpa using blocked
  | other className message =>
      have blocked :
          Trail index task.call task.grants (.raised (.other className message))
            (.lookedUp index (some spec) :: events) :=
        .blocked spec events _ checked trivial
      simpa using blocked

theorem trail_afterAnswer
    (policy :
      task.grants.gate.matrix.policyFor spec.riskTier = .requireApproval)
    (present : task.grants.gate.onApprovalNeeded.isSome)
    (outcome : EStateM.Result PyExc σ Bool) :
    Trail index task.call task.grants
      (afterAnswer index task spec outcome).phase
      (.lookedUp index (some spec) ::
        (afterAnswer index task spec outcome).events) := by
  cases outcome with
  | ok approved after =>
      cases approved with
      | true =>
          exact
            trail_afterCheck_ok after (Checked.approved policy present)
      | false =>
          exact
            trail_afterCheck_error after _
              (Checked.refused (.ok false) policy present (by simp))
  | error exc after =>
      exact
        trail_afterCheck_error after exc
          (Checked.refused (.error exc) policy present (by simp))

/-- What is left behind by a check that starts in this way. -/
def afterStart (index : Nat) (task : Task σ) (spec : ToolSpec σ) (env : σ) :
    ApprovalGate.CheckStart σ → Progress σ
  | .concluded outcome => afterCheck index task spec env outcome
  | .answered outcome => afterAnswer index task spec outcome
  | .suspended resolve after => ⟨.awaitingApproval spec resolve, after, []⟩

theorem startCheck_of_starts {start : ApprovalGate.CheckStart σ}
    (starts : task.grants.gate.Starts task.call spec.riskTier env start) :
    startCheck index task spec env = afterStart index task spec env start := by
  unfold startCheck
  cases starts with
  | allowed policy => rw [policy]; rfl
  | denied policy => rw [policy]; rfl
  | unasked policy absent => rw [policy, absent]; rfl
  | failed callback exc after policy present asked =>
      simp only [policy, present, asked, afterStart]
  | answered callback approved after policy present asked =>
      simp only [policy, present, asked, afterStart]
  | suspended callback resolve after policy present asked =>
      simp only [policy, present, asked, afterStart]

theorem trail_startCheck :
    Trail index task.call task.grants
      (startCheck index task spec env).phase
      (.lookedUp index (some spec) ::
        (startCheck index task spec env).events) := by
  obtain ⟨start, starts⟩ :=
    task.grants.gate.exists_starts task.call spec.riskTier env
  rw [startCheck_of_starts starts]
  have asks :
      ∀ callback, task.grants.gate.onApprovalNeeded = some callback →
        task.grants.gate.onApprovalNeeded.isSome :=
    fun _ present => by simp [present]
  cases starts with
  | allowed policy =>
      exact trail_afterCheck_ok env (Checked.autoAllow policy)
  | denied policy =>
      exact trail_afterCheck_error env _ (Checked.deny policy)
  | unasked policy absent =>
      exact trail_afterCheck_error env _ (Checked.noCallback policy absent)
  | failed callback exc after policy present asked =>
      exact trail_afterAnswer policy (asks callback present) _
  | answered callback approved after policy present asked =>
      exact trail_afterAnswer policy (asks callback present) _
  | suspended callback resolve after policy present asked =>
      exact Trail.awaiting spec resolve policy (asks callback present)

/-- One resumption continues the trail of its call. -/
theorem trail_advance {registry : InMemoryToolRegistry σ}
    {events : List (Event σ)}
    (before : Trail index task.call task.grants task.phase events) :
    Trail index task.call task.grants
      (advance registry index task env).phase
      (events ++ (advance registry index task env).events) := by
  unfold advance
  cases phase : task.phase with
  | created =>
      rw [phase] at before
      cases before with
      | created =>
          cases registry.tools.get? task.call.toolName with
          | none =>
              exact Trail.unknownTool _
          | some found =>
              exact trail_startCheck
      | blocked _ _ _ _ finished =>
          exact finished.elim
  | awaitingApproval spec resolve =>
      rw [phase] at before
      cases before with
      | awaiting _ _ policy present =>
          exact trail_afterAnswer policy present _
      | blocked _ _ _ _ finished =>
          exact finished.elim
  | inHandler spec =>
      rw [phase] at before
      cases before with
      | inHandler _ checks checked accepted =>
          simp only
          cases (spec.handler.body task.call.arguments).run env with
          | ok output after =>
              simpa using Trail.served spec checks _ checked accepted
          | error exc after =>
              simpa using Trail.served spec checks _ checked accepted
      | blocked _ _ _ _ finished =>
          exact finished.elim
  | returned result =>
      rw [phase] at before
      simpa using before
  | raised exc =>
      rw [phase] at before
      simpa using before

end StepLemmas

/-! ## Ownership of events -/

section Ownership

variable {index : Nat} {task : Task σ} {spec : ToolSpec σ} {env : σ}

theorem task_of_mem_afterCheck {outcome : Except PyExc Unit} {event : Event σ}
    (member : event ∈ (afterCheck index task spec env outcome).events) :
    event.task = index := by
  unfold afterCheck at member
  split at member
  · split at member
    · rw [List.mem_singleton.mp member]
      rfl
    · cases member
  · cases member
  · cases member

theorem task_of_mem_afterAnswer {outcome : EStateM.Result PyExc σ Bool}
    {event : Event σ}
    (member : event ∈ (afterAnswer index task spec outcome).events) :
    event.task = index := by
  cases outcome with
  | ok approved after =>
      rcases List.mem_cons.mp member with first | later
      · rw [first]
        rfl
      · exact task_of_mem_afterCheck later
  | error exc after =>
      rcases List.mem_cons.mp member with first | later
      · rw [first]
        rfl
      · exact task_of_mem_afterCheck later

theorem task_of_mem_startCheck {event : Event σ}
    (member : event ∈ (startCheck index task spec env).events) :
    event.task = index := by
  obtain ⟨start, starts⟩ :=
    task.grants.gate.exists_starts task.call spec.riskTier env
  rw [startCheck_of_starts starts] at member
  cases start with
  | concluded outcome => exact task_of_mem_afterCheck member
  | answered outcome => exact task_of_mem_afterAnswer member
  | suspended resolve after => cases member

theorem task_of_mem_advance {registry : InMemoryToolRegistry σ}
    {event : Event σ}
    (member : event ∈ (advance registry index task env).events) :
    event.task = index := by
  unfold advance at member
  split at member
  · split at member
    · rw [List.mem_singleton.mp member]
      rfl
    · rcases List.mem_cons.mp member with first | later
      · rw [first]
        rfl
      · exact task_of_mem_startCheck later
  · exact task_of_mem_afterAnswer member
  · split at member <;> cases member
  · cases member
  · cases member

end Ownership

/-! ## The invariant of the event loop -/

/-- Every call has left a trail that fits its phase, and nothing is logged for
calls that were never made. -/
structure Consistent (loop : EventLoop σ) : Prop where
  trails :
    ∀ index task,
      loop.tasks[index]? = some task →
        Trail index task.call task.grants task.phase (trail loop.log index)
  silent : ∀ index, loop.tasks.length ≤ index → trail loop.log index = []

theorem consistent_initial (env : σ) (registry : InMemoryToolRegistry σ) :
    Consistent (EventLoop.initial env registry) where
  trails := by
    intro index task found
    cases found
  silent := fun _ _ => rfl

theorem consistent_spawn {loop : EventLoop σ} (consistent : Consistent loop)
    (call : ToolCall) (grants : PermissionGrants σ) :
    Consistent (step loop (.spawn call grants)) where
  trails := by
    intro index task found
    rcases Nat.lt_trichotomy index loop.tasks.length with old | new | beyond
    · apply consistent.trails
      simpa only [step, List.getElem?_append_left old] using found
    · subst new
      simp only [step, List.getElem?_append_right (Nat.le_refl _),
        Nat.sub_self, List.getElem?_cons_zero, Option.some.injEq] at found
      subst found
      have untouched := consistent.silent loop.tasks.length (Nat.le_refl _)
      change Trail _ call grants .created (trail loop.log _)
      rw [untouched]
      exact Trail.created
    · rw [List.getElem?_eq_none (by simp [step]; omega)] at found
      cases found
  silent := by
    intro index beyond
    apply consistent.silent
    simp only [step, List.length_append, List.length_singleton] at beyond
    omega

theorem consistent_resume {loop : EventLoop σ} (consistent : Consistent loop)
    (index : Nat) : Consistent (step loop (.resume index)) := by
  cases found : loop.tasks[index]? with
  | none =>
      simpa only [step, found] using consistent
  | some task =>
      have own :
          ∀ event ∈ (advance loop.registry index task loop.env).events,
            event.task = index :=
        fun _ member => task_of_mem_advance member
      have inRange : index < loop.tasks.length :=
        (List.getElem?_eq_some_iff.mp found).1
      constructor
      · intro other otherTask otherFound
        simp only [step, found] at otherFound ⊢
        rw [trail_append]
        by_cases same : index = other
        · subst same
          rw [List.getElem?_set_self inRange] at otherFound
          cases otherFound
          rw [trail_eq_self own]
          exact trail_advance (consistent.trails index task found)
        · rw [List.getElem?_set_ne same] at otherFound
          rw [trail_eq_nil own same, List.append_nil]
          exact consistent.trails other otherTask otherFound
      · intro other beyond
        simp only [step, found, List.length_set] at beyond ⊢
        have different : index ≠ other := by omega
        rw [trail_append, trail_eq_nil own different, List.append_nil]
        exact consistent.silent other beyond

theorem consistent_step (loop : EventLoop σ) (label : Label σ)
    (consistent : Consistent loop) : Consistent (step loop label) := by
  cases label with
  | spawn call grants =>
      exact consistent_spawn consistent call grants
  | resume index =>
      exact consistent_resume consistent index
  | register spec =>
      exact ⟨consistent.trails, consistent.silent⟩
  | outside change =>
      exact ⟨consistent.trails, consistent.silent⟩

theorem consistent_run (env : σ) (registry : InMemoryToolRegistry σ)
    (schedule : List (Label σ)) :
    Consistent (run step (EventLoop.initial env registry) schedule) :=
  run_invariant step consistent_step (consistent_initial env registry) schedule

/-! ## Lookups -/

section Lookups

variable {index : Nat} {task : Task σ} {spec : ToolSpec σ} {env : σ}
  {found : Option (ToolSpec σ)}

theorem lookedUp_not_mem_afterCheck (outcome : Except PyExc Unit) :
    Event.lookedUp index found ∉
      (afterCheck index task spec env outcome).events := by
  unfold afterCheck
  split
  · split <;> simp
  · simp
  · simp

theorem lookedUp_not_mem_afterAnswer (outcome : EStateM.Result PyExc σ Bool) :
    Event.lookedUp index found ∉
      (afterAnswer index task spec outcome).events := by
  cases outcome <;>
    simp [afterAnswer, lookedUp_not_mem_afterCheck]

theorem lookedUp_not_mem_startCheck :
    Event.lookedUp index found ∉ (startCheck index task spec env).events := by
  obtain ⟨start, starts⟩ :=
    task.grants.gate.exists_starts task.call spec.riskTier env
  rw [startCheck_of_starts starts]
  cases start with
  | concluded outcome => exact lookedUp_not_mem_afterCheck outcome
  | answered outcome => exact lookedUp_not_mem_afterAnswer outcome
  | suspended resolve after => exact List.not_mem_nil

/-- A resumption logs a lookup exactly when it is the first one of its call,
and then logs what the registry held at that moment. -/
theorem lookedUp_mem_advance_iff {registry : InMemoryToolRegistry σ} :
    Event.lookedUp index found ∈ (advance registry index task env).events ↔
      task.phase = .created ∧
        registry.tools.get? task.call.toolName = found := by
  unfold advance
  cases phase : task.phase with
  | created =>
      cases held : registry.tools.get? task.call.toolName with
      | none =>
          simp [eq_comm]
      | some other =>
          simp [lookedUp_not_mem_startCheck, eq_comm]
  | awaitingApproval other resolve =>
      simp [lookedUp_not_mem_afterAnswer]
  | inHandler other =>
      simp only
      split <;> simp
  | returned result =>
      simp
  | raised exc =>
      simp

end Lookups

/-- The first resumption of the task `index`, which executes `call`, happened
when `found` was registered under the name of the tool. -/
def LookedUp (start : EventLoop σ) (schedule : List (Label σ)) (index : Nat)
    (call : ToolCall) (found : Option (ToolSpec σ)) : Prop :=
  ∃ before after task,
    schedule = before ++ .resume index :: after ∧
      (run step start before).tasks[index]? = some task ∧
      task.phase = .created ∧
      task.call = call ∧
      (run step start before).registry.tools.get? call.toolName = found

theorem lookedUp_concat_iff {start : EventLoop σ} {schedule : List (Label σ)}
    {label : Label σ} {index : Nat} {call : ToolCall}
    {found : Option (ToolSpec σ)} :
    LookedUp start (schedule ++ [label]) index call found ↔
      LookedUp start schedule index call found ∨
        label = .resume index ∧
          ∃ task,
            (run step start schedule).tasks[index]? = some task ∧
              task.phase = .created ∧
              task.call = call ∧
              (run step start schedule).registry.tools.get?
                call.toolName = found := by
  constructor
  · rintro ⟨before, after, task, split, rest⟩
    rcases List.eq_nil_or_concat' after with rfl | ⟨later, last, rfl⟩
    · obtain ⟨rfl, lastEqual⟩ := List.append_inj' split rfl
      exact Or.inr ⟨List.singleton_inj.mp lastEqual, task, rest⟩
    · rw [← List.cons_append, ← List.append_assoc] at split
      obtain ⟨rfl, _⟩ := List.append_inj' split rfl
      exact Or.inl ⟨before, later, task, rfl, rest⟩
  · rintro (⟨before, after, task, rfl, rest⟩ | ⟨rfl, task, rest⟩)
    · exact ⟨before, after ++ [label], task, by simp, rest⟩
    · exact ⟨schedule, [], task, rfl, rest⟩

theorem lookedUp_mem_step_iff {loop : EventLoop σ} {label : Label σ}
    {index : Nat} {found : Option (ToolSpec σ)} :
    Event.lookedUp index found ∈ (step loop label).log ↔
      Event.lookedUp index found ∈ loop.log ∨
        label = .resume index ∧
          ∃ task,
            loop.tasks[index]? = some task ∧
              task.phase = .created ∧
              loop.registry.tools.get? task.call.toolName = found := by
  cases label with
  | spawn call grants => simp [step]
  | register spec => simp [step]
  | outside change => simp [step]
  | resume other =>
      cases present : loop.tasks[other]? with
      | none =>
          have absent :
              ¬ (other = index ∧ ∃ task, loop.tasks[index]? = some task ∧
                task.phase = .created ∧
                loop.registry.tools.get? task.call.toolName = found) := by
            rintro ⟨rfl, task, held, _⟩
            rw [present] at held
            cases held
          simp only [step, present, Label.resume.injEq, absent, or_false]
      | some task =>
          simp only [step, present, List.mem_append, Label.resume.injEq]
          by_cases same : other = index
          · subst same
            simp only [lookedUp_mem_advance_iff, present, true_and,
              Option.some.injEq, exists_eq_left']
          · have foreign :
                Event.lookedUp index found ∉
                  (advance loop.registry other task loop.env).events :=
              fun member => same (task_of_mem_advance member).symm
            simp only [foreign, same, false_and, or_false]

/-- The lookups in the log are the lookups of the schedule. -/
theorem lookedUp_mem_iff (env : σ) (registry : InMemoryToolRegistry σ)
    (schedule : List (Label σ)) {index : Nat}
    {found : Option (ToolSpec σ)} :
    Event.lookedUp index found ∈
        (run step (.initial env registry) schedule).log ↔
      ∃ call, LookedUp (.initial env registry) schedule index call found := by
  induction schedule using List.reverseRecOn with
  | nil =>
      simp [EventLoop.initial, LookedUp]
  | append_singleton initial label inductionHypothesis =>
      rw [run_concat, lookedUp_mem_step_iff, inductionHypothesis]
      simp only [lookedUp_concat_iff, exists_or]
      apply or_congr_right
      constructor
      · rintro ⟨resumed, task, present, created, held⟩
        exact ⟨task.call, resumed, task, present, created, rfl, held⟩
      · rintro ⟨_, resumed, task, present, created, rfl, held⟩
        exact ⟨resumed, task, present, created, held⟩

/-! ## A task keeps its call and its grants -/

/-- Every task of `earlier` is still there in `later`, executing the same call
under the same grants. -/
def KeepsTasks (earlier later : EventLoop σ) : Prop :=
  ∀ (index : Nat) (task : Task σ),
    earlier.tasks[index]? = some task →
      ∃ task' : Task σ,
        later.tasks[index]? = some task' ∧
          task'.call = task.call ∧ task'.grants = task.grants

instance : Std.Refl (KeepsTasks (σ := σ)) where
  refl _ _ task present := ⟨task, present, rfl, rfl⟩

instance : IsTrans (EventLoop σ) KeepsTasks where
  trans first middle last firstKeeps lastKeeps := by
    intro index task present
    obtain ⟨task', present', sameCall, sameGrants⟩ :=
      firstKeeps index task present
    obtain ⟨task'', present'', sameCall', sameGrants'⟩ :=
      lastKeeps index task' present'
    exact
      ⟨task'', present'', sameCall'.trans sameCall,
        sameGrants'.trans sameGrants⟩

theorem keepsTasks_step (loop : EventLoop σ) (label : Label σ) :
    KeepsTasks loop (step loop label) := by
  intro index task present
  cases label with
  | spawn call grants =>
      have inRange := (List.getElem?_eq_some_iff.mp present).1
      refine ⟨task, ?_, rfl, rfl⟩
      simpa only [step, List.getElem?_append_left inRange] using present
  | register spec =>
      exact ⟨task, present, rfl, rfl⟩
  | outside change =>
      exact ⟨task, present, rfl, rfl⟩
  | resume resumed =>
      cases found : loop.tasks[resumed]? with
      | none =>
          exact ⟨task, by simpa only [step, found] using present, rfl, rfl⟩
      | some other =>
          by_cases same : resumed = index
          · subst same
            have inRange := (List.getElem?_eq_some_iff.mp found).1
            rw [found] at present
            cases present
            let progress := advance loop.registry resumed task loop.env
            refine ⟨{ task with phase := progress.phase }, ?_, rfl, rfl⟩
            simp only [step, found, List.getElem?_set_self inRange, progress]
          · refine ⟨task, ?_, rfl, rfl⟩
            simp only [step, found, List.getElem?_set_ne same, present]

theorem call_of_lookedUp {start : EventLoop σ} {schedule : List (Label σ)}
    {index : Nat} {call : ToolCall} {found : Option (ToolSpec σ)}
    {task : Task σ}
    (lookedUp : LookedUp start schedule index call found)
    (present : (run step start schedule).tasks[index]? = some task) :
    call = task.call := by
  obtain ⟨before, after, earlier, rfl, earlierPresent, _, rfl, _⟩ := lookedUp
  rw [run_append] at present
  obtain ⟨task', present', sameCall, _⟩ :=
    run_related keepsTasks_step (run step start before)
      (.resume index :: after) index earlier earlierPresent
  rw [present] at present'
  cases present'
  exact sameCall.symm

theorem lookedUp_mem_iff_of_present (env : σ)
    (registry : InMemoryToolRegistry σ) {schedule : List (Label σ)}
    {index : Nat} {task : Task σ} {found : Option (ToolSpec σ)}
    (present :
      (run step (.initial env registry) schedule).tasks[index]? = some task) :
    Event.lookedUp index found ∈
        (run step (.initial env registry) schedule).log ↔
      LookedUp (.initial env registry) schedule index task.call found := by
  rw [lookedUp_mem_iff]
  constructor
  · rintro ⟨call, lookedUp⟩
    rwa [call_of_lookedUp lookedUp present] at lookedUp
  · exact fun lookedUp => ⟨task.call, lookedUp⟩

/-! ## A call that is never interrupted -/

/-- Resume one call `count` times with nothing in between. -/
def drive (registry : InMemoryToolRegistry σ) (index : Nat) (call : ToolCall)
    (grants : PermissionGrants σ) : Nat → Phase σ → σ → Phase σ × σ
  | 0, phase, env => (phase, env)
  | count + 1, phase, env =>
      let progress := advance registry index ⟨call, grants, phase⟩ env
      drive registry index call grants count progress.phase progress.env

/-- How `execute` ends, as the end of a task. -/
def ending : EStateM.Result PyExc σ ToolResult → Phase σ × σ
  | .ok result env => (.returned result, env)
  | .error exc env => (.raised exc, env)

theorem run_resumes {loop : EventLoop σ} {index : Nat} {call : ToolCall}
    {grants : PermissionGrants σ} {phase : Phase σ} (count : Nat)
    (present : loop.tasks[index]? = some ⟨call, grants, phase⟩) :
    let after := run step loop (List.replicate count (.resume index))
    let driven := drive loop.registry index call grants count phase loop.env
    after.tasks[index]? = some ⟨call, grants, driven.1⟩ ∧
      after.env = driven.2 := by
  induction count generalizing loop phase with
  | zero =>
      exact ⟨present, rfl⟩
  | succ count inductionHypothesis =>
      have inRange := (List.getElem?_eq_some_iff.mp present).1
      let progress := advance loop.registry index ⟨call, grants, phase⟩ loop.env
      have resumed :
          (step loop (.resume index)).tasks[index]? =
            some ⟨call, grants, progress.phase⟩ := by
        simp only [step, present, List.getElem?_set_self inRange, progress]
      have rest := inductionHypothesis resumed
      simp only [List.replicate_succ, run_cons, drive]
      simpa only [step, present] using rest

section Uninterrupted

variable {registry : InMemoryToolRegistry σ} {index : Nat} {call : ToolCall}
  {grants : PermissionGrants σ} {spec : ToolSpec σ}

theorem drive_returned (count : Nat) (result : ToolResult) (env : σ) :
    drive registry index call grants count (.returned result) env =
      (.returned result, env) := by
  induction count with
  | zero => rfl
  | succ count inductionHypothesis => exact inductionHypothesis

theorem drive_raised (count : Nat) (exc : PyExc) (env : σ) :
    drive registry index call grants count (.raised exc) env =
      (.raised exc, env) := by
  induction count with
  | zero => rfl
  | succ count inductionHypothesis => exact inductionHypothesis

/-- The rest of `execute` behind a finished check. -/
def afterCheckResult (spec : ToolSpec σ) (arguments : Arguments)
    (outcome : Except PyExc Unit) : Py σ ToolResult :=
  match outcome with
  | .ok () => Prod.snd <$> InMemoryToolRegistry.enterHandler spec arguments
  | .error (.permissionDenied message) =>
      pure (InMemoryToolRegistry.failed spec message)
  | .error exc => throw exc

theorem drive_afterCheck (count : Nat) (phase : Phase σ) (env : σ)
    (outcome : Except PyExc Unit) :
    let progress := afterCheck index ⟨call, grants, phase⟩ spec env outcome
    drive registry index call grants (count + 1) progress.phase progress.env =
      ending ((afterCheckResult spec call.arguments outcome).run env) := by
  cases outcome with
  | error exc =>
      cases exc with
      | permissionDenied message => exact drive_returned _ _ _
      | usageLimitExceeded message => exact drive_raised _ _ _
      | other className message => exact drive_raised _ _ _
  | ok passed =>
      cases binding : spec.handler.bindError call.arguments with
      | some message =>
          simp only [afterCheck, binding, afterCheckResult, run_map,
            InMemoryToolRegistry.enterHandler]
          exact drive_returned _ _ _
      | none =>
          simp only [afterCheck, binding, afterCheckResult, run_map,
            InMemoryToolRegistry.enterHandler, EStateM.run_bind, run_attempt]
          cases body : (spec.handler.body call.arguments).run env with
          | ok output after =>
              simp only [drive, advance, body]
              exact drive_returned _ _ _
          | error exc after =>
              simp only [drive, advance, body]
              exact drive_returned _ _ _

theorem run_execute_of_found (env : σ)
    (found : registry.tools.get? call.toolName = some spec) :
    (registry.execute call grants).run env =
      ((afterCheckResult spec call.arguments
        (answer ((grants.gate.check call spec.riskTier).run env))).run
          (finalState ((grants.gate.check call spec.riskTier).run env))) := by
  simp only [InMemoryToolRegistry.execute,
    InMemoryToolRegistry.executeObserved, found, run_map, EStateM.run_bind,
    run_attempt]
  cases (grants.gate.check call spec.riskTier).run env with
  | ok passed after =>
      simp only [answer_ok, finalState_ok, afterCheckResult, run_map]
  | error exc after =>
      cases exc <;> rfl

/-- The end of a check whose callback has answered. -/
def checkAnswer (call : ToolCall) (tier : RiskTier)
    (outcome : EStateM.Result PyExc σ Bool) : Except PyExc Unit :=
  match answer outcome with
  | .ok approved => ApprovalGate.conclude call tier approved
  | .error exc => .error exc

theorem drive_afterAnswer (count : Nat) (phase : Phase σ)
    (outcome : EStateM.Result PyExc σ Bool) :
    let progress := afterAnswer index ⟨call, grants, phase⟩ spec outcome
    drive registry index call grants (count + 1) progress.phase progress.env =
      ending
        ((afterCheckResult spec call.arguments
          (checkAnswer call spec.riskTier outcome)).run
            (finalState outcome)) := by
  cases outcome with
  | ok approved after => exact drive_afterCheck count phase after _
  | error exc after => exact drive_afterCheck count phase after _

/-- The rest of a check that starts in this way, when nothing intervenes. -/
def restOfCheck (call : ToolCall) (tier : RiskTier) (env : σ) :
    ApprovalGate.CheckStart σ → EStateM.Result PyExc σ Unit
  | .concluded outcome => resultOf outcome env
  | .answered outcome =>
      resultOf (checkAnswer call tier outcome) (finalState outcome)
  | .suspended resolve after =>
      resultOf (checkAnswer call tier (resolve.run after))
        (finalState (resolve.run after))

/-- The check is what its start leads to. -/
theorem run_check_of_starts {gate : ApprovalGate σ} {call : ToolCall}
    {tier : RiskTier} {env : σ} {start : ApprovalGate.CheckStart σ}
    (starts : gate.Starts call tier env start) :
    (gate.check call tier).run env = restOfCheck call tier env start := by
  cases starts with
  | allowed policy => rw [ApprovalGate.check_of_autoAllow policy]; rfl
  | denied policy => rw [ApprovalGate.check_of_deny policy]; rfl
  | unasked policy absent =>
      rw [ApprovalGate.check_of_no_callback policy absent]; rfl
  | failed callback exc after policy present asked =>
      rw [ApprovalGate.check_of_callback policy present, EStateM.run_bind, asked]
      rfl
  | answered callback approved after policy present asked =>
      rw [ApprovalGate.check_of_callback policy present, EStateM.run_bind, asked]
      cases approved <;> rfl
  | suspended callback resolve after policy present asked =>
      rw [ApprovalGate.check_of_callback policy present, EStateM.run_bind, asked]
      simp only [CallbackResult.get, EStateM.run_bind, restOfCheck]
      cases resolve.run after with
      | error exc last => rfl
      | ok approved last => cases approved <;> rfl

theorem drive_startCheck (registry : InMemoryToolRegistry σ) (index : Nat)
    (env : σ) :
    let progress := startCheck index ⟨call, grants, .created⟩ spec env
    drive registry index call grants 2 progress.phase progress.env =
      ending
        ((afterCheckResult spec call.arguments
          (answer ((grants.gate.check call spec.riskTier).run env))).run
            (finalState ((grants.gate.check call spec.riskTier).run env))) := by
  obtain ⟨start, starts⟩ := grants.gate.exists_starts call spec.riskTier env
  rw [startCheck_of_starts starts, run_check_of_starts starts]
  cases start with
  | concluded outcome =>
      simp only [restOfCheck, answer_resultOf, finalState_resultOf]
      exact drive_afterCheck 1 .created env outcome
  | answered outcome =>
      simp only [restOfCheck, answer_resultOf, finalState_resultOf]
      exact drive_afterAnswer 1 .created outcome
  | suspended resolve after =>
      simp only [restOfCheck, answer_resultOf, finalState_resultOf]
      rw [drive]
      exact drive_afterAnswer 0 _ (resolve.run after)

/-- Three resumptions complete a call, and they compute what `execute`
computes. -/
theorem drive_execute (env : σ) :
    drive registry index call grants 3 .created env =
      ending ((registry.execute call grants).run env) := by
  cases found : registry.tools.get? call.toolName with
  | none =>
      simp only [drive, advance, found, InMemoryToolRegistry.execute,
        InMemoryToolRegistry.executeObserved, run_map]
      rfl
  | some spec =>
      rw [run_execute_of_found env found, ← drive_startCheck registry index, drive]
      simp only [advance, found]

end Uninterrupted

/-- The sequential `execute` is the run of a call that nothing interrupts. -/
theorem execute_refines_event_loop {loop : EventLoop σ} {index : Nat}
    {call : ToolCall} {grants : PermissionGrants σ}
    (present : loop.tasks[index]? = some ⟨call, grants, .created⟩) :
    let after := run step loop (List.replicate 3 (.resume index))
    let ended := ending ((loop.registry.execute call grants).run loop.env)
    after.tasks[index]? = some ⟨call, grants, ended.1⟩ ∧
      after.env = ended.2 := by
  have driven := run_resumes 3 present
  rw [drive_execute] at driven
  exact driven

end ChokePoint

end FableHarness
