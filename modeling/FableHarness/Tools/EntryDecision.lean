import FableHarness.Tools.ChokePoint

/-!
# Who enters a handler

The decision for one call, read off its trail: the handler is entered for the
specification that the lookup found and for no other, and only when the call's
own grants let it pass.
-/

namespace FableHarness

open ExceptionState LabelledRun

namespace ChokePoint

variable {σ : Type}

/-- The grants let `spec` pass: by the matrix alone, or by a truthy answer of
the gate's own callback. -/
def Approves (log : List (Event σ)) (index : Nat) (grants : PermissionGrants σ)
    (spec : ToolSpec σ) : Prop :=
  grants.gate.matrix.policyFor spec.riskTier = .autoAllow ∨
    grants.gate.matrix.policyFor spec.riskTier = .requireApproval ∧
      grants.gate.onApprovalNeeded.isSome ∧
      .answered index spec.riskTier (.ok true) ∈ log

/-- The grants stop `spec`: by the matrix, for want of a callback, or because
the callback refused or raised. -/
def Refuses (log : List (Event σ)) (index : Nat) (grants : PermissionGrants σ)
    (spec : ToolSpec σ) : Prop :=
  grants.gate.matrix.policyFor spec.riskTier = .deny ∨
    grants.gate.matrix.policyFor spec.riskTier = .requireApproval ∧
      (grants.gate.onApprovalNeeded = none ∨
        ∃ answer,
          answer ≠ .ok true ∧ .answered index spec.riskTier answer ∈ log)

def Event.isEntryOf (index : Nat) : Event σ → Bool
  | .entered task _ => task == index
  | _ => false

section Trails

variable {index : Nat} {call : ToolCall} {grants : PermissionGrants σ}
  {phase : Phase σ} {events : List (Event σ)} {spec : ToolSpec σ}

theorem Checked.only_answers {verdict : Bool} {event : Event σ}
    (checked : Checked index grants spec events verdict)
    (member : event ∈ events) :
    ∃ answer, event = .answered index spec.riskTier answer := by
  cases checked with
  | autoAllow => cases member
  | deny => cases member
  | noCallback => cases member
  | approved => exact ⟨_, List.mem_singleton.mp member⟩
  | refused answer => exact ⟨answer, List.mem_singleton.mp member⟩

theorem Checked.approves (checked : Checked index grants spec events true)
    {log : List (Event σ)} (subset : ∀ event ∈ events, event ∈ log) :
    Approves log index grants spec := by
  cases checked with
  | autoAllow policy =>
      exact Or.inl policy
  | approved policy present =>
      exact Or.inr ⟨policy, present, subset _ (by simp)⟩

theorem Checked.not_approves (checked : Checked index grants spec events false)
    {log : List (Event σ)}
    (answers :
      ∀ answer, .answered index spec.riskTier answer ∈ log →
        .answered index spec.riskTier answer ∈ events) :
    ¬ Approves log index grants spec := by
  rintro (allowed | ⟨required, present, approved⟩)
  · cases checked with
    | deny policy => rw [policy] at allowed; cases allowed
    | noCallback policy => rw [policy] at allowed; cases allowed
    | refused _ policy => rw [policy] at allowed; cases allowed
  · cases checked with
    | deny policy => rw [policy] at required; cases required
    | noCallback _ absent => rw [absent] at present; cases present
    | refused answer _ _ notTrue =>
        have logged := List.mem_singleton.mp (answers _ approved)
        cases logged
        exact notTrue rfl

theorem Checked.not_refuses (checked : Checked index grants spec events true)
    {log : List (Event σ)}
    (answers :
      ∀ answer, .answered index spec.riskTier answer ∈ log →
        .answered index spec.riskTier answer ∈ events) :
    ¬ Refuses log index grants spec := by
  rintro (denied | ⟨required, absent | ⟨answer, notTrue, logged⟩⟩)
  · cases checked with
    | autoAllow policy => rw [policy] at denied; cases denied
    | approved policy => rw [policy] at denied; cases denied
  · cases checked with
    | autoAllow policy => rw [policy] at required; cases required
    | approved _ present => rw [absent] at present; cases present
  · cases checked with
    | autoAllow policy => rw [policy] at required; cases required
    | approved =>
        have equal := List.mem_singleton.mp (answers _ logged)
        cases equal
        exact notTrue rfl

theorem Checked.not_mem_lookedUp {verdict : Bool}
    {found : Option (ToolSpec σ)}
    (checked : Checked index grants spec events verdict) :
    Event.lookedUp index found ∉ events := by
  intro member
  obtain ⟨_, equal⟩ := checked.only_answers member
  cases equal

theorem Checked.not_mem_entered {verdict : Bool} {other : ToolSpec σ}
    (checked : Checked index grants spec events verdict) :
    Event.entered index other ∉ events := by
  intro member
  obtain ⟨_, equal⟩ := checked.only_answers member
  cases equal

theorem Checked.callback_of_mem {verdict : Bool} {event : Event σ}
    (checked : Checked index grants spec events verdict)
    (member : event ∈ events) :
    grants.gate.onApprovalNeeded.isSome := by
  cases checked with
  | autoAllow => cases member
  | deny => cases member
  | noCallback => cases member
  | approved _ present => exact present
  | refused _ _ present => exact present

/-- Only a gate with a callback gets an answer. -/
theorem Trail.callback_of_answered {tier : RiskTier}
    {answer : Except PyExc Bool}
    (trail : Trail index call grants phase events)
    (answered : .answered index tier answer ∈ events) :
    grants.gate.onApprovalNeeded.isSome := by
  cases trail with
  | created => cases answered
  | unknownTool => simp at answered
  | awaiting => simp at answered
  | blocked _ _ _ checked =>
      exact checked.callback_of_mem (by simpa using answered)
  | unbound _ _ _ checked =>
      exact checked.callback_of_mem (by simpa using answered)
  | inHandler _ _ checked =>
      exact checked.callback_of_mem (by simpa using answered)
  | served _ _ _ checked =>
      exact checked.callback_of_mem (by simpa using answered)

/-- The trail of a call that entered a handler. -/
def EntryTrail (index : Nat) (call : ToolCall) (grants : PermissionGrants σ)
    (spec : ToolSpec σ) (events : List (Event σ)) : Prop :=
  ∃ checks,
    events = .lookedUp index (some spec) :: (checks ++ [.entered index spec]) ∧
      Checked index grants spec checks true ∧
      spec.handler.Accepts call.arguments

theorem Trail.entryTrail
    (trail : Trail index call grants phase events)
    (entered : .entered index spec ∈ events) :
    EntryTrail index call grants spec events := by
  cases trail with
  | created => cases entered
  | unknownTool => simp at entered
  | awaiting => simp at entered
  | blocked found checks _ checked =>
      simp [checked.not_mem_entered] at entered
  | unbound found checks _ checked =>
      simp [checked.not_mem_entered] at entered
  | inHandler found checks checked accepted =>
      have same : spec = found := by
        simpa [checked.not_mem_entered] using entered
      subst same
      exact ⟨checks, rfl, checked, accepted⟩
  | served found checks _ checked accepted =>
      have same : spec = found := by
        simpa [checked.not_mem_entered] using entered
      subst same
      exact ⟨checks, rfl, checked, accepted⟩

/-- A finished call whose grants let the specification it found pass, and
whose arguments bind, has entered the handler. -/
theorem Trail.entered_of_approves
    (trail : Trail index call grants phase events)
    (finished : phase.Finished)
    (found : .lookedUp index (some spec) ∈ events)
    (accepted : spec.handler.Accepts call.arguments)
    (approves : Approves events index grants spec) :
    .entered index spec ∈ events := by
  cases trail with
  | created => cases found
  | unknownTool => simp at found
  | awaiting => exact finished.elim
  | inHandler => exact finished.elim
  | blocked held checks _ checked =>
      have same : spec = held := by
        simpa [checked.not_mem_lookedUp] using found
      subst same
      exact (checked.not_approves (by simp) approves).elim
  | unbound held checks _ checked rejected =>
      have same : spec = held := by
        simpa [checked.not_mem_lookedUp] using found
      subst same
      exact (rejected accepted).elim
  | served held checks _ checked =>
      have same : spec = held := by
        simpa [checked.not_mem_lookedUp] using found
      subst same
      simp

namespace EntryTrail

theorem lookedUp_unique {other : ToolSpec σ}
    (entry : EntryTrail index call grants spec events)
    (found : .lookedUp index (some other) ∈ events) :
    other = spec := by
  obtain ⟨checks, rfl, checked, _⟩ := entry
  simpa [checked.not_mem_lookedUp] using found

theorem approves (entry : EntryTrail index call grants spec events) :
    Approves events index grants spec := by
  obtain ⟨checks, rfl, checked, _⟩ := entry
  exact checked.approves fun event member => by simp [member]

theorem not_refuses (entry : EntryTrail index call grants spec events) :
    ¬ Refuses events index grants spec := by
  obtain ⟨checks, rfl, checked, _⟩ := entry
  exact checked.not_refuses fun answer logged => by simpa using logged

theorem countP_entries (entry : EntryTrail index call grants spec events) :
    events.countP (Event.isEntryOf index) = 1 := by
  obtain ⟨checks, rfl, checked, _⟩ := entry
  have none : checks.countP (Event.isEntryOf index) = 0 := by
    rw [List.countP_eq_zero]
    intro event member
    obtain ⟨answer, rfl⟩ := checked.only_answers member
    simp [Event.isEntryOf]
  simp [List.countP_append, none, Event.isEntryOf]

end EntryTrail

end Trails

/-! ## Whose answers the log records -/

/-- The gate's own callback, asked about this call and this tier, gave this
awaitable. -/
def Promised (gate : ApprovalGate σ) (call : ToolCall) (tier : RiskTier)
    (resolve : Py σ Bool) : Prop :=
  ∃ callback env after,
    gate.onApprovalNeeded = some callback ∧
      (callback call tier).run env = .ok (.awaitable resolve) after

/-- The gate's own callback, asked about this call and this tier, came to this
answer: directly, or through its awaitable. -/
inductive OwnAnswer (gate : ApprovalGate σ) (call : ToolCall) (tier : RiskTier) :
    Except PyExc Bool → Prop
  | raised (callback : ApprovalCallback σ) (exc : PyExc) (env after : σ)
      (present : gate.onApprovalNeeded = some callback)
      (asked : (callback call tier).run env = .error exc after) :
      OwnAnswer gate call tier (.error exc)
  | direct (callback : ApprovalCallback σ) (approved : Bool) (env after : σ)
      (present : gate.onApprovalNeeded = some callback)
      (asked : (callback call tier).run env = .ok (.value approved) after) :
      OwnAnswer gate call tier (.ok approved)
  | awaited (resolve : Py σ Bool) (env : σ)
      (promised : Promised gate call tier resolve) :
      OwnAnswer gate call tier (answer (resolve.run env))

section OwnAnswers

variable {index owner : Nat} {task : Task σ} {spec : ToolSpec σ} {env : σ}
  {tier : RiskTier} {answered : Except PyExc Bool}

theorem answered_not_mem_afterCheck (outcome : Except PyExc Unit) :
    Event.answered owner tier answered ∉
      (afterCheck index task spec env outcome).events := by
  unfold afterCheck
  split
  · split <;> simp
  · simp
  · simp

theorem phase_afterCheck (outcome : Except PyExc Unit) (other : ToolSpec σ)
    (resolve : Py σ Bool) :
    (afterCheck index task spec env outcome).phase ≠
      .awaitingApproval other resolve := by
  unfold afterCheck
  split
  · split <;> simp
  · simp
  · simp

theorem phase_afterAnswer (outcome : EStateM.Result PyExc σ Bool)
    (other : ToolSpec σ) (resolve : Py σ Bool) :
    (afterAnswer index task spec outcome).phase ≠
      .awaitingApproval other resolve := by
  cases outcome with
  | ok approved after => exact phase_afterCheck _ other resolve
  | error exc after => exact phase_afterCheck _ other resolve

theorem eq_of_mem_afterAnswer {outcome : EStateM.Result PyExc σ Bool}
    (member :
      Event.answered owner tier answered ∈
        (afterAnswer index task spec outcome).events) :
    tier = spec.riskTier ∧ answered = answer outcome := by
  cases outcome with
  | ok approved after =>
      rcases List.mem_cons.mp member with first | later
      · cases first
        exact ⟨rfl, rfl⟩
      · exact absurd later (answered_not_mem_afterCheck _)
  | error exc after =>
      rcases List.mem_cons.mp member with first | later
      · cases first
        exact ⟨rfl, rfl⟩
      · exact absurd later (answered_not_mem_afterCheck _)

theorem ownAnswer_startCheck
    (member :
      Event.answered owner tier answered ∈
        (startCheck index task spec env).events) :
    OwnAnswer task.grants.gate task.call tier answered := by
  obtain ⟨start, starts⟩ :=
    task.grants.gate.exists_starts task.call spec.riskTier env
  rw [startCheck_of_starts starts] at member
  cases starts with
  | allowed policy => exact absurd member (answered_not_mem_afterCheck _)
  | denied policy => exact absurd member (answered_not_mem_afterCheck _)
  | unasked policy absent => exact absurd member (answered_not_mem_afterCheck _)
  | failed callback exc after policy present asked =>
      obtain ⟨rfl, rfl⟩ := eq_of_mem_afterAnswer member
      exact .raised callback exc env after present asked
  | answered callback approved after policy present asked =>
      obtain ⟨rfl, rfl⟩ := eq_of_mem_afterAnswer member
      exact .direct callback approved env after present asked
  | suspended callback resolve after policy present asked => cases member

theorem promised_startCheck {other : ToolSpec σ} {resolve : Py σ Bool}
    (awaits :
      (startCheck index task spec env).phase = .awaitingApproval other resolve) :
    Promised task.grants.gate task.call other.riskTier resolve := by
  obtain ⟨start, starts⟩ :=
    task.grants.gate.exists_starts task.call spec.riskTier env
  rw [startCheck_of_starts starts] at awaits
  cases starts with
  | allowed policy => exact absurd awaits (phase_afterCheck _ other resolve)
  | denied policy => exact absurd awaits (phase_afterCheck _ other resolve)
  | unasked policy absent =>
      exact absurd awaits (phase_afterCheck _ other resolve)
  | failed callback exc after policy present asked =>
      exact absurd awaits (phase_afterAnswer _ other resolve)
  | answered callback approved after policy present asked =>
      exact absurd awaits (phase_afterAnswer _ other resolve)
  | suspended callback given after policy present asked =>
      cases awaits
      exact ⟨callback, env, after, present, asked⟩

/-- One resumption logs an answer of the callback only, to this very call. -/
theorem ownAnswer_advance {registry : InMemoryToolRegistry σ}
    (promised :
      ∀ spec resolve, task.phase = .awaitingApproval spec resolve →
        Promised task.grants.gate task.call spec.riskTier resolve)
    (member :
      Event.answered owner tier answered ∈
        (advance registry index task env).events) :
    OwnAnswer task.grants.gate task.call tier answered := by
  unfold advance at member
  cases phase : task.phase with
  | created =>
      rw [phase] at member
      cases held : registry.tools.get? task.call.toolName with
      | none => simp [held] at member
      | some found =>
          simp only [held, List.mem_cons] at member
          rcases member with first | later
          · cases first
          · exact ownAnswer_startCheck later
  | awaitingApproval found resolve =>
      rw [phase] at member
      obtain ⟨rfl, rfl⟩ := eq_of_mem_afterAnswer member
      exact .awaited resolve env (promised found resolve phase)
  | inHandler found =>
      rw [phase] at member
      simp only at member
      split at member <;> cases member
  | returned result =>
      rw [phase] at member
      cases member
  | raised exc =>
      rw [phase] at member
      cases member

theorem promised_advance {registry : InMemoryToolRegistry σ}
    {other : ToolSpec σ} {resolve : Py σ Bool}
    (awaits :
      (advance registry index task env).phase = .awaitingApproval other resolve) :
    Promised task.grants.gate task.call other.riskTier resolve := by
  unfold advance at awaits
  cases phase : task.phase with
  | created =>
      rw [phase] at awaits
      cases held : registry.tools.get? task.call.toolName with
      | none => simp [held] at awaits
      | some found =>
          simp only [held] at awaits
          exact promised_startCheck awaits
  | awaitingApproval found given =>
      rw [phase] at awaits
      exact absurd awaits (phase_afterAnswer _ other resolve)
  | inHandler found =>
      rw [phase] at awaits
      simp only at awaits
      split at awaits <;> cases awaits
  | returned result =>
      rw [phase] at awaits
      cases awaits
  | raised exc =>
      rw [phase] at awaits
      cases awaits

end OwnAnswers

/-- The answers in the log, and the awaitables that calls are suspended at, come
from the callbacks of the calls' own gates. -/
structure OwnAnswers (loop : EventLoop σ) : Prop where
  consistent : Consistent loop
  answers :
    ∀ {index : Nat} {task : Task σ} {tier : RiskTier}
        {answered : Except PyExc Bool},
      loop.tasks[index]? = some task →
      .answered index tier answered ∈ loop.log →
      OwnAnswer task.grants.gate task.call tier answered
  promised :
    ∀ {index : Nat} {task : Task σ},
      loop.tasks[index]? = some task →
      ∀ spec resolve, task.phase = .awaitingApproval spec resolve →
        Promised task.grants.gate task.call spec.riskTier resolve

theorem ownAnswers_spawn {loop : EventLoop σ} (own : OwnAnswers loop)
    (call : ToolCall) (grants : PermissionGrants σ) :
    OwnAnswers (step loop (.spawn call grants)) := by
  refine ⟨consistent_step loop _ own.consistent, ?_, ?_⟩
  · intro index task tier answered present member
    rcases Nat.lt_or_ge index loop.tasks.length with old | new
    · rw [step, List.getElem?_append_left old] at present
      exact own.answers present member
    · -- Nothing has been logged yet for a call that is made only now.
      have silent := own.consistent.silent index new
      have trailed : .answered index tier answered ∈ trail loop.log index :=
        mem_trail_iff.mpr ⟨member, rfl⟩
      rw [silent] at trailed
      cases trailed
  · intro index task present spec resolve awaits
    rcases Nat.lt_or_ge index loop.tasks.length with old | new
    · rw [step, List.getElem?_append_left old] at present
      exact own.promised present spec resolve awaits
    · rw [step, List.getElem?_append_right new] at present
      have created : task = ⟨call, grants, .created⟩ := by
        have member := List.mem_of_getElem? present
        exact List.mem_singleton.mp member
      rw [created] at awaits
      cases awaits

theorem ownAnswers_resume {loop : EventLoop σ} (own : OwnAnswers loop)
    (resumed : Nat) : OwnAnswers (step loop (.resume resumed)) := by
  have consistent := consistent_step loop (.resume resumed) own.consistent
  cases found : loop.tasks[resumed]? with
  | none =>
      simpa only [step, found] using own
  | some current =>
      have inRange : resumed < loop.tasks.length :=
        (List.getElem?_eq_some_iff.mp found).1
      refine ⟨consistent, ?_, ?_⟩
      · intro index task tier answered present member
        simp only [step, found] at present member
        rcases List.mem_append.mp member with earlier | new
        · by_cases same : resumed = index
          · subst same
            rw [List.getElem?_set_self inRange] at present
            cases present
            have kept := own.answers found earlier
            exact kept
          · rw [List.getElem?_set_ne same] at present
            exact own.answers present earlier
        · have same : index = resumed := task_of_mem_advance new
          subst same
          rw [List.getElem?_set_self inRange] at present
          cases present
          have answer := ownAnswer_advance (own.promised found) new
          exact answer
      · intro index task present spec resolve awaits
        simp only [step, found] at present
        by_cases same : resumed = index
        · subst same
          rw [List.getElem?_set_self inRange] at present
          cases present
          have promised := promised_advance awaits
          exact promised
        · rw [List.getElem?_set_ne same] at present
          exact own.promised present spec resolve awaits

theorem ownAnswers_step (loop : EventLoop σ) (label : Label σ)
    (own : OwnAnswers loop) : OwnAnswers (step loop label) := by
  cases label with
  | spawn call grants => exact ownAnswers_spawn own call grants
  | resume index => exact ownAnswers_resume own index
  | register spec =>
      exact
        ⟨consistent_step loop (.register spec) own.consistent, own.answers,
          own.promised⟩
  | outside change =>
      exact
        ⟨consistent_step loop (.outside change) own.consistent, own.answers,
          own.promised⟩

/-- Every answer in the log of a run is one that the callback of the call's own
gate gave when it was asked about this call and the tier of what it found. -/
theorem answered_by_own_callback (env : σ) (registry : InMemoryToolRegistry σ)
    (schedule : List (Label σ)) {index : Nat} {task : Task σ} {tier : RiskTier}
    {answered : Except PyExc Bool}
    (present :
      (run step (.initial env registry) schedule).tasks[index]? = some task)
    (member :
      .answered index tier answered ∈
        (run step (.initial env registry) schedule).log) :
    OwnAnswer task.grants.gate task.call tier answered := by
  have initially : OwnAnswers (EventLoop.initial env registry) := by
    refine ⟨consistent_initial env registry, ?_, ?_⟩
    · intro index task tier answered present _
      cases present
    · intro index task present
      cases present
  have own := run_invariant step ownAnswers_step initially schedule
  exact own.answers present member

/-! ## From the trail of a call to the whole log -/

theorem approves_trail_iff {log : List (Event σ)} {index : Nat}
    {grants : PermissionGrants σ} {spec : ToolSpec σ} :
    Approves (trail log index) index grants spec ↔
      Approves log index grants spec := by
  simp [Approves, mem_trail_iff, Event.task]

theorem refuses_trail_iff {log : List (Event σ)} {index : Nat}
    {grants : PermissionGrants σ} {spec : ToolSpec σ} :
    Refuses (trail log index) index grants spec ↔
      Refuses log index grants spec := by
  simp [Refuses, mem_trail_iff, Event.task]

theorem entered_mem_trail_iff {log : List (Event σ)} {index : Nat}
    {spec : ToolSpec σ} :
    .entered index spec ∈ trail log index ↔ .entered index spec ∈ log := by
  simp [mem_trail_iff, Event.task]

theorem lookedUp_mem_trail_iff {log : List (Event σ)} {index : Nat}
    {found : Option (ToolSpec σ)} :
    .lookedUp index found ∈ trail log index ↔
      .lookedUp index found ∈ log := by
  simp [mem_trail_iff, Event.task]

theorem countP_trail (log : List (Event σ)) (index : Nat) :
    (trail log index).countP (Event.isEntryOf index) =
      log.countP (Event.isEntryOf index) := by
  rw [trail, List.countP_filter]
  apply List.countP_congr
  intro event _
  cases event <;> simp [Event.isEntryOf, Event.task]

section Runs

variable {env : σ} {registry : InMemoryToolRegistry σ}
  {schedule : List (Label σ)} {index : Nat} {task : Task σ}

theorem entryTrail_of_entered {spec : ToolSpec σ}
    (present :
      (run step (.initial env registry) schedule).tasks[index]? = some task)
    (entered :
      .entered index spec ∈
        (run step (.initial env registry) schedule).log) :
    EntryTrail index task.call task.grants spec
      (trail (run step (.initial env registry) schedule).log index) :=
  ((consistent_run env registry schedule).trails index task present).entryTrail
    (entered_mem_trail_iff.mpr entered)

/-- Whatever was entered had been looked up, accepts the arguments and was let
pass, at every moment of the run. -/
theorem permitted_of_entered {spec : ToolSpec σ}
    (present :
      (run step (.initial env registry) schedule).tasks[index]? = some task)
    (entered :
      .entered index spec ∈
        (run step (.initial env registry) schedule).log) :
    LookedUp (.initial env registry) schedule index task.call (some spec) ∧
      spec.handler.Accepts task.call.arguments ∧
      Approves (run step (.initial env registry) schedule).log index
        task.grants spec := by
  have entry := entryTrail_of_entered present entered
  refine ⟨?_, ?_, approves_trail_iff.mp entry.approves⟩
  · apply (lookedUp_mem_iff_of_present env registry present).mp
    apply lookedUp_mem_trail_iff.mp
    obtain ⟨checks, shape, _⟩ := entry
    rw [shape]
    exact List.mem_cons_self
  · exact entry.choose_spec.2.2

/-- Whatever was entered was let pass by the matrix of the call's own gate, or by
the answer of that gate's callback to this call. -/
theorem own_gate_of_entered {spec : ToolSpec σ}
    (present :
      (run step (.initial env registry) schedule).tasks[index]? = some task)
    (entered :
      .entered index spec ∈
        (run step (.initial env registry) schedule).log) :
    task.grants.gate.matrix.policyFor spec.riskTier = .autoAllow ∨
      task.grants.gate.matrix.policyFor spec.riskTier = .requireApproval ∧
        OwnAnswer task.grants.gate task.call spec.riskTier (.ok true) := by
  obtain ⟨_, _, approves⟩ := permitted_of_entered present entered
  rcases approves with allowed | ⟨required, _, answered⟩
  · exact Or.inl allowed
  · have own := answered_by_own_callback env registry schedule present answered
    exact Or.inr ⟨required, own⟩

theorem entered_iff_permitted {spec : ToolSpec σ}
    (present :
      (run step (.initial env registry) schedule).tasks[index]? = some task)
    (finished : task.phase.Finished)
    (accepted : spec.handler.Accepts task.call.arguments) :
    .entered index spec ∈ (run step (.initial env registry) schedule).log ↔
      LookedUp (.initial env registry) schedule index task.call (some spec) ∧
        Approves (run step (.initial env registry) schedule).log index
          task.grants spec := by
  constructor
  · intro entered
    obtain ⟨lookedUp, _, approves⟩ := permitted_of_entered present entered
    exact ⟨lookedUp, approves⟩
  · rintro ⟨lookedUp, approves⟩
    have own := (consistent_run env registry schedule).trails index task present
    apply entered_mem_trail_iff.mp
    apply own.entered_of_approves finished _ accepted
    · exact approves_trail_iff.mpr approves
    · apply lookedUp_mem_trail_iff.mpr
      exact (lookedUp_mem_iff_of_present env registry present).mpr lookedUp

theorem not_entered_of_refuses {spec other : ToolSpec σ}
    (present :
      (run step (.initial env registry) schedule).tasks[index]? = some task)
    (lookedUp :
      LookedUp (.initial env registry) schedule index task.call (some spec))
    (refuses :
      Refuses (run step (.initial env registry) schedule).log index
        task.grants spec) :
    .entered index other ∉
      (run step (.initial env registry) schedule).log := by
  intro entered
  have entry := entryTrail_of_entered present entered
  have found :=
    lookedUp_mem_trail_iff.mpr
      ((lookedUp_mem_iff_of_present env registry present).mpr lookedUp)
  have same := entry.lookedUp_unique found
  subst same
  exact entry.not_refuses (refuses_trail_iff.mpr refuses)

theorem entries_le_one
    (present :
      (run step (.initial env registry) schedule).tasks[index]? = some task) :
    (run step (.initial env registry) schedule).log.countP
      (Event.isEntryOf index) ≤ 1 := by
  rw [← countP_trail]
  by_cases entered :
      ∃ spec,
        .entered index spec ∈
          (run step (.initial env registry) schedule).log
  · obtain ⟨spec, entered⟩ := entered
    exact
      Nat.le_of_eq (entryTrail_of_entered present entered).countP_entries
  · have none :
        (trail (run step (.initial env registry) schedule).log index).countP
          (Event.isEntryOf index) = 0 := by
      rw [List.countP_eq_zero]
      intro event member isEntry
      cases event with
      | lookedUp => cases isEntry
      | answered => cases isEntry
      | entered owner spec =>
          have own : owner = index := by simpa [Event.isEntryOf] using isEntry
          subst own
          exact entered ⟨spec, entered_mem_trail_iff.mp member⟩
    exact none ▸ Nat.zero_le 1

theorem callback_of_answered {tier : RiskTier} {answer : Except PyExc Bool}
    (present :
      (run step (.initial env registry) schedule).tasks[index]? = some task)
    (answered :
      .answered index tier answer ∈
        (run step (.initial env registry) schedule).log) :
    task.grants.gate.onApprovalNeeded.isSome := by
  have own := (consistent_run env registry schedule).trails index task present
  exact own.callback_of_answered (mem_trail_iff.mpr ⟨answered, rfl⟩)

/-- Two calls of the same tool call, in any two runs, that found the same
specification under the same policy and got the same answers: what the one was
let do, the other was let do. -/
theorem approves_transfer {env' : σ} {registry' : InMemoryToolRegistry σ}
    {schedule' : List (Label σ)} {index' : Nat} {task' : Task σ}
    {spec : ToolSpec σ}
    (present' :
      (run step (.initial env' registry') schedule').tasks[index']? =
        some task')
    (samePolicy :
      task'.grants.gate.matrix.policyFor spec.riskTier =
        task.grants.gate.matrix.policyFor spec.riskTier)
    (sameAnswers :
      ∀ answer,
        .answered index spec.riskTier answer ∈
            (run step (.initial env registry) schedule).log ↔
          .answered index' spec.riskTier answer ∈
            (run step (.initial env' registry') schedule').log)
    (approves :
      Approves (run step (.initial env registry) schedule).log index
        task.grants spec) :
    Approves (run step (.initial env' registry') schedule').log index'
      task'.grants spec := by
  rcases approves with allowed | ⟨required, _, approved⟩
  · exact Or.inl (samePolicy.trans allowed)
  · have approved' := (sameAnswers (.ok true)).mp approved
    exact
      Or.inr
        ⟨samePolicy.trans required,
          callback_of_answered present' approved', approved'⟩

/-- What the one was let enter, the other entered once it is finished. -/
theorem entered_transfer {env' : σ} {registry' : InMemoryToolRegistry σ}
    {schedule' : List (Label σ)} {index' : Nat} {task' : Task σ}
    {spec : ToolSpec σ}
    (present :
      (run step (.initial env registry) schedule).tasks[index]? = some task)
    (present' :
      (run step (.initial env' registry') schedule').tasks[index']? =
        some task')
    (finished' : task'.phase.Finished)
    (sameCall : task'.call = task.call)
    (lookedUp' :
      LookedUp (.initial env' registry') schedule' index' task'.call (some spec))
    (samePolicy :
      task'.grants.gate.matrix.policyFor spec.riskTier =
        task.grants.gate.matrix.policyFor spec.riskTier)
    (sameAnswers :
      ∀ answer,
        .answered index spec.riskTier answer ∈
            (run step (.initial env registry) schedule).log ↔
          .answered index' spec.riskTier answer ∈
            (run step (.initial env' registry') schedule').log)
    (entered :
      .entered index spec ∈ (run step (.initial env registry) schedule).log) :
    .entered index' spec ∈
      (run step (.initial env' registry') schedule').log := by
  obtain ⟨_, accepted, approves⟩ := permitted_of_entered present entered
  rw [← sameCall] at accepted
  apply (entered_iff_permitted present' finished' accepted).mpr
  exact
    ⟨lookedUp', approves_transfer present' samePolicy sameAnswers approves⟩

end Runs

/-! ## The permission choke point -/

/-- The handler of `spec` runs on behalf of a finished call exactly when `spec`
is what the call's lookup found and the call's own grants let it pass; it runs
at most once; a refusal by the matrix, a missing callback, or a callback that
refuses or raises keeps every handler shut; and neither the other calls, nor
registrations, nor anything else that runs in between has a say in it. -/
theorem handler_entry_decided_by_own_grants
    (env : σ) (registry : InMemoryToolRegistry σ) (schedule : List (Label σ))
    {index : Nat} {task : Task σ}
    (present :
      (run step (.initial env registry) schedule).tasks[index]? = some task) :
    let loop := run step (.initial env registry) schedule
    (∀ spec,
      task.phase.Finished →
      spec.handler.Accepts task.call.arguments →
      (.entered index spec ∈ loop.log ↔
        LookedUp (.initial env registry) schedule index task.call
            (some spec) ∧
          Approves loop.log index task.grants spec)) ∧
    loop.log.countP (Event.isEntryOf index) ≤ 1 ∧
    (∀ spec other,
      LookedUp (.initial env registry) schedule index task.call (some spec) →
      Refuses loop.log index task.grants spec →
      .entered index other ∉ loop.log) ∧
    (∀ (env' : σ) (registry' : InMemoryToolRegistry σ)
        (schedule' : List (Label σ)) (index' : Nat) (task' : Task σ)
        (spec : ToolSpec σ),
      let loop' := run step (.initial env' registry') schedule'
      loop'.tasks[index']? = some task' →
      task.phase.Finished →
      task'.phase.Finished →
      task'.call = task.call →
      LookedUp (.initial env registry) schedule index task.call (some spec) →
      LookedUp (.initial env' registry') schedule' index' task'.call
        (some spec) →
      task'.grants.gate.matrix.policyFor spec.riskTier =
        task.grants.gate.matrix.policyFor spec.riskTier →
      (∀ answer,
        .answered index spec.riskTier answer ∈ loop.log ↔
          .answered index' spec.riskTier answer ∈ loop'.log) →
      (.entered index spec ∈ loop.log ↔
        .entered index' spec ∈ loop'.log)) := by
  intro loop
  refine ⟨?decided, entries_le_one present, ?refused, ?independent⟩
  case decided =>
    intro spec finished accepted
    exact entered_iff_permitted present finished accepted
  case refused =>
    intro spec other lookedUp refuses
    exact not_entered_of_refuses present lookedUp refuses
  case independent =>
    intro env' registry' schedule' index' task' spec loop' present' finished
      finished' sameCall lookedUp lookedUp' samePolicy sameAnswers
    constructor
    · exact
        entered_transfer present present' finished' sameCall lookedUp' samePolicy
          sameAnswers
    · exact
        entered_transfer present' present finished sameCall.symm lookedUp
          samePolicy.symm fun answer => (sameAnswers answer).symm

/-! ### Re-registration during a pending approval -/

def pendingSpec : ToolSpec Unit where
  name := "account_lookup"
  riskTier := .financial
  handler := ⟨fun _ => none, fun _ => pure "Client X"⟩

def replacingSpec : ToolSpec Unit where
  name := "account_lookup"
  riskTier := .readOnly
  handler := ⟨fun _ => none, fun _ => pure "replaced"⟩

def pendingCall : ToolCall :=
  ⟨"account_lookup", [("client", .str "client_x")], "orchestrator"⟩

def pendingGrants : PermissionGrants Unit :=
  ⟨{ onApprovalNeeded := some (fun _ _ => pure (.awaitable (pure true))) }⟩

def replacingStart : InMemoryToolRegistry Unit :=
  InMemoryToolRegistry.register {} pendingSpec

/-- The tool is replaced while the approval of a call is pending. -/
def replacingSchedule : List (Label Unit) :=
  [.spawn pendingCall pendingGrants, .resume 0, .register replacingSpec,
    .resume 0, .resume 0]

/-- The approved call enters the handler it had looked up. -/
theorem pending_call_enters_looked_up_handler :
    .entered 0 pendingSpec ∈
      (run step (.initial () replacingStart) replacingSchedule).log := by
  have present :
      (run step (.initial () replacingStart) replacingSchedule).tasks[0]? =
        some ⟨pendingCall, pendingGrants,
          .returned (InMemoryToolRegistry.succeeded pendingSpec "Client X")⟩ :=
    rfl
  have decided :=
    (handler_entry_decided_by_own_grants () replacingStart replacingSchedule
      present).1
  apply (decided pendingSpec trivial rfl).mpr
  constructor
  · exact
      ⟨[.spawn pendingCall pendingGrants], _,
        ⟨pendingCall, pendingGrants, .created⟩, rfl, rfl, rfl, rfl, rfl⟩
  · exact
      Or.inr ⟨rfl, rfl, List.mem_cons_of_mem _ List.mem_cons_self⟩

end ChokePoint

end FableHarness
