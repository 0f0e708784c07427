import FableHarness.Flows.ToolAhead

/-!
# Tools after the end of a turn

`run_turn` ends as soon as one worker raises, and its siblings go on.  A tool
can then be entered after the end exactly when the turn can end while a sibling
has a tool ahead of it.
-/

namespace FableHarness

open ExceptionState LabelledRun

variable {σ : Type}

namespace GatherLoop

/-! ## Turns that end when their workers are spent -/

/-- No tool is entered once the turn has ended. -/
def NoToolAfterEnd (log : List TurnEvent) : Prop :=
  ∀ earlier later worker,
    log = earlier ++ .turnEnded :: later → .entered worker ∉ later

theorem noToolAfterEnd_append {log news : List TurnEvent}
    (holds : NoToolAfterEnd log)
    (fits :
      .turnEnded ∉ log ++ news ∨ ∀ worker, .entered worker ∉ news) :
    NoToolAfterEnd (log ++ news) := by
  intro earlier later worker split
  rcases fits with absent | quiet
  · exact absurd (by simp [split]) absent
  · rcases List.append_eq_append_iff.mp split with
      ⟨between, _, tail⟩ | ⟨between, whole, tail⟩
    · intro member
      apply quiet worker
      rw [tail]
      exact List.mem_append_right _ (List.mem_cons_of_mem _ member)
    · cases between with
      | nil =>
          intro member
          apply quiet worker
          rw [← List.nil_append news, ← tail]
          exact List.mem_cons_of_mem _ member
      | cons first rest =>
          obtain ⟨rfl, rfl⟩ := List.cons.inj tail
          intro member
          rcases List.mem_append.mp member with early | late
          · exact holds earlier rest worker whole early
          · exact quiet worker late

/-- A turn that ends because a worker raised ends when no sibling has a tool
ahead of it. -/
def EndsSpent (tasks : TurnTasks σ) (loop : GatherLoop σ) (label : Label σ) :
    Prop :=
  label = .run → loop.run = .gathering → loop.anyRaised = true → Spent tasks loop

structure Ordered (tasks : TurnTasks σ) (loop : GatherLoop σ) : Prop where
  quiet : NoToolAfterEnd loop.log
  ended : .turnEnded ∈ loop.log → loop.run = .ended
  spent : loop.run ≠ .gathering → Spent tasks loop

section Steps

variable {tasks : TurnTasks σ} {loop : GatherLoop σ}

theorem mem_entry {worker : Worker} {entered : Bool} {event : TurnEvent}
    (member : event ∈ entry worker entered) :
    entered = true ∧ event = .entered worker := by
  cases entered with
  | false => cases member
  | true => exact ⟨rfl, List.mem_singleton.mp member⟩

/-- A worker without a tool ahead of it adds nothing to the log. -/
theorem quiet_worker (worker : Worker) {entered : Bool}
    (ordered : Ordered tasks loop)
    (spentQuiet : Spent tasks loop → entered = false) :
    NoToolAfterEnd (loop.log ++ entry worker entered) ∧
      (.turnEnded ∈ loop.log ++ entry worker entered → loop.run = .ended) := by
  have endedBefore :
      .turnEnded ∈ loop.log ++ entry worker entered →
        .turnEnded ∈ loop.log := by
    intro member
    rcases List.mem_append.mp member with early | late
    · exact early
    · cases (mem_entry late).2
  refine ⟨noToolAfterEnd_append ordered.quiet ?_, ordered.ended ∘ endedBefore⟩
  by_cases ended : .turnEnded ∈ loop.log
  · have finished := ordered.ended ended
    have silent := spentQuiet (ordered.spent (by rw [finished]; decide))
    right
    intro other member
    rw [silent] at member
    cases member
  · exact Or.inl fun member => ended (endedBefore member)

theorem spent_of_allReturned (returned : loop.allReturned = true) :
    Spent tasks loop := by
  simp only [allReturned, Bool.and_eq_true] at returned
  obtain ⟨⟨account, meeting⟩, retrieval⟩ := returned
  have lookupSpent :
      ∀ task : ChokePoint.Task σ, lookupReturned task = true →
        ¬ LookupAhead tasks task := by
    intro task done
    unfold lookupReturned at done
    unfold LookupAhead
    cases phase : task.phase with
    | returned result => exact id
    | created => simp [phase] at done
    | awaitingApproval spec resolve => simp [phase] at done
    | inHandler spec => simp [phase] at done
    | raised exc => simp [phase] at done
  refine ⟨lookupSpent _ account, lookupSpent _ meeting, ?_⟩
  cases phase : loop.retrieval with
  | returned output => exact id
  | created => simp [retrievalReturned, phase] at retrieval
  | awaitingModel behaviour => simp [retrievalReturned, phase] at retrieval
  | awaitingApproval name arguments next resolve =>
      simp [retrievalReturned, phase] at retrieval
  | inServer name arguments next => simp [retrievalReturned, phase] at retrieval
  | raised exc => simp [retrievalReturned, phase] at retrieval

theorem not_entered_of_turnEnded (worker : Worker) :
    .entered worker ∉ [TurnEvent.turnEnded] := by
  simp

/-- The end of a turn whose workers are spent. -/
theorem ordered_ended (ordered : Ordered tasks loop) (spent : Spent tasks loop) :
    Ordered tasks
      { loop with run := .ended, log := loop.log ++ [.turnEnded] } where
  quiet := noToolAfterEnd_append ordered.quiet (Or.inr not_entered_of_turnEnded)
  ended _ := rfl
  spent _ := ⟨spent.account, spent.meeting, spent.retrieval⟩

theorem ordered_resumeRun (ordered : Ordered tasks loop)
    (endsSpent : EndsSpent tasks loop .run) :
    Ordered tasks loop.resumeRun := by
  unfold resumeRun
  cases phase : loop.run with
  | gathering =>
      by_cases raised : loop.anyRaised = true
      · simp only [raised, if_true]
        exact ordered_ended ordered (endsSpent rfl phase raised)
      · by_cases returned : loop.allReturned = true
        · simp only [raised, returned, if_true]
          have spent : Spent tasks loop := spent_of_allReturned returned
          refine ⟨ordered.quiet, ?_, fun _ =>
            ⟨spent.account, spent.meeting, spent.retrieval⟩⟩
          intro ended
          rw [ordered.ended ended] at phase
          cases phase
        · simp only [raised, returned]
          exact ordered
  | concluding =>
      have spent := ordered.spent (by rw [phase]; decide)
      exact ordered_ended ordered spent
  | ended => exact ordered

theorem lookup_silent {task : ChokePoint.Task σ} (env : σ)
    (spent : ¬ LookupAhead tasks task) :
    (advanceLookup tasks task env).2.2 = false ∧
      ¬ LookupAhead tasks (advanceLookup tasks task env).1 :=
  ⟨Bool.eq_false_iff.mpr fun entered =>
      spent (lookupAhead_of_advance (Or.inl entered)),
    fun ahead => spent (lookupAhead_of_advance (Or.inr ahead))⟩

theorem retrieval_silent {phase : RetrievalPhase σ} (env : σ)
    (spent : ¬ RetrievalAhead tasks phase) :
    (tasks.advanceRetrieval phase env).entered = false ∧
      ¬ RetrievalAhead tasks (tasks.advanceRetrieval phase env).phase :=
  ⟨Bool.eq_false_iff.mpr fun entered =>
      spent (retrievalAhead_of_advance (Or.inl entered)),
    fun ahead => spent (retrievalAhead_of_advance (Or.inr ahead))⟩

theorem ordered_step (label : Label σ) (endsSpent : EndsSpent tasks loop label)
    (ordered : Ordered tasks loop) : Ordered tasks (step tasks loop label) := by
  cases label with
  | run => exact ordered_resumeRun ordered endsSpent
  | outside change =>
      refine ⟨ordered.quiet, ordered.ended, fun started => ?_⟩
      have spent := ordered.spent started
      exact ⟨spent.account, spent.meeting, spent.retrieval⟩
  | worker worker =>
      cases worker with
      | account =>
          have quiet :=
            quiet_worker .account ordered fun spent =>
              (lookup_silent loop.env spent.account).1
          refine ⟨quiet.1, quiet.2, fun started => ?_⟩
          have spent := ordered.spent started
          exact
            ⟨(lookup_silent loop.env spent.account).2, spent.meeting,
              spent.retrieval⟩
      | meeting =>
          have quiet :=
            quiet_worker .meeting ordered fun spent =>
              (lookup_silent loop.env spent.meeting).1
          refine ⟨quiet.1, quiet.2, fun started => ?_⟩
          have spent := ordered.spent started
          exact
            ⟨spent.account, (lookup_silent loop.env spent.meeting).2,
              spent.retrieval⟩
      | retrieval =>
          have quiet :=
            quiet_worker .retrieval ordered fun spent =>
              (retrieval_silent loop.env spent.retrieval).1
          refine ⟨quiet.1, quiet.2, fun started => ?_⟩
          have spent := ordered.spent started
          exact
            ⟨spent.account, spent.meeting,
              (retrieval_silent loop.env spent.retrieval).2⟩

theorem ordered_initial (tasks : TurnTasks σ) (env : σ) :
    Ordered tasks (initial tasks env) := by
  refine ⟨?_, ?_, ?_⟩
  · intro earlier later worker split
    cases earlier <;> cases split
  · intro ended
    cases ended
  · intro started
    exact absurd rfl started

/-- The run lemma: turns that end spent are followed by no tool. -/
theorem noToolAfterEnd_of_endsSpent {env : σ} {schedule : List (Label σ)}
    (permitted :
      Permitted (step tasks) (EndsSpent tasks) (initial tasks env) schedule) :
    NoToolAfterEnd
      (LabelledRun.run (step tasks) (initial tasks env) schedule).log :=
  (run_invariant_of_permitted
    (fun _ label endsSpent ordered => ordered_step label endsSpent ordered)
    permitted (ordered_initial tasks env)).quiet

end Steps

/-! ## Turns that end earlier -/

section Converse

variable {tasks : TurnTasks σ}

/-- In the event loop, a task that can enter a tool has a schedule in which it
does. -/
theorem exists_entering_schedule {P : Type} {advance : P → σ → P × σ × Bool}
    (worker : Worker) (taskOf : GatherLoop σ → P)
    (advances :
      ∀ loop, taskOf (step tasks loop (.worker worker)) =
        (advance (taskOf loop) loop.env).1)
    (logs :
      ∀ loop, (step tasks loop (.worker worker)).log =
        loop.log ++ entry worker (advance (taskOf loop) loop.env).2.2)
    (keeps : ∀ (loop : GatherLoop σ) env, taskOf { loop with env } = taskOf loop)
    {phase : P} (canEnter : CanEnter advance phase) :
    ∀ loop, taskOf loop = phase →
      ∃ schedule later,
        (LabelledRun.run (step tasks) loop schedule).log = loop.log ++ later ∧
          .entered worker ∈ later := by
  induction canEnter with
  | now phase env entered =>
      intro loop same
      refine ⟨[.outside fun _ => env, .worker worker], entry worker true, ?_,
        List.mem_singleton.mpr rfl⟩
      rw [run_cons, run_cons, run_nil, logs]
      simp only [step, keeps, same, entered]
  | later phase env rest inductionHypothesis =>
      intro loop same
      let moved := step tasks { loop with env } (.worker worker)
      have reached : taskOf moved = (advance phase env).1 := by
        rw [advances, keeps, same]
      obtain ⟨schedule, later, extended, member⟩ :=
        inductionHypothesis moved reached
      refine ⟨.outside (fun _ => env) :: .worker worker :: schedule,
        entry worker (advance phase env).2.2 ++ later, ?_,
        List.mem_append_right _ member⟩
      have grown :
          moved.log = loop.log ++ entry worker (advance phase env).2.2 := by
        rw [logs, keeps, same]
      rw [run_cons, run_cons, ← List.append_assoc, ← grown]
      exact extended

/-- A worker that is not spent can enter a tool. -/
theorem exists_entry_of_not_spent {loop : GatherLoop σ}
    (ahead : ¬ Spent tasks loop) :
    ∃ schedule later worker,
      (LabelledRun.run (step tasks) loop schedule).log = loop.log ++ later ∧
        .entered worker ∈ later := by
  by_cases account : LookupAhead tasks loop.account
  · obtain ⟨schedule, later, extended, member⟩ :=
      exists_entering_schedule .account GatherLoop.account (fun _ => rfl)
        (fun _ => rfl) (fun _ _ => rfl)
        (canEnter_of_lookupAhead loop.env account) loop rfl
    exact ⟨schedule, later, .account, extended, member⟩
  · by_cases meeting : LookupAhead tasks loop.meeting
    · obtain ⟨schedule, later, extended, member⟩ :=
        exists_entering_schedule .meeting GatherLoop.meeting (fun _ => rfl)
          (fun _ => rfl) (fun _ _ => rfl)
          (canEnter_of_lookupAhead loop.env meeting) loop rfl
      exact ⟨schedule, later, .meeting, extended, member⟩
    · have retrieval : RetrievalAhead tasks loop.retrieval :=
        Classical.byContradiction fun none =>
          ahead ⟨account, meeting, none⟩
      obtain ⟨schedule, later, extended, member⟩ :=
        exists_entering_schedule .retrieval GatherLoop.retrieval (fun _ => rfl)
          (fun _ => rfl) (fun _ _ => rfl)
          (canEnter_of_retrievalAhead loop.env retrieval) loop rfl
      exact ⟨schedule, later, .retrieval, extended, member⟩

/-- A turn that ends too early can be followed by a tool. -/
theorem endsSpent_of_noToolAfterEnd {loop : GatherLoop σ} {label : Label σ}
    (quiet :
      ∀ rest,
        NoToolAfterEnd (LabelledRun.run (step tasks) loop (label :: rest)).log) :
    EndsSpent tasks loop label := by
  rintro rfl phase raised
  apply Classical.byContradiction
  intro ahead
  let ended : GatherLoop σ :=
    { loop with run := .ended, log := loop.log ++ [.turnEnded] }
  have ends : step tasks loop .run = ended := by
    simp [step, resumeRun, phase, raised, ended]
  have still : ¬ Spent tasks ended := fun spent =>
    ahead ⟨spent.account, spent.meeting, spent.retrieval⟩
  obtain ⟨rest, later, worker, extended, member⟩ :=
    exists_entry_of_not_spent still
  have log :
      (LabelledRun.run (step tasks) loop (.run :: rest)).log =
        loop.log ++ .turnEnded :: later := by
    rw [run_cons, ends, extended]
    simp [ended]
  exact quiet rest loop.log later worker log member

end Converse

end GatherLoop

open GatherLoop in
/-- Whether a turn can be followed by one of its tools is whether it can end
while a worker still has a tool ahead of it. -/
theorem no_tool_after_turn_iff (tasks : TurnTasks σ) (env : σ) :
    (∀ schedule,
      Permitted (step tasks) (EndsSpent tasks) (initial tasks env) schedule →
        NoToolAfterEnd
          (LabelledRun.run (step tasks) (initial tasks env) schedule).log) ∧
      ((∀ schedule,
          NoToolAfterEnd
            (LabelledRun.run (step tasks) (initial tasks env) schedule).log) ↔
        ∀ schedule,
          Permitted (step tasks) (EndsSpent tasks) (initial tasks env)
            schedule) := by
  refine ⟨fun _ => noToolAfterEnd_of_endsSpent, ?_, ?_⟩
  · intro quiet schedule before label after split
    apply endsSpent_of_noToolAfterEnd
    intro rest
    rw [← run_append]
    exact quiet (before ++ label :: rest)
  · exact fun permitted schedule =>
      noToolAfterEnd_of_endsSpent (permitted schedule)

/-! ## A turn with a lookup that waits for approval -/

namespace WaitingLookup

/-- Every approval is asked for asynchronously, and given. -/
def gate : ApprovalGate Unit where
  onApprovalNeeded := some fun _ _ => pure (.awaitable (pure true))

def accountLookup : ToolSpec Unit where
  name := "account_lookup"
  riskTier := .financial
  handler := ⟨fun _ => none, fun _ => pure "3 accounts"⟩
  flows := ["orchestrator"]

/-- The retrieval model cannot be reached. -/
def tasks (tools : InMemoryToolRegistry Unit) : TurnTasks Unit where
  host := Idle.host
  flow :=
    { Idle.orchestrator with
      retrievalModel _ := throw (.other "ModelHTTPError" "503") }
  request := "prep me"
  tools := tools
  approvalGate := some gate

end WaitingLookup

open GatherLoop in
/-- Retrieval fails after two lookups of unknown tools: nothing is left to run. -/
theorem unknown_lookups_enter_nothing :
    NoToolAfterEnd
      (LabelledRun.run (step (WaitingLookup.tasks {}))
        (initial (WaitingLookup.tasks {}) ())
        [.worker .account, .worker .meeting, .worker .retrieval, .run,
          .worker .account]).log := by
  refine (no_tool_after_turn_iff (WaitingLookup.tasks {}) ()).1 _ ?_
  have working :
      ∀ loop worker,
        EndsSpent (WaitingLookup.tasks {}) loop (.worker worker) := by
    intro loop worker equal
    cases equal
  refine
    permitted_cons_iff.mpr ⟨working _ _,
      permitted_cons_iff.mpr ⟨working _ _,
        permitted_cons_iff.mpr ⟨working _ _,
          permitted_cons_iff.mpr ⟨?_,
            permitted_cons_iff.mpr ⟨working _ _, permitted_nil _ _⟩⟩⟩⟩⟩
  exact fun _ _ _ => ⟨id, id, id⟩

open GatherLoop in
/-- Retrieval fails while the account lookup waits for its approval: the turn is
over, the approval arrives, and the financial tool runs. -/
theorem approved_lookup_enters_after_turn :
    let tools := InMemoryToolRegistry.register {} WaitingLookup.accountLookup
    let tasks := WaitingLookup.tasks tools
    let schedule : List (Label Unit) :=
      [.worker .account, .worker .meeting, .worker .retrieval, .run,
        .worker .account]
    let log := (LabelledRun.run (step tasks) (initial tasks ()) schedule).log
    log = [.turnEnded, .entered .account] ∧ ¬ NoToolAfterEnd log := by
  intro tools tasks schedule log
  have happened : log = [.turnEnded, .entered .account] := by decide +kernel
  refine ⟨happened, ?_⟩
  intro quiet
  exact quiet [] [.entered .account] .account happened List.mem_cons_self

end FableHarness
