import FableHarness.Cli.ConcurrentTurns
import FableHarness.Cli.SharedMemory
import FableHarness.Memory.ScopeMemory

/-!
# Concurrent turns of separate users

A turn that ends adds rows of its own user only.  So what another user's turn has
recalled is what it would still recall (`ORDER BY ... LIMIT` is taken to be exact),
and the turns come out as if they had run one after the other.  Turns of one user
may miss what the other one remembers, but no row is ever lost or changed.
-/

namespace FableHarness

open ExceptionState LabelledRun PgVectorMemoryStore

variable {σ : Type}

/-! ## What a turn sends when it ends -/

/-- Answering the recall does not change what is remembered. -/
theorem remembersAs_answering (store : PgVectorMemoryStore)
    (answered : Except PyExc (List MemoryItem)) :
    RemembersAs (store.memoryStore.answering answered) store where
  remember := rfl
  recalling query scope k db := by
    have ran :
        ((store.memoryStore.answering answered).recallItems query scope k).run db =
          resultOf answered db :=
      run_ofExcept answered db
    rw [ran, finalState_resultOf]

/-- What a turn that ends like this has sent to the table: a row for each content
that its trace says it remembered, in that order. -/
structure TurnProcess.Sends (process : TurnProcess σ) (outcome : TurnOutcome σ)
    (sent : List MemoryRow) : Prop where
  remembered : sent.map MemoryRow.content = rememberedIn outcome.world.trace
  rows : ∀ row ∈ sent, row.AddedIn process.ctx process.store.encoderId

theorem TurnProcess.sends (process : TurnProcess σ)
    (answered : Except PyExc (List MemoryItem)) (table : MemoryTable) :
    ∃ sent,
      process.Sends (.of (process.resume answered table)) sent ∧
        (finalState (process.resume answered table)).memory.table =
          table.insertAll sent := by
  let services :=
    process.services.withStore (process.services.memory.answering answered)
  have remembers : RemembersAs services.memory process.store := by
    show RemembersAs (process.services.memory.answering answered) process.store
    rw [process.stored]
    exact remembersAs_answering process.store answered
  obtain ⟨sent, left, told, isNew⟩ :=
    AgentLoop.turn_inserts process.ctx process.host process.single
      process.orchestrator remembers
      (process.world.swapMemory (process.memory table))
  exact ⟨sent, ⟨told, isNew⟩, left⟩

/-- A turn shows nothing but the answer to its recall. -/
theorem TurnProcess.shown_of_resume (process : TurnProcess σ)
    (answered : Except PyExc (List MemoryItem)) (table : MemoryTable) :
    ∀ content ∈
        shownIn (TurnOutcome.of (process.resume answered table)).world.trace,
      ∃ items, answered = .ok items ∧ content ∈ items.map MemoryItem.content := by
  let services :=
    process.services.withStore (process.services.memory.answering answered)
  have retains :
      Retains services.memory fun _ content =>
        ∃ items, answered = .ok items ∧ content ∈ items.map MemoryItem.content :=
    { recalled := by
        intro query scope k before items after ran item member
        have answers : resultOf answered before = .ok items after :=
          (run_ofExcept answered before).symm.trans ran
        cases answered with
        | ok found =>
            cases answers
            exact ⟨items, rfl, List.mem_map_of_mem member⟩
        | error exc => cases answers
      recalling := fun _ _ _ _ _ held => held
      remembering := fun _ _ held => Or.inl held
      failing := fun _ _ held => held }
  exact
    (AgentLoop.turn_sourced process.host retains process.single process.orchestrator
      process.ctx (process.world.swapMemory (process.memory table))).shown

/-- What is live for other users does not change. -/
theorem TurnProcess.selectLive_resume (process : TurnProcess σ)
    (answered : Except PyExc (List MemoryItem)) (table : MemoryTable)
    {scope : String} (different : scope ≠ process.ctx.userScope) :
    selectLive (finalState (process.resume answered table)).memory.table scope =
      selectLive table scope := by
  obtain ⟨sent, sends, left⟩ := process.sends answered table
  have outside : ∀ row ∈ sent, isLiveIn scope row = false := by
    intro row member
    have inScope := (sends.rows row member).inScope
    simp [isLiveIn, inScope, different.symm]
  unfold selectLive
  rw [left, table.filter_insertAll_of_outside outside]

/-- A recall depends on the rows that are live for its user. -/
theorem TurnProcess.recalled_congr (process : TurnProcess σ)
    {left right : MemoryTable}
    (same :
      selectLive left process.ctx.userScope =
        selectLive right process.ctx.userScope) :
    process.recalled left = process.recalled right := by
  have fromLive : ∀ table,
      process.recalled table =
        process.store.recallFrom process.ctx.request process.ctx.userScope 5
          (selectLive table process.ctx.userScope) :=
    fun _ => rfl
  rw [fromLive, fromLive, same]

namespace ConcurrentTurns

/-! ## Ending as if alone -/

/-- A turn that ends does, with the answer that its recall has got, what it would
do if it ran now and nothing else did. -/
def EndsAsIfAlone (turns : ConcurrentTurns σ) (label : Label σ) : Prop :=
  ∀ index process answered,
    turns.ending label = some index →
      turns.processes[index]? = some (process, .recalled answered) →
        TurnOutcome.of (process.resume answered turns.table) =
            .of (process.turn turns.table) ∧
          (finalState (process.resume answered turns.table)).memory.table =
            (finalState (process.turn turns.table)).memory.table

theorem actsAtomically_iff {recorded : Recorded σ} (tracks : Tracks recorded)
    (label : Label σ) :
    machine.ActsAtomically recorded label ↔ EndsAsIfAlone recorded.state label := by
  unfold CommitOrder.Machine.ActsAtomically EndsAsIfAlone
  simp only [machine]
  cases effect_step recorded.state label with
  | idle starts commits => simp [commits]
  | begun process starts commits => simp [commits]
  | recalled index process starts commits => simp [commits]
  | finished index process answered starts commits found table processes =>
      have inside := (List.getElem?_eq_some_iff.mp found).1
      have called := tracks.call_eq found
      have ended :
          (step recorded.state label).outcomeOf index =
            some (.of (process.resume answered recorded.state.table)) := by
        unfold outcomeOf
        rw [processes, List.getElem?_set_self inside]
        rfl
      constructor
      · intro atomic other otherProcess otherAnswer ends present
        cases commits.symm.trans ends
        cases found.symm.trans present
        obtain ⟨outcome, left⟩ := atomic index process commits called
        rw [ended] at outcome
        rw [table] at left
        exact ⟨Option.some.inj outcome, left⟩
      · intro alone other call ends present
        cases commits.symm.trans ends
        have same : process = call := Option.some.inj (called.symm.trans present)
        subst same
        obtain ⟨outcome, left⟩ := alone index process answered commits found
        rw [ended, table, outcome, left]
        exact ⟨rfl, rfl⟩

/-- Concurrent turns end, and leave the memory, as they would one after the other
in the order of their ends, in every state of the run, exactly if each of them
ends as if it had run alone at that time. -/
theorem turns_serializable_iff (start : MemoryTable) (schedule : List (Label σ)) :
    machine.Serializable { table := start } schedule ↔
      Permitted step EndsAsIfAlone { table := start } schedule := by
  have begins : Tracks (σ := σ) { state := { table := start } } := rfl
  rw [lawful.serializable_iff begins schedule]
  unfold Permitted
  refine forall_congr' fun initial => forall_congr' fun label => ?_
  refine forall_congr' fun rest => imp_congr_right fun _ => ?_
  have tracks := lawful.valid_recordedRun begins initial
  have state : _ = run step { table := start } initial :=
    machine.state_recordedRun { table := start } initial
  rw [← state]
  exact actsAtomically_iff tracks label

/-! ## Users apart -/

/-- When a turn ends, no other turn of its user is between its recall and its
end. -/
def UsersApart (turns : ConcurrentTurns σ) (label : Label σ) : Prop :=
  ∀ index ∈ turns.ending label,
    ∀ entry ∈ turns.processes[index]?,
      ∀ other ∈ turns.processes.zipIdx,
        other.2 ≠ index → other.1.2.isRecalled = true →
          other.1.1.ctx.userScope ≠ entry.1.ctx.userScope

instance (turns : ConcurrentTurns σ) (label : Label σ) :
    Decidable (UsersApart turns label) := by
  unfold UsersApart
  infer_instance

/-- What the turns have recalled they would recall again. -/
def RecallsCurrent (turns : ConcurrentTurns σ) : Prop :=
  ∀ (index : Nat) process answered,
    turns.processes[index]? = some (process, .recalled answered) →
      process.recalled turns.table = answered

theorem UsersApart.scope_ne {turns : ConcurrentTurns σ} {label : Label σ}
    {index other : Nat} {process otherProcess : TurnProcess σ}
    {phase : TurnPhase σ} {answered : Except PyExc (List MemoryItem)}
    (apart : UsersApart turns label) (commits : turns.ending label = some index)
    (found : turns.processes[index]? = some (process, phase))
    (present : turns.processes[other]? = some (otherProcess, .recalled answered))
    (different : other ≠ index) :
    otherProcess.ctx.userScope ≠ process.ctx.userScope := by
  have listed :
      ((otherProcess, .recalled answered), other) ∈ turns.processes.zipIdx :=
    List.mem_zipIdx_iff_getElem?.mpr present
  exact apart index commits _ found _ listed different rfl

theorem recallsCurrent_step {turns : ConcurrentTurns σ} {label : Label σ}
    (apart : UsersApart turns label) (current : RecallsCurrent turns) :
    RecallsCurrent (step turns label) := by
  intro index process answered present
  cases effect_step turns label with
  | idle starts commits same =>
      rw [same] at present ⊢
      exact current index process answered present
  | begun other starts commits table processes =>
      rw [processes] at present
      rw [table]
      by_cases old : index < turns.processes.length
      · rw [List.getElem?_append_left old] at present
        exact current index process answered present
      · rw [List.getElem?_append_right (Nat.le_of_not_lt old)] at present
        have last := List.mem_of_getElem? present
        cases List.mem_singleton.mp last
  | recalled other otherProcess starts commits found table processes =>
      have inside := (List.getElem?_eq_some_iff.mp found).1
      rw [processes] at present
      rw [table]
      by_cases same : other = index
      · subst same
        rw [List.getElem?_set_self inside] at present
        cases present
        rfl
      · rw [List.getElem?_set_ne same] at present
        exact current index process answered present
  | finished other otherProcess itsAnswer starts commits found table processes =>
      have inside := (List.getElem?_eq_some_iff.mp found).1
      rw [processes] at present
      by_cases same : other = index
      · subst same
        rw [List.getElem?_set_self inside] at present
        cases present
      · rw [List.getElem?_set_ne same] at present
        have different := apart.scope_ne commits found present (Ne.symm same)
        rw [table, ← current index process answered present]
        exact process.recalled_congr (otherProcess.selectLive_resume _ _ different)

/-- If no turn ends while another one of its user is between its recall and its
end, then the turns, however they are interleaved, end as they would one after
the other, in the order in which they end, with the same worlds, and leave the
same table. -/
theorem separate_users_serializable (start : MemoryTable) (schedule : List (Label σ))
    (apart : Permitted step UsersApart { table := start } schedule) :
    machine.Serializable { table := start } schedule := by
  rw [turns_serializable_iff]
  intro initial label rest equality
  have before : Permitted step UsersApart { table := start } initial :=
    permitted_append_left (equality ▸ apart)
  have noRecall : RecallsCurrent (σ := σ) { table := start } := by
    intro index process answered present
    cases present
  have current : RecallsCurrent (run step { table := start } initial) :=
    run_invariant_of_permitted (fun _ _ => recallsCurrent_step) before noRecall
  intro index process answered _ found
  have alone :=
    process.resume_recalled (run step { table := start } initial).table
  rw [current index process answered found] at alone
  rw [alone]
  exact ⟨rfl, rfl⟩

/-- A turn of this user, who has nothing in memory yet. -/
def firstTurn (user : String) : TurnProcess Unit where
  host := Leak.install.host
  single := (Leak.invocation user).single
  orchestrator := (Leak.invocation user).orchestrator
  ctx := { (Leak.invocation user).ctx with userScope := user }
  services := Leak.services 0
  world := { env := (), memory := (), clock := 0 }
  store := Leak.store
  stored := rfl
  now := 0

/-- Both turns recall before either of them ends. -/
def overlapping (first second : TurnProcess Unit) : List (Label Unit) :=
  [.begin first, .begin second, .recallItems 0, .recallItems 1, .finish 1, .finish 0]

theorem two_users_serializable :
    machine.Serializable { table := ∅ }
      (overlapping (firstTurn "default") (firstTurn "clients")) :=
  separate_users_serializable _ _ (by decide)

/-- Separate users are needed: of two turns of one user, the one that ends last
would have been shown what the other one remembered. -/
theorem one_user_not_serializable :
    ¬ machine.Serializable { table := ∅ }
      (overlapping (firstTurn "default") (firstTurn "default")) := by
  let process := firstTurn "default"
  intro serializable
  have alone := (turns_serializable_iff ∅ _).mp serializable
  obtain ⟨_, told, validFrom, ran, table⟩ :=
    Leak.turn_first "default" 0 (.start () (process.memory ∅) 0) rfl
  have first : process.turn ∅ = .ok _ told := ran
  obtain ⟨_, after, later, _, shown, _⟩ :=
    Leak.turn_later "default" 0 (.start () (process.memory told.memory.table) 0) table
  have second : process.turn told.memory.table = .ok _ after := later
  have nothing : process.recalled ∅ = .ok [] :=
    Leak.recall_of_few rfl (Nat.zero_le _)
  have asked :
      process.recallItems.run (process.memory ∅) = .ok [] (process.memory ∅) := by
    rw [process.run_recallItems, process.table_memory, nothing, resultOf_ok]
  have left :
      (finalState (process.resume (.ok []) ∅)).memory.table = told.memory.table := by
    rw [← nothing, process.resume_recalled, first]
    rfl
  have heard : answer (process.recallItems.run (process.memory ∅)) = .ok [] := by
    rw [asked, answer]
  have kept : (finalState (process.recallItems.run (process.memory ∅))).table = ∅ := by
    rw [asked, finalState, process.table_memory]
  let initial : List (Label Unit) :=
    [.begin process, .begin process, .recallItems 0, .recallItems 1, .finish 1]
  have reached :
      run step { table := ∅ } initial =
        { table := told.memory.table
          processes := [
            (process, .recalled (.ok [])),
            (process, .ended (.of (process.resume (.ok []) ∅)))] } := by
    simp [initial, step, heard, kept, left]
  have last := alone initial (.finish 0) [] rfl
  rw [reached] at last
  obtain ⟨same, _⟩ := last 0 process (.ok []) rfl rfl
  have seen :
      Leak.fact ∈
        shownIn (TurnOutcome.of (process.turn told.memory.table)).world.trace := by
    rw [second]
    show Leak.fact ∈ shownIn after.trace
    rw [shown]
    exact List.mem_singleton_self _
  rw [← same] at seen
  obtain ⟨items, answered, member⟩ := process.shown_of_resume (.ok []) _ _ seen
  cases answered
  cases member

/-! ## Any users -/

/-- The table holds what the turns that have ended have sent, and nothing else has
happened to it: `sent` has one entry for each of these turns, in the order in which
they ended. -/
structure HoldsSent (start : MemoryTable) (recorded : Recorded σ)
    (sent : List (List MemoryRow)) : Prop where
  sends :
    List.Forall₂
      (fun (index : Nat) (rows : List MemoryRow) =>
        ∃ process outcome,
          recorded.state.processes[index]? = some (process, .ended outcome) ∧
            process.Sends outcome rows)
      recorded.order sent
  once : recorded.order.Nodup
  all :
    ∀ {index : Nat} {process : TurnProcess σ} {outcome : TurnOutcome σ},
      recorded.state.processes[index]? = some (process, .ended outcome) →
        index ∈ recorded.order
  table : recorded.state.table = start.insertAll sent.flatten

section Step

variable {start : MemoryTable} {recorded : Recorded σ}
  {sent : List (List MemoryRow)}

theorem HoldsSent.ended (holds : HoldsSent start recorded sent) :
    ∀ index ∈ recorded.order,
      ∃ process outcome,
        recorded.state.processes[index]? = some (process, .ended outcome) := by
  have each :
      List.Forall₂
        (fun (index : Nat) (_ : List MemoryRow) =>
          (∃ process outcome,
              recorded.state.processes[index]? = some (process, .ended outcome)) ∧
            True)
        recorded.order sent := by
    refine holds.sends.imp ?_
    intro index rows ⟨process, outcome, present, _⟩
    exact ⟨⟨process, outcome, present⟩, trivial⟩
  exact ((List.forall₂_and_left _ _).mp each).1

/-- What the ended turns have sent stays what they have sent. -/
theorem HoldsSent.kept (holds : HoldsSent start recorded sent) (label : Label σ) :
    List.Forall₂
      (fun (index : Nat) (rows : List MemoryRow) =>
        ∃ process outcome,
          (step recorded.state label).processes[index]? =
              some (process, .ended outcome) ∧
            process.Sends outcome rows)
      recorded.order sent := by
  refine holds.sends.imp ?_
  intro index rows ⟨process, outcome, present, sends⟩
  exact ⟨process, outcome, ended_step present rfl label, sends⟩

/-- A step that ends no turn sends nothing. -/
theorem holdsSent_of_quiet (holds : HoldsSent start recorded sent)
    {label : Label σ} (commits : recorded.state.ending label = none)
    (table : (step recorded.state label).table = recorded.state.table)
    (earlier :
      ∀ {index : Nat} {process : TurnProcess σ} {outcome : TurnOutcome σ},
        (step recorded.state label).processes[index]? =
            some (process, .ended outcome) →
          recorded.state.processes[index]? = some (process, .ended outcome)) :
    ∃ more, HoldsSent start (machine.record recorded label) (sent ++ more) := by
  have order : (machine.record recorded label).order = recorded.order := by
    show recorded.order ++ (recorded.state.ending label).toList = _
    rw [commits, Option.toList_none, List.append_nil]
  refine ⟨[], ?_⟩
  rw [List.append_nil]
  constructor
  · rw [order]
    exact holds.kept label
  · rw [order]
    exact holds.once
  · intro index process outcome present
    rw [order]
    exact holds.all (earlier present)
  · exact table.trans holds.table

theorem ended_of_set {processes : List (TurnProcess σ × TurnPhase σ)}
    {index other : Nat} {process ended : TurnProcess σ} {phase : TurnPhase σ}
    {outcome : TurnOutcome σ} (inside : index < processes.length)
    (unended : phase.outcome = none)
    (present :
      (processes.set index (process, phase))[other]? =
        some (ended, .ended outcome)) :
    processes[other]? = some (ended, .ended outcome) := by
  by_cases same : index = other
  · subst same
    rw [List.getElem?_set_self inside] at present
    cases present
    cases unended
  · rw [List.getElem?_set_ne same] at present
    exact present

/-- A turn that ends sends its rows to the table that the others have left. -/
theorem holdsSent_of_finished (holds : HoldsSent start recorded sent)
    {label : Label σ} {index : Nat} {process : TurnProcess σ}
    {answered : Except PyExc (List MemoryItem)}
    (commits : recorded.state.ending label = some index)
    (found :
      recorded.state.processes[index]? = some (process, .recalled answered))
    (table :
      (step recorded.state label).table =
        (finalState (process.resume answered recorded.state.table)).memory.table)
    (processes :
      (step recorded.state label).processes =
        recorded.state.processes.set index
          (process, .ended (.of (process.resume answered recorded.state.table)))) :
    ∃ more, HoldsSent start (machine.record recorded label) (sent ++ more) := by
  obtain ⟨rows, sends, left⟩ := process.sends answered recorded.state.table
  have inside := (List.getElem?_eq_some_iff.mp found).1
  have order :
      (machine.record recorded label).order = recorded.order ++ [index] := by
    show recorded.order ++ (recorded.state.ending label).toList = _
    rw [commits, Option.toList_some]
  have unended : index ∉ recorded.order := by
    intro member
    obtain ⟨_, _, present⟩ := holds.ended index member
    rw [found] at present
    cases present
  refine ⟨[rows], ?sends, ?once, ?all, ?table⟩
  case sends =>
    rw [order]
    refine List.rel_append (holds.kept label) (.cons ?_ .nil)
    refine ⟨process, _, ?_, sends⟩
    show (step recorded.state label).processes[index]? = _
    rw [processes, List.getElem?_set_self inside]
  case once =>
    rw [order]
    exact List.nodup_append'.mpr ⟨holds.once, List.nodup_singleton _, by simpa⟩
  case all =>
    intro other ended outcome present
    have after :
        (step recorded.state label).processes[other]? =
          some (ended, .ended outcome) :=
      present
    rw [order, List.mem_append, List.mem_singleton]
    by_cases same : other = index
    · exact Or.inr same
    · rw [processes, List.getElem?_set_ne (Ne.symm same)] at after
      exact Or.inl (holds.all after)
  case table =>
    show (step recorded.state label).table = _
    rw [table, left, holds.table, List.flatten_append, List.flatten_singleton,
      KeyedTable.insertAll_append]

theorem holdsSent_record (holds : HoldsSent start recorded sent) (label : Label σ) :
    ∃ more, HoldsSent start (machine.record recorded label) (sent ++ more) := by
  cases effect_step recorded.state label with
  | idle starts commits same =>
      refine holdsSent_of_quiet holds commits (by rw [same]) ?_
      intro index process outcome present
      rw [same] at present
      exact present
  | begun process starts commits table processes =>
      refine holdsSent_of_quiet holds commits table ?_
      intro index other outcome present
      rw [processes] at present
      by_cases old : index < recorded.state.processes.length
      · rw [List.getElem?_append_left old] at present
        exact present
      · rw [List.getElem?_append_right (Nat.le_of_not_lt old)] at present
        cases List.mem_singleton.mp (List.mem_of_getElem? present)
  | recalled index process starts commits found table processes =>
      refine holdsSent_of_quiet holds commits table ?_
      intro other ended outcome present
      rw [processes] at present
      have inside := (List.getElem?_eq_some_iff.mp found).1
      exact ended_of_set inside rfl present
  | finished index process answered starts commits found table processes =>
      exact holdsSent_of_finished holds commits found table processes

/-- Sending more leaves every row where it is. -/
theorem HoldsSent.rows_prefix {later : Recorded σ}
    {sentLater : List (List MemoryRow)} (holds : HoldsSent start recorded sent)
    (holdsLater : HoldsSent start later sentLater) (inLater : sent <+: sentLater) :
    recorded.state.table.rows <+: later.state.table.rows := by
  obtain ⟨rest, rfl⟩ := inLater
  rw [holdsLater.table, List.flatten_append, KeyedTable.insertAll_append,
    ← holds.table]
  exact KeyedTable.prefix_insertAll _ _

end Step

/-- What was sent on the way is the first part of what was sent at the end. -/
theorem sent_on_the_way (start : MemoryTable) (schedule : List (Label σ)) :
    ∃ sent,
      HoldsSent start (machine.recordedRun { table := start } schedule) sent ∧
        ∀ earlier later, schedule = earlier ++ later →
          ∃ before, before <+: sent ∧
            HoldsSent start (machine.recordedRun { table := start } earlier)
              before := by
  induction schedule using List.reverseRecOn with
  | nil =>
      have begins :
          HoldsSent start
            (machine.recordedRun { table := start } ([] : List (Label σ))) [] := by
        refine ⟨.nil, List.nodup_nil, ?_, rfl⟩
        intro index process outcome present
        cases present
      refine ⟨[], begins, ?_⟩
      intro earlier later split
      obtain ⟨rfl, rfl⟩ := List.append_eq_nil_iff.mp split.symm
      exact ⟨[], List.prefix_rfl, begins⟩
  | append_singleton initial label inductionHypothesis =>
      obtain ⟨sent, holds, onTheWay⟩ := inductionHypothesis
      obtain ⟨more, after⟩ := holdsSent_record holds label
      rw [← machine.recordedRun_concat] at after
      refine ⟨sent ++ more, after, ?_⟩
      intro earlier later split
      rcases List.eq_nil_or_concat' later with rfl | ⟨rest, last, rfl⟩
      · rw [List.append_nil] at split
        subst split
        exact ⟨sent ++ more, List.prefix_rfl, after⟩
      · rw [← List.append_assoc] at split
        obtain ⟨same, _⟩ := List.append_inj' split rfl
        obtain ⟨before, inSent, held⟩ := onTheWay earlier rest same
        exact ⟨before, inSent.trans (List.prefix_append sent more), held⟩

/-- However turns are interleaved, also of one user, the table of every state of
the run is that of the start with the rows inserted that the turns which have ended
so far have sent, in the order in which they ended; what they have sent by then is
never taken back, and no row is changed or moved. -/
theorem concurrent_memory_only_grows (start : MemoryTable)
    (schedule : List (Label σ)) :
    ∃ sent,
      HoldsSent start (machine.recordedRun { table := start } schedule) sent ∧
        ∀ earlier later, schedule = earlier ++ later →
          (machine.recordedRun { table := start } earlier).state.table.rows <+:
              (machine.recordedRun { table := start } schedule).state.table.rows ∧
            ∃ before, before <+: sent ∧
              HoldsSent start (machine.recordedRun { table := start } earlier)
                before := by
  obtain ⟨sent, holds, onTheWay⟩ := sent_on_the_way start schedule
  refine ⟨sent, holds, ?_⟩
  intro earlier later split
  obtain ⟨before, inSent, held⟩ := onTheWay earlier later split
  exact ⟨held.rows_prefix holds inSent, before, inSent, held⟩

end ConcurrentTurns

end FableHarness
