import FableHarness.Cli.MemoryGrowth
import FableHarness.Flows.AnsweredRecall
import FableHarness.Flows.MemorySimulation
import FableHarness.Library.CommitOrder
import FableHarness.Memory.MemoryDb

/-!
# Turns at the same time

Processes that run a turn each over one memory table.  A turn asks its store for
a recall and later, if at all, for a remember; between the two, other turns take
their steps.  A call of the store is one step: its `SELECT`, or its `INSERT` of rows
stamped by the clock of the process.
-/

namespace FableHarness

open ExceptionState LabelledRun

variable {σ : Type}

/-- A turn of a process; everything but the memory is its own. -/
structure TurnProcess (σ : Type) where
  host : Host σ
  single : SingleAgentFlow σ
  orchestrator : OrchestratorFlow σ
  ctx : RunContext
  services : HarnessServices σ MemoryDb
  world : World σ Unit
  store : PgVectorMemoryStore
  stored : services.memory = store.memoryStore
  /-- What the clock of the process shows when it stamps what it remembers. -/
  now : Timestamp

/-- How a turn ended, and the world of its process at that time. -/
structure TurnOutcome (σ : Type) where
  answer : Except TurnExc FlowResult
  world : World σ Unit

def TurnOutcome.of (ran : EStateM.Result TurnExc (World σ MemoryDb) FlowResult) :
    TurnOutcome σ where
  answer := ExceptionState.answer ran
  world := (finalState ran).swapMemory ()

namespace TurnProcess

variable (process : TurnProcess σ)

/-- The table as the process meets it, with its own clock. -/
def memory (table : MemoryTable) : MemoryDb where
  table := table
  readings _ := process.now

@[simp]
theorem table_memory (table : MemoryTable) : (process.memory table).table = table :=
  rfl

/-- The turn with these services, over the table of the moment. -/
def turnWith (services : HarnessServices σ MemoryDb) (table : MemoryTable) :
    EStateM.Result TurnExc (World σ MemoryDb) FlowResult :=
  (AgentLoop.harness process.host process.single process.orchestrator).turn
    process.ctx services (process.world.swapMemory (process.memory table))

/-- The turn, run while no other one is. -/
def turn (table : MemoryTable) :
    EStateM.Result TurnExc (World σ MemoryDb) FlowResult :=
  process.turnWith process.services table

/-- The recall of the turn. -/
def recallItems : Py MemoryDb (List MemoryItem) :=
  process.services.memory.recallItems process.ctx.request process.ctx.userScope 5

/-- The turn, with the answer that its recall has got.  What it does before the
recall does not look at the memory, so it does not matter when that is done. -/
def resume (answered : Except PyExc (List MemoryItem)) (table : MemoryTable) :
    EStateM.Result TurnExc (World σ MemoryDb) FlowResult :=
  process.turnWith
    (process.services.withStore (process.services.memory.answering answered)) table

/-- What the turn would recall now. -/
def recalled (table : MemoryTable) : Except PyExc (List MemoryItem) :=
  process.store.recallItems process.ctx.request process.ctx.userScope 5 table

/-- A recall leaves the memory as it is. -/
theorem run_recallItems (db : MemoryDb) :
    process.recallItems.run db = resultOf (process.recalled db.table) db := by
  unfold recallItems recalled
  rw [process.stored, PgVectorMemoryStore.run_recallItems]
  cases
    process.store.recallItems process.ctx.request process.ctx.userScope 5 db.table with
  | ok items => rfl
  | error exc => rfl

/-- With the answer that its recall would get now, the turn goes on as if it had
only begun now. -/
theorem resume_recalled (table : MemoryTable) :
    process.resume (process.recalled table) table = process.turn table := by
  apply AgentLoop.harness_turn_withStore
  exact MemoryStore.servesAs_answering (process.run_recallItems _)

end TurnProcess

/-! ## The processes and their memory -/

inductive TurnPhase (σ : Type) where
  | begun
  | recalled (answered : Except PyExc (List MemoryItem))
  | ended (outcome : TurnOutcome σ)

def TurnPhase.outcome : TurnPhase σ → Option (TurnOutcome σ)
  | .ended outcome => some outcome
  | _ => none

def TurnPhase.isRecalled : TurnPhase σ → Bool
  | .recalled _ => true
  | _ => false

structure ConcurrentTurns (σ : Type) where
  table : MemoryTable
  processes : List (TurnProcess σ × TurnPhase σ) := []

namespace ConcurrentTurns

inductive Label (σ : Type) where
  | begin (process : TurnProcess σ)
  /-- The turn gets the answer to its recall. -/
  | recallItems (index : Nat)
  /-- The turn goes on from there, remembers what it remembers, and ends. -/
  | finish (index : Nat)

def step (turns : ConcurrentTurns σ) : Label σ → ConcurrentTurns σ
  | .begin process =>
      { turns with processes := turns.processes ++ [(process, .begun)] }
  | .recallItems index =>
      match turns.processes[index]? with
      | some (process, .begun) =>
          let ran := process.recallItems.run (process.memory turns.table)
          let phase := .recalled (answer ran)
          { table := (finalState ran).table
            processes := turns.processes.set index (process, phase) }
      | _ => turns
  | .finish index =>
      match turns.processes[index]? with
      | some (process, .recalled answered) =>
          let ran := process.resume answered turns.table
          let phase := .ended (.of ran)
          { table := (finalState ran).memory.table
            processes := turns.processes.set index (process, phase) }
      | _ => turns

def started : Label σ → Option (TurnProcess σ)
  | .begin process => some process
  | _ => none

/-- The number of the turn that ends. -/
def ending (turns : ConcurrentTurns σ) : Label σ → Option Nat
  | .finish index =>
      match turns.processes[index]? with
      | some (_, .recalled _) => some index
      | _ => none
  | _ => none

def outcomeOf (turns : ConcurrentTurns σ) (index : Nat) : Option (TurnOutcome σ) :=
  turns.processes[index]?.bind fun entry => entry.2.outcome

/-- The turns as calls on the memory that are committed when they end. -/
def machine :
    CommitOrder.Machine (ConcurrentTurns σ) (Label σ) (TurnProcess σ) MemoryTable
      (TurnOutcome σ) where
  step := step
  starts _ := started
  commits := ending
  data := table
  answer := outcomeOf
  perform process table :=
    (.of (process.turn table), (finalState (process.turn table)).memory.table)

abbrev Recorded (σ : Type) :=
  CommitOrder.Recorded (ConcurrentTurns σ) (TurnProcess σ)

/-! ## One step -/

/-- The step under `label`, by its effect. -/
inductive Effect (turns : ConcurrentTurns σ) (label : Label σ)
    (after : ConcurrentTurns σ) : Prop where
  | idle (starts : started label = none) (commits : turns.ending label = none)
      (same : after = turns)
  | begun (process : TurnProcess σ) (starts : started label = some process)
      (commits : turns.ending label = none) (table : after.table = turns.table)
      (processes : after.processes = turns.processes ++ [(process, .begun)])
  | recalled (index : Nat) (process : TurnProcess σ)
      (starts : started label = none) (commits : turns.ending label = none)
      (found : turns.processes[index]? = some (process, .begun))
      (table : after.table = turns.table)
      (processes :
        after.processes =
          turns.processes.set index
            (process, .recalled (process.recalled turns.table)))
  | finished (index : Nat) (process : TurnProcess σ)
      (answered : Except PyExc (List MemoryItem))
      (starts : started label = none) (commits : turns.ending label = some index)
      (found : turns.processes[index]? = some (process, .recalled answered))
      (table :
        after.table =
          (finalState (process.resume answered turns.table)).memory.table)
      (processes :
        after.processes =
          turns.processes.set index
            (process, .ended (.of (process.resume answered turns.table))))

theorem effect_step (turns : ConcurrentTurns σ) (label : Label σ) :
    Effect turns label (step turns label) := by
  cases label with
  | begin process => exact .begun process rfl rfl rfl rfl
  | recallItems index =>
      simp only [step]
      split
      · rename_i process found
        have ran := process.run_recallItems (process.memory turns.table)
        refine .recalled index process rfl rfl found ?table ?processes
        case table =>
          rw [ran, finalState_resultOf, process.table_memory]
        case processes =>
          rw [ran, answer_resultOf, process.table_memory]
      · exact .idle rfl rfl rfl
  | finish index =>
      simp only [step]
      split
      · rename_i process answered found
        have commits : turns.ending (.finish index) = some index := by
          simp only [ending, found]
        exact .finished index process answered rfl commits found rfl rfl
      · have commits : turns.ending (.finish index) = none := by
          simp only [ending]
        exact .idle rfl commits rfl

/-- The turns that were started are those of the processes. -/
def Tracks (recorded : Recorded σ) : Prop :=
  recorded.calls = recorded.state.processes.map Prod.fst

theorem Tracks.call_eq {recorded : Recorded σ} (tracks : Tracks recorded)
    {index : Nat} {process : TurnProcess σ} {phase : TurnPhase σ}
    (found : recorded.state.processes[index]? = some (process, phase)) :
    recorded.calls[index]? = some process := by
  rw [tracks, List.getElem?_map, found, Option.map_some]

theorem map_fst_set {processes : List (TurnProcess σ × TurnPhase σ)} {index : Nat}
    {process : TurnProcess σ} {old new : TurnPhase σ}
    (found : processes[index]? = some (process, old)) :
    (processes.set index (process, new)).map Prod.fst = processes.map Prod.fst := by
  have same : (processes.map Prod.fst)[index]? = some process := by
    rw [List.getElem?_map, found, Option.map_some]
  have inside := (List.getElem?_eq_some_iff.mp same).1
  rw [List.map_set]
  apply List.ext_getElem?
  intro other
  by_cases equal : index = other
  · subst equal
    rw [List.getElem?_set_self inside, same]
  · rw [List.getElem?_set_ne equal]

theorem tracks_record {recorded : Recorded σ} (label : Label σ)
    (tracks : Tracks recorded) : Tracks (machine.record recorded label) := by
  have before : recorded.calls = recorded.state.processes.map Prod.fst := tracks
  show recorded.calls ++ (started label).toList =
    (step recorded.state label).processes.map Prod.fst
  cases effect_step recorded.state label with
  | idle starts commits same =>
      rw [starts, same, Option.toList_none, List.append_nil, before]
  | begun process starts commits table processes =>
      rw [starts, processes, Option.toList_some, List.map_append, before]
      rfl
  | recalled index process starts commits found table processes =>
      rw [starts, processes, map_fst_set found, Option.toList_none, List.append_nil,
        before]
  | finished index process answered starts commits found table processes =>
      rw [starts, processes, map_fst_set found, Option.toList_none, List.append_nil,
        before]

/-- A turn that has ended stays as it has ended. -/
theorem ended_step {turns : ConcurrentTurns σ} {index : Nat}
    {entry : TurnProcess σ × TurnPhase σ} {outcome : TurnOutcome σ}
    (present : turns.processes[index]? = some entry)
    (ended : entry.2.outcome = some outcome) (label : Label σ) :
    (step turns label).processes[index]? = some entry := by
  have elsewhere :
      ∀ (other : Nat) (old new : TurnProcess σ × TurnPhase σ),
        turns.processes[other]? = some old → old.2.outcome = none →
          (turns.processes.set other new)[index]? = some entry := by
    intro other old new found unfinished
    have different : other ≠ index := by
      rintro rfl
      rw [found] at present
      cases present
      rw [unfinished] at ended
      cases ended
    rw [List.getElem?_set_ne different, present]
  cases effect_step turns label with
  | idle starts commits same => rw [same, present]
  | begun process starts commits table processes =>
      have inside := (List.getElem?_eq_some_iff.mp present).1
      rw [processes, List.getElem?_append_left inside, present]
  | recalled other process starts commits found table processes =>
      rw [processes]
      exact elsewhere other _ _ found rfl
  | finished other process answered starts commits found table processes =>
      rw [processes]
      exact elsewhere other _ _ found rfl

theorem outcomeOf_step {turns : ConcurrentTurns σ} {label : Label σ} {index : Nat}
    {outcome : TurnOutcome σ} (given : turns.outcomeOf index = some outcome) :
    (step turns label).outcomeOf index = some outcome := by
  obtain ⟨entry, present, ended⟩ := Option.bind_eq_some_iff.mp given
  unfold outcomeOf
  rw [ended_step present ended label]
  exact ended

theorem lawful : (machine (σ := σ)).Lawful Tracks where
  quiet recorded label _ quiet := by
    show (step recorded.state label).table = recorded.state.table
    cases effect_step recorded.state label with
    | idle starts commits same => rw [same]
    | begun process starts commits table => exact table
    | recalled index process starts commits found table => exact table
    | finished index process answered starts commits =>
        cases quiet.symm.trans commits
  stays _ _ _ _ _ given := outcomeOf_step given
  started recorded label index tracks committed := by
    cases effect_step recorded.state label with
    | idle starts commits => cases committed.symm.trans commits
    | begun process starts commits => cases committed.symm.trans commits
    | recalled other process starts commits => cases committed.symm.trans commits
    | finished other process answered starts commits found =>
        cases committed.symm.trans commits
        exact (List.getElem?_eq_some_iff.mp (tracks.call_eq found)).1
  kept _ label tracks := tracks_record label tracks

end ConcurrentTurns

end FableHarness
