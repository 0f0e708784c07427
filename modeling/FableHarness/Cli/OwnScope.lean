import FableHarness.Cli.MemorySimulation
import FableHarness.Memory.ScopeMemory

/-!
# The command line sees one scope

All invocations work under the default scope of a context.  Over the whole table
they do what they do over the live facts of this scope.
-/

namespace FableHarness

variable {σ : Type}

/-- The scope of every invocation. -/
def cliScope : String := "default"

/-- The machine, of whose memory only what the scope sees is left. -/
def Machine.seenFrom (scope : String) (machine : Machine σ MemoryDb) :
    Machine σ ScopeMemory :=
  machine.swapMemory (ScopeMemory.of scope machine.memory)

/-- An invocation, and the store that it connects to. -/
structure StoredInvocation (σ : Type) where
  invocation : Invocation σ MemoryDb
  store : PgVectorMemoryStore

namespace StoredInvocation

/-- The invocation over the whole table. -/
def overTable (stored : StoredInvocation σ) : Invocation σ MemoryDb :=
  stored.invocation.swapMemory stored.store.memoryStore

/-- The invocation over the live facts of the scope. -/
def overScope (stored : StoredInvocation σ) : Invocation σ ScopeMemory :=
  stored.invocation.swapMemory stored.store.scopeStore

def simulated (stored : StoredInvocation σ) :
    SimulatedInvocation (SeenFrom cliScope) σ where
  invocation := stored.overTable
  other := stored.store.scopeStore
  simulated := stored.store.simulated_scopeStore cliScope

end StoredInvocation

/-- Over every sequence of invocations the command line does over the table what it
does over the live facts of its own scope: the same turns with the same traces, run
records, outside world and clock, and in the end what the scope sees of the table
is what the facts have become.  So neither the rows of other scopes nor closed rows
ever show, but for the ids they take. -/
theorem cli_sees_own_scope (machine : Machine σ MemoryDb)
    (invocations : List (StoredInvocation σ)) :
    (machine.run (invocations.map StoredInvocation.overTable)).seenFrom cliScope =
      (machine.seenFrom cliScope).run
        (invocations.map StoredInvocation.overScope) := by
  have begins :
      Machine.Paired (SeenFrom cliScope) machine (machine.seenFrom cliScope) :=
    .intro machine (ScopeMemory.of cliScope machine.memory) rfl
  have paired :=
    Machine.paired_run (invocations.map StoredInvocation.simulated) begins
  rw [List.map_map, List.map_map] at paired
  change
    Machine.Paired (SeenFrom cliScope)
      (machine.run (invocations.map StoredInvocation.overTable))
      ((machine.seenFrom cliScope).run
        (invocations.map StoredInvocation.overScope)) at paired
  generalize
    machine.run (invocations.map StoredInvocation.overTable) = ran at paired ⊢
  generalize
    (machine.seenFrom cliScope).run (invocations.map StoredInvocation.overScope) =
      shown at paired ⊢
  cases paired with
  | intro memory seen =>
      unfold Machine.seenFrom
      rw [seen]

end FableHarness
