import FableHarness.Cli.Preparation
import FableHarness.Cli.MemorySimulation
import FableHarness.Flows.MemoryProtocol

/-!
# The memory protocol of the command line

Invocations over stores that keep a log do what they do over the stores themselves,
and the log is made of one stretch for each invocation, which follows the protocol of
its turn.
-/

namespace FableHarness

open ExceptionState

variable {σ μ : Type}

/-- The invocation over its own store behind a log. -/
def Invocation.logging (invocation : Invocation σ μ) : Invocation σ (Logged μ) :=
  invocation.swapMemory invocation.install.memory.logging

/-- The machine with an empty log beside its memory. -/
def Machine.logged (machine : Machine σ μ) : Machine σ (Logged μ) :=
  machine.swapMemory (machine.memory, [])

/-- The machine without the log. -/
def Machine.unlogged (machine : Machine σ (Logged μ)) : Machine σ μ :=
  machine.swapMemory machine.memory.1

/-- Keeping a log changes nothing else. -/
theorem Machine.run_eq_unlogged (machine : Machine σ μ)
    (invocations : List (Invocation σ μ)) :
    machine.run invocations =
      (machine.logged.run (invocations.map Invocation.logging)).unlogged := by
  let linked : μ → Logged μ → Prop := fun memory noted => noted.1 = memory
  let simulated (invocation : Invocation σ μ) : SimulatedInvocation linked σ :=
    ⟨invocation, invocation.install.memory.logging,
      invocation.install.memory.simulated_logging _⟩
  have begins : Machine.Paired linked machine machine.logged :=
    .intro machine (machine.memory, []) rfl
  have paired := Machine.paired_run (invocations.map simulated) begins
  rw [List.map_map, List.map_map] at paired
  have own :
      invocations.map (SimulatedInvocation.invocation ∘ simulated) = invocations :=
    List.map_id' invocations
  rw [own] at paired
  change
    Machine.Paired linked (machine.run invocations)
      (machine.logged.run (invocations.map Invocation.logging)) at paired
  generalize machine.run invocations = ran at paired ⊢
  generalize machine.logged.run (invocations.map Invocation.logging) = noted at paired ⊢
  cases paired with
  | intro memory same =>
      unfold Machine.unlogged
      show ran = (ran.swapMemory memory).swapMemory memory.1
      rw [same]
      rfl

/-- What an invocation adds to the log. -/
theorem Invocation.logging_asks (invocation : Invocation σ μ)
    (machine : Machine σ (Logged μ)) :
    ∃ asked,
      FollowsProtocol invocation.ctx asked ∧
        (machine.step invocation.logging).memory.2 = machine.memory.2 ++ asked := by
  cases invocation.logging.stage machine with
  | unstarted _ _ kept =>
      have memory : (machine.step invocation.logging).memory = machine.memory :=
        congrArg Prod.fst kept
      exact ⟨[], .silent, by rw [memory, List.append_nil]⟩
  | turned prepared ready _ isReady kept _ memory _ =>
      have before : ready.memory = machine.memory := congrArg Prod.fst kept
      rw [memory, ← before]
      rcases isReady.memory with logging | null
      · have writes : prepared.services.memory.Writes fun request => [request] := by
          rw [logging]
          exact invocation.install.memory.writes_logging
        obtain ⟨asked, grown, requests, follows, rfl⟩ :=
          AgentLoop.turn_asks writes invocation.ctx invocation.install.host
            invocation.single invocation.orchestrator ready.world
        rw [List.flatMap_singleton'] at grown
        exact ⟨requests, follows, grown⟩
      · have writes : prepared.services.memory.Writes fun _ => [] := by
          rw [null]
          exact writes_null
        obtain ⟨asked, grown, requests, _, rfl⟩ :=
          AgentLoop.turn_asks writes invocation.ctx invocation.install.host
            invocation.single invocation.orchestrator ready.world
        have empty : requests.flatMap (fun _ => ([] : List StoreRequest)) = [] :=
          List.flatMap_eq_nil_iff.mpr fun _ _ => rfl
        rw [empty] at grown
        exact ⟨[], .silent, grown⟩

/-- Over every sequence of invocations, whatever their stores, keeping a log of what
the stores are asked changes nothing, and what the log shows is one stretch for each
invocation: nothing, one recall, or one recall and then one remember. -/
theorem cli_memory_protocol (machine : Machine σ μ)
    (invocations : List (Invocation σ μ)) :
    let noted := machine.logged.run (invocations.map Invocation.logging)
    machine.run invocations = noted.unlogged ∧
      ∃ stretches,
        List.Forall₂
            (fun (invocation : Invocation σ μ) (asked : List StoreRequest) =>
              FollowsProtocol invocation.ctx asked)
            invocations stretches ∧
          noted.memory.2 = stretches.flatten := by
  intro noted
  refine ⟨machine.run_eq_unlogged invocations, ?_⟩
  have grows :
      ∀ (rest : List (Invocation σ μ)) (before : Machine σ (Logged μ)),
        ∃ stretches,
          List.Forall₂
              (fun (invocation : Invocation σ μ) (asked : List StoreRequest) =>
                FollowsProtocol invocation.ctx asked)
              rest stretches ∧
            (before.run (rest.map Invocation.logging)).memory.2 =
              before.memory.2 ++ stretches.flatten := by
    intro rest
    induction rest with
    | nil => exact fun _ => ⟨[], .nil, (List.append_nil _).symm⟩
    | cons invocation rest inductionHypothesis =>
        intro before
        obtain ⟨asked, follows, first⟩ := invocation.logging_asks before
        obtain ⟨stretches, later, grown⟩ :=
          inductionHypothesis (before.step invocation.logging)
        refine ⟨asked :: stretches, .cons follows later, ?_⟩
        rw [List.map_cons, Machine.run_cons, grown, first, List.append_assoc]
        rfl
  exact grows invocations machine.logged

end FableHarness
