import FableHarness.Cli.Preparation
import FableHarness.Memory.MemoryDb

/-!
# Sessions over one memory

What an invocation shows its agents comes out of a store that all invocations
share, under a scope that does not depend on the session.  Where all invocations
belong to one session this is harmless.
-/

namespace FableHarness

open ExceptionState LabelledRun

variable {σ : Type}

/-! ## What the sessions should keep apart -/

/-- Every memory content that a turn places in a prompt was remembered by an
earlier turn of the same session. -/
def SessionsApart (turns : List TurnEntry) : Prop :=
  ∀ earlier entry later, turns = earlier ++ entry :: later →
    ∀ content ∈ shownIn entry.trace,
      ∃ source ∈ earlier,
        source.sessionId = entry.sessionId ∧ content ∈ rememberedIn source.trace

theorem sessionsApart_nil : SessionsApart [] := by
  intro earlier entry later equality
  cases earlier <;> cases equality

theorem sessionsApart_concat {turns : List TurnEntry} {entry : TurnEntry}
    (apart : SessionsApart turns)
    (sourced :
      ∀ content ∈ shownIn entry.trace,
        ∃ source ∈ turns,
          source.sessionId = entry.sessionId ∧
            content ∈ rememberedIn source.trace) :
    SessionsApart (turns ++ [entry]) := by
  intro earlier taken later equality
  rcases List.eq_nil_or_concat' later with rfl | ⟨middle, last, rfl⟩
  · obtain ⟨rfl, single⟩ := List.append_inj' equality rfl
    cases single
    exact sourced
  · rw [← List.cons_append, ← List.append_assoc] at equality
    obtain ⟨rfl, _⟩ := List.append_inj' equality rfl
    exact apart earlier taken middle rfl

/-- An invocation with memory on over this store. -/
structure UsesStore (store : PgVectorMemoryStore)
    (invocation : Invocation σ MemoryDb) : Prop where
  memory : invocation.install.memory = store.memoryStore
  memoryOn : invocation.install.settings.memoryOn = true

/-- Invocations with these session ids, one after the other over one store, keep
the sessions apart, whatever the outside world does. -/
def KeepsSessionsApart (sessionIds : List String) : Prop :=
  ∀ (σ : Type) (store : PgVectorMemoryStore) (env : σ)
    (readings : Nat → Timestamp) (clock : ℚ)
    (invocations : List (Invocation σ MemoryDb)),
    invocations.map Invocation.sessionId = sessionIds →
    (∀ invocation ∈ invocations, UsesStore store invocation) →
    SessionsApart
      ((Machine.start env { readings } clock).run invocations).turns

/-! ## One session -/

/-- All turns belong to one session, and what the memory holds was remembered in
them. -/
structure OneSession (sessionId : String) (machine : Machine σ MemoryDb) :
    Prop where
  session : ∀ entry ∈ machine.turns, entry.sessionId = sessionId
  sourced :
    ∀ content, machine.memory.Holds content →
      ∃ entry ∈ machine.turns, content ∈ rememberedIn entry.trace
  apart : SessionsApart machine.turns

theorem oneSession_start (sessionId : String) (env : σ)
    (readings : Nat → Timestamp) (clock : ℚ) :
    OneSession sessionId (Machine.start env { readings } clock) where
  session entry member := by cases member
  sourced content held := by
    obtain ⟨row, member, _⟩ := held
    cases member
  apart := sessionsApart_nil

theorem Invocation.Ready.retains {store : PgVectorMemoryStore}
    {invocation : Invocation σ MemoryDb} {prepared : Invocation.Prepared σ MemoryDb}
    {ready : Machine σ MemoryDb} (isReady : invocation.Ready prepared ready)
    (uses : UsesStore store invocation) :
    Retains prepared.services.memory MemoryDb.Holds := by
  rcases isReady.memory with same | same
  · rw [same, uses.memory]
    exact store.retains_memoryStore
  · rw [same]
    exact retains_nullMemoryStore

theorem oneSession_step {store : PgVectorMemoryStore} {sessionId : String}
    (machine : Machine σ MemoryDb) (invocation : Invocation σ MemoryDb)
    (permitted :
      UsesStore store invocation ∧ invocation.sessionId = sessionId)
    (one : OneSession sessionId machine) :
    OneSession sessionId (machine.step invocation) := by
  obtain ⟨uses, sameSession⟩ := permitted
  cases invocation.stage machine with
  | unstarted unprepared turns kept =>
      have memory : (machine.step invocation).memory = machine.memory :=
        congrArg Prod.fst kept
      constructor
      · rw [turns]
        exact one.session
      · rw [turns, memory]
        exact one.sourced
      · rw [turns]
        exact one.apart
  | turned prepared ready prepares isReady kept turns memory settles =>
      have before : ready.memory = machine.memory := congrArg Prod.fst kept
      have turnSourced :
          Sourced MemoryDb.Holds ready.world
            (finalState (invocation.turn prepared ready)).trace
            (finalState (invocation.turn prepared ready)) :=
        AgentLoop.turn_sourced invocation.install.host (isReady.retains uses)
          invocation.single invocation.orchestrator invocation.ctx ready.world
      have shown :
          ∀ content,
            content ∈ shownIn (finalState (invocation.turn prepared ready)).trace →
              machine.memory.Holds content := by
        intro content member
        rw [← before]
        exact turnSourced.shown content member
      constructor
      · intro entry member
        rw [turns, List.mem_append, List.mem_singleton] at member
        rcases member with old | rfl
        · exact one.session entry old
        · exact sameSession
      · intro content held
        rw [memory] at held
        rw [turns]
        rcases turnSourced.stored content held with earlier | remembered
        · have heldBefore : machine.memory.Holds content := by
            rw [← before]
            exact earlier
          obtain ⟨entry, member, source⟩ := one.sourced content heldBefore
          exact ⟨entry, List.mem_append_left _ member, source⟩
        · exact ⟨_, List.mem_append_right _ List.mem_cons_self, remembered⟩
      · rw [turns]
        apply sessionsApart_concat one.apart
        intro content member
        obtain ⟨source, present, remembered⟩ :=
          one.sourced content (shown content member)
        exact
          ⟨source, present, (one.session source present).trans sameSession.symm,
            remembered⟩

/-- Invocations of one session keep the sessions apart. -/
theorem keepsSessionsApart_of_one {sessionIds : List String}
    (one : ∀ left ∈ sessionIds, ∀ right ∈ sessionIds, left = right) :
    KeepsSessionsApart sessionIds := by
  intro σ store env readings clock invocations ids uses
  cases sessionIds with
  | nil =>
      rw [List.map_eq_nil_iff.mp ids]
      exact sessionsApart_nil
  | cons sessionId rest =>
      have permitted :
          ∀ invocation ∈ invocations, ∀ _ : Machine σ MemoryDb,
            UsesStore store invocation ∧ invocation.sessionId = sessionId := by
        intro invocation member _
        refine ⟨uses invocation member, ?_⟩
        apply one
        · rw [← ids]
          exact List.mem_map_of_mem member
        · exact List.mem_cons_self
      have reached :=
        run_invariant_of_permitted oneSession_step
          (permitted_of_forall permitted (Machine.start env { readings } clock))
          (oneSession_start sessionId env readings clock)
      exact reached.apart

end FableHarness
