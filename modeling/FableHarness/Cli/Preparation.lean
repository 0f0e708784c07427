import FableHarness.Cli.Run

/-!
# The ends of an invocation

Nothing before the turn and nothing in the `finally` clause runs a turn,
touches the memory or records a run; of the tables, only the session is ensured.
-/

namespace FableHarness

open ExceptionState EventLog

variable {σ μ α : Type}

/-- No turn was run, and a part of the machine is as before. -/
structure Quiet {τ : Type} (part : Machine σ μ → τ) (before : Machine σ μ)
    (entries : List TurnEntry) (after : Machine σ μ) : Prop where
  noTurn : entries = []
  kept : part after = part before

instance {τ : Type} (part : Machine σ μ → τ) : Composes (Quiet part) where
  nil _ := ⟨rfl, rfl⟩
  append first second :=
    ⟨by rw [first.noTurn, second.noTurn]; rfl, second.kept.trans first.kept⟩

/-- Everything that invocations share besides the outside world. -/
def Machine.stores (machine : Machine σ μ) : μ × SessionTables :=
  (machine.memory, machine.tables)

/-- The part of the stores that only a turn and its record change. -/
def Machine.history (machine : Machine σ μ) : μ × List RunRecord :=
  (machine.memory, machine.tables.runRecords)

namespace Cli

/-- The program runs no turn and leaves a part of the machine alone. -/
abbrev Keeps {τ : Type} (part : Machine σ μ → τ) (program : Cli σ μ α) : Prop :=
  EventLog.Confined Machine.turns (Quiet part) (fun _ => True) program

theorem Keeps.history {program : Cli σ μ α}
    (keeps : Keeps Machine.stores program) : Keeps Machine.history program := by
  refine keeps.mono ?_ fun _ => id
  intro before entries after quiet
  refine ⟨quiet.noTurn, ?_⟩
  exact congrArg (fun stores => (stores.1, stores.2.runRecords)) quiet.kept

theorem Keeps.memory {program : Cli σ μ α}
    (keeps : Keeps Machine.stores program) : Keeps Machine.memory program := by
  refine keeps.mono ?_ fun _ => id
  exact fun before entries after quiet =>
    ⟨quiet.noTurn, congrArg Prod.fst quiet.kept⟩

theorem run_outside (program : Py σ α) (machine : Machine σ μ) :
    (outside program : Cli σ μ α).run machine =
      match program.run machine.env with
      | .ok value env => .ok value { machine with env }
      | .error exc env => .error (.outside exc) { machine with env } := by
  rw [outside, run_focus]
  cases program.run machine.env <;> rfl

theorem keeps_outside (program : Py σ α) :
    Keeps Machine.stores (outside program : Cli σ μ α) := by
  apply confined_of_silent
  · intro machine
    rw [run_outside]
    cases program.run machine.env <;> rfl
  · intro machine
    rw [run_outside]
    cases program.run machine.env <;> exact ⟨rfl, rfl⟩
  · exact fun _ _ _ => trivial

theorem keeps_monotonic (host : Host σ) :
    Keeps Machine.stores (monotonic host : Cli σ μ ℚ) :=
  confined_of_silent (fun _ => rfl) (fun _ => ⟨rfl, rfl⟩)
    fun _ _ _ => trivial

theorem keeps_raiseError (outcome : Except PyExc α) :
    Keeps Machine.stores (raiseError outcome : Cli σ μ α) := by
  cases outcome with
  | ok value => exact confined_pure value
  | error exc => exact confined_throw trivial

theorem keeps_connectMemory (install : Installation σ μ) :
    Keeps Machine.stores (connectMemory install) := by
  apply confined_attempt_bind (keeps_outside _)
  intro outcome _
  cases outcome with
  | ok connected => exact confined_pure _
  | error exc => exact confined_pure _

theorem keeps_connectSessions (install : Installation σ μ) :
    Keeps Machine.stores (connectSessions install) := by
  apply confined_attempt_bind (keeps_outside _)
  intro outcome _
  cases outcome with
  | ok connected => exact confined_pure _
  | error exc => exact confined_pure _

/-- The memory in use is the installation's or the null store. -/
theorem run_connectMemory (install : Installation σ μ) (machine : Machine σ μ) :
    ∃ memory close env,
      (connectMemory install).run machine =
          .ok (memory, close) { machine with env } ∧
        (memory = install.memory ∨ memory = nullMemoryStore μ) := by
  unfold connectMemory
  rw [EStateM.run_bind, run_attempt, run_outside]
  cases install.connectMemory.run machine.env with
  | ok connected env => exact ⟨_, _, env, rfl, Or.inl rfl⟩
  | error exc env => exact ⟨_, _, env, rfl, Or.inr rfl⟩

/-- The session store is the installation's unless connecting it raised. -/
theorem run_connectSessions (install : Installation σ μ)
    (machine : Machine σ μ) :
    ∃ sessions env,
      (connectSessions install).run machine = .ok sessions { machine with env } ∧
        (sessions = some install.sessions ∨
          sessions = none ∧
            ∃ exc, install.connectSessions.run machine.env = .error exc env) := by
  unfold connectSessions
  rw [EStateM.run_bind, run_attempt, run_outside]
  cases install.connectSessions.run machine.env with
  | ok connected env => exact ⟨_, env, rfl, Or.inl rfl⟩
  | error exc env => exact ⟨_, env, rfl, Or.inr ⟨rfl, exc, rfl⟩⟩

end Cli

namespace Invocation

open Cli

theorem keeps_buildServices (invocation : Invocation σ μ)
    (memory : MemoryStore μ) :
    Keeps Machine.stores (invocation.buildServices memory) := by
  apply confined_bind (keeps_raiseError _)
  intro budget
  apply confined_bind (keeps_monotonic _)
  intro start
  apply confined_bind (keeps_outside _)
  intro router
  apply confined_bind (keeps_raiseError _)
  exact fun matrix => confined_pure _

theorem keeps_closing (prepared : Prepared σ μ) :
    Keeps Machine.stores (closing prepared) := by
  unfold closing
  cases prepared.closeMemory with
  | some close => exact keeps_outside close
  | none => exact confined_pure _

/-- The services are built around the given memory. -/
theorem memory_buildServices {invocation : Invocation σ μ}
    {memory : MemoryStore μ} {before after : Machine σ μ}
    {services : HarnessServices σ μ}
    (built : (invocation.buildServices memory).run before = .ok services after) :
    services.memory = memory := by
  unfold buildServices at built
  obtain ⟨budget, _, _, built⟩ := run_bind_eq_ok.mp built
  obtain ⟨start, _, _, built⟩ := run_bind_eq_ok.mp built
  obtain ⟨router, _, _, built⟩ := run_bind_eq_ok.mp built
  obtain ⟨matrix, _, _, built⟩ := run_bind_eq_ok.mp built
  cases built
  rfl

/-- The database of the sessions can be connected. -/
def SessionsReachable (invocation : Invocation σ μ) : Prop :=
  ∀ env exc after,
    invocation.install.connectSessions.run env ≠ .error exc after

/-- What the turn of an invocation finds. -/
structure Ready (invocation : Invocation σ μ) (prepared : Prepared σ μ)
    (machine : Machine σ μ) : Prop where
  memory :
    prepared.services.memory = invocation.install.memory ∨
      prepared.services.memory = nullMemoryStore μ
  sessions :
    ∀ store, prepared.sessions = some store →
      store = invocation.install.sessions ∧
        invocation.sessionId ∈ machine.tables.sessions.keys
  connected : invocation.SessionsReachable → prepared.sessions ≠ none

/-- Ensuring a session records no run; afterwards a connected store knows the
session. -/
theorem ensureSession_ends (sessions : Option PostgresSessionStore)
    (sessionId userScope orgScope : String) (before : Machine σ μ) :
    Ends Machine.turns
      (onTables
        ((sessionStoreOf sessions).ensureSession sessionId userScope orgScope) :
        Cli σ μ Unit)
      before
      fun outcome entries after =>
        Quiet Machine.history before entries after ∧
          (outcome = .ok () → sessions ≠ none →
            sessionId ∈ after.tables.sessions.keys) := by
  cases sessions with
  | none =>
      refine ends_of_ok rfl (List.append_nil _).symm ⟨⟨rfl, rfl⟩, ?_⟩
      exact fun _ connected => absurd rfl connected
  | some store =>
      cases run :
          (store.ensureSession sessionId userScope orgScope).run before.tables with
      | ok done tables =>
          have ensured := PostgresSessionStore.ensureSession_eq_ok run
          have whole :
              (onTables (store.ensureSession sessionId userScope orgScope) :
                Cli σ μ Unit).run before = .ok () { before with tables } := by
            rw [onTables, run_focus, run]
          refine ends_of_ok whole (List.append_nil _).symm ?_
          have history :
              Machine.history { before with tables } = before.history := by
            rw [Machine.history, ensured.2, Machine.history]
          exact ⟨⟨rfl, history⟩, fun _ _ => ensured.1⟩
      | error exc tables =>
          have same := PostgresSessionStore.ensureSession_eq_error run
          have whole :
              (onTables (store.ensureSession sessionId userScope orgScope) :
                Cli σ μ Unit).run before =
                .error (.outside exc) { before with tables } := by
            rw [onTables, run_focus, run]
          refine ends_of_error whole (List.append_nil _).symm ?_
          rw [same]
          refine ⟨⟨rfl, rfl⟩, ?_⟩
          intro equal
          cases equal

theorem keeps_prepare (invocation : Invocation σ μ) :
    Keeps Machine.history invocation.prepare := by
  apply confined_bind (keeps_outside _).history
  intro _
  apply confined_bind (keeps_connectMemory _).history
  intro (memory, closeMemory)
  apply confined_bind (keeps_connectSessions _).history
  intro sessions
  apply confined_bind fun before => ?ensured
  case ensured =>
    refine (ensureSession_ends sessions _ _ _ before).mono ?_
    exact fun _ _ _ ensured => ⟨ensured.1, fun _ _ => trivial⟩
  intro _
  apply confined_bind (invocation.keeps_buildServices memory).history
  exact fun services => confined_pure _

theorem ready_of_prepare {invocation : Invocation σ μ}
    {prepared : Prepared σ μ} {before after : Machine σ μ}
    (run : invocation.prepare.run before = .ok prepared after) :
    invocation.Ready prepared after := by
  unfold prepare at run
  obtain ⟨_, started, _, run⟩ := run_bind_eq_ok.mp run
  obtain ⟨⟨memory, close⟩, remembering, connected, run⟩ := run_bind_eq_ok.mp run
  obtain ⟨sessions, connecting, opened, run⟩ := run_bind_eq_ok.mp run
  obtain ⟨_, ensuring, ensured, run⟩ := run_bind_eq_ok.mp run
  obtain ⟨services, _, built, run⟩ := run_bind_eq_ok.mp run
  cases run
  obtain ⟨_, _, env, connectedTo, memoryIs⟩ :=
    run_connectMemory invocation.install started
  cases connected.symm.trans connectedTo
  obtain ⟨_, openedEnv, openedTo, sessionsIs⟩ :=
    run_connectSessions invocation.install { started with env }
  cases opened.symm.trans openedTo
  let opening : Machine σ μ := { started with env := openedEnv }
  have untouched : after.tables = ensuring.tables := by
    obtain ⟨_, _, kept⟩ := (invocation.keeps_buildServices memory).of_ok built
    exact congrArg Prod.snd kept.kept
  have known :
      sessions ≠ none → invocation.sessionId ∈ ensuring.tables.sessions.keys := by
    obtain ⟨_, _, _, known⟩ :=
      ensureSession_ends sessions invocation.ctx.sessionId
        invocation.ctx.userScope invocation.ctx.orgScope opening
    rw [ensured] at known
    exact known rfl
  constructor
  · rw [memory_buildServices built]
    exact memoryIs
  · intro store present
    rcases sessionsIs with connected | ⟨unconnected, _⟩
    · refine ⟨Option.some.inj (present.symm.trans connected), ?_⟩
      rw [untouched]
      exact known (by rw [connected]; exact Option.some_ne_none _)
    · exact absurd (present.symm.trans unconnected) (Option.some_ne_none _)
  · intro reachable unconnected
    rcases sessionsIs with connected | ⟨_, exc, failed⟩
    · exact absurd (connected.symm.trans unconnected) (Option.some_ne_none _)
    · exact reachable _ exc _ failed

/-! ## From the turn on -/

/-- The turn of an invocation, as it finds the machine. -/
def turn (invocation : Invocation σ μ) (prepared : Prepared σ μ)
    (ready : Machine σ μ) : EStateM.Result TurnExc (World σ μ) FlowResult :=
  invocation.loop.turn invocation.ctx prepared.services ready.world

/-- The machine after the turn of an invocation. -/
def turned (invocation : Invocation σ μ) (prepared : Prepared σ μ)
    (ready : Machine σ μ) : Machine σ μ :=
  ready.afterTurn invocation.sessionId (invocation.turn prepared ready)

theorem attempt_runTurn (invocation : Invocation σ μ)
    (prepared : Prepared σ μ) (ready : Machine σ μ) :
    (attempt (runTurn invocation.loop invocation.ctx prepared.services) :
      Cli σ μ (Except TurnExc FlowResult)).run ready =
      .ok (answer (invocation.turn prepared ready))
        (invocation.turned prepared ready) := by
  have same :
      ∀ ran, invocation.loop.turn invocation.ctx prepared.services ready.world = ran →
        answer
            ((runTurn invocation.loop invocation.ctx prepared.services).run ready) =
          answer ran ∧
        finalState
            ((runTurn invocation.loop invocation.ctx prepared.services).run ready) =
          ready.afterTurn invocation.sessionId ran := by
    intro ran turnIs
    unfold runTurn
    simp only [EStateM.run, turnIs]
    cases ran <;> exact ⟨rfl, rfl⟩
  obtain ⟨sameAnswer, sameState⟩ := same _ rfl
  rw [run_attempt, sameAnswer, sameState]
  rfl

/-- Recording the result changes the tables only. -/
theorem keeps_recordResult (invocation : Invocation σ μ)
    (prepared : Prepared σ μ) (result : FlowResult) :
    Keeps Machine.memory (invocation.recordResult prepared result) := by
  have recording :
      ∀ program : Py SessionTables Unit,
        Keeps Machine.memory (onTables program : Cli σ μ Unit) := by
    intro program
    apply confined_of_silent
    · intro machine
      rw [onTables, run_focus]
      cases program.run machine.tables <;> rfl
    · intro machine
      rw [onTables, run_focus]
      cases program.run machine.tables <;> exact ⟨rfl, rfl⟩
    · exact fun _ _ _ => trivial
  apply confined_bind (recording _)
  intro _
  cases prepared.sessions with
  | none => exact confined_pure _
  | some store => exact (keeps_outside _).memory

theorem keeps_settle (invocation : Invocation σ μ) (prepared : Prepared σ μ)
    (outcome : Except TurnExc FlowResult) :
    Keeps Machine.memory (invocation.settle prepared outcome) := by
  apply confined_bind (keeps_closing prepared).memory
  intro _
  cases outcome with
  | ok result => exact invocation.keeps_recordResult prepared result
  | error exc => exact confined_throw trivial

/-! ## The stages of an invocation -/

/-- How far an invocation got, and what that did to the turns and the memory. -/
inductive Stage (invocation : Invocation σ μ) (before after : Machine σ μ) :
    Prop where
  /-- It did not get to its turn. -/
  | unstarted (unprepared : ∀ prepared ready,
        invocation.prepare.run before ≠ .ok prepared ready)
      (turns : after.turns = before.turns) (kept : after.history = before.history)
  /-- It ran its turn, and this is where it went on from there. -/
  | turned (prepared : Prepared σ μ) (ready : Machine σ μ)
      (prepares : invocation.prepare.run before = .ok prepared ready)
      (isReady : invocation.Ready prepared ready)
      (kept : ready.history = before.history)
      (turns :
        after.turns =
          before.turns ++
            [⟨invocation.sessionId, answer (invocation.turn prepared ready),
              (finalState (invocation.turn prepared ready)).trace⟩])
      (memory :
        after.memory = (finalState (invocation.turn prepared ready)).memory)
      (settles :
        after =
          finalState
            ((invocation.settle prepared
              (answer (invocation.turn prepared ready))).run
              (invocation.turned prepared ready)))

theorem stage (invocation : Invocation σ μ) (machine : Machine σ μ) :
    invocation.Stage machine (machine.step invocation) := by
  unfold Machine.step run
  rw [EStateM.run_bind]
  cases prepares : invocation.prepare.run machine with
  | error exc after =>
      obtain ⟨entries, turns, quiet, _⟩ := invocation.keeps_prepare machine
      rw [prepares] at turns quiet
      rw [quiet.noTurn, List.append_nil] at turns
      refine .unstarted ?_ turns quiet.kept
      intro prepared ready equal
      cases prepares.symm.trans equal
  | ok prepared ready =>
      obtain ⟨entries, turns, quiet⟩ := invocation.keeps_prepare.of_ok prepares
      rw [quiet.noTurn, List.append_nil] at turns
      obtain ⟨rest, settledTurns, settled, _⟩ :=
        invocation.keeps_settle prepared (answer (invocation.turn prepared ready))
          (invocation.turned prepared ready)
      rw [settled.noTurn, List.append_nil] at settledTurns
      simp only [EStateM.run_bind, attempt_runTurn]
      refine
        .turned prepared ready prepares (ready_of_prepare prepares) quiet.kept ?_
          settled.kept rfl
      rw [settledTurns, ← turns]
      rfl

end Invocation

end FableHarness
