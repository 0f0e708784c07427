import FableHarness.Cli.Run
import FableHarness.Flows.MemorySimulation

/-!
# Invocations over two memories

If the store behind every invocation is simulated by another one, the invocations
do the same to the sessions, the outside world and the list of turns, and leave
related memories.
-/

namespace FableHarness

open ExceptionState

variable {σ μ ν α : Type}

/-- The invocation over another memory, which may have a state of its own. -/
def Installation.swapMemory (install : Installation σ μ) (memory : MemoryStore ν) :
    Installation σ ν where
  host := install.host
  settings := install.settings
  config := install.config
  setup := install.setup
  connectMemory := install.connectMemory
  memory := memory
  closeMemory := install.closeMemory
  connectSessions := install.connectSessions
  sessions := install.sessions
  closeSessions := install.closeSessions
  tools := install.tools
  buildRouter := install.buildRouter
  models := install.models
  server := install.server
  gatherOrder := install.gatherOrder

def Invocation.swapMemory (invocation : Invocation σ μ) (memory : MemoryStore ν) :
    Invocation σ ν where
  install := invocation.install.swapMemory memory
  request := invocation.request
  useTestModel := invocation.useTestModel
  sessionId := invocation.sessionId

/-- The machine with another memory. -/
def Machine.swapMemory (machine : Machine σ μ) (memory : ν) : Machine σ ν where
  env := machine.env
  memory := memory
  clock := machine.clock
  tables := machine.tables
  turns := machine.turns

/-- The machines differ in their memories only, and these are related. -/
inductive Machine.Paired (linked : μ → ν → Prop) : Machine σ μ → Machine σ ν → Prop
  | intro (machine : Machine σ μ) (memory : ν) (related : linked machine.memory memory) :
      Paired linked machine (machine.swapMemory memory)

variable {linked : μ → ν → Prop}

namespace Cli

abbrev Lockstep (linked : μ → ν → Prop) {β : Type} (agree : α → β → Prop)
    (program : Cli σ μ α) (other : Cli σ ν β) : Prop :=
  ExceptionState.Lockstep (Machine.Paired linked) agree program other

theorem lockstep_outside (program : Py σ α) :
    Lockstep linked Eq (outside program : Cli σ μ α) (outside program) := by
  apply lockstep_focus _ (lockstep_self program)
  · rintro machine _ ⟨memory, related⟩
    rfl
  · rintro machine _ ⟨memory, related⟩ env _ rfl
    exact .intro { machine with env } memory related

theorem lockstep_onTables (program : Py SessionTables α) :
    Lockstep linked Eq (onTables program : Cli σ μ α) (onTables program) := by
  apply lockstep_focus _ (lockstep_self program)
  · rintro machine _ ⟨memory, related⟩
    rfl
  · rintro machine _ ⟨memory, related⟩ tables _ rfl
    exact .intro { machine with tables } memory related

theorem lockstep_monotonic (host : Host σ) :
    Lockstep linked Eq (monotonic host : Cli σ μ ℚ) (monotonic host) := by
  have reads : Turn.Lockstep linked (Turn.monotonic host : Turn σ μ ℚ) _ :=
    Turn.lockstep_monotonic host
  apply lockstep_focus _ reads
  · rintro machine _ ⟨memory, related⟩
    exact .intro machine.world memory related
  · rintro machine _ ⟨memory, related⟩ world _ ⟨held, worldRelated⟩
    exact .intro (machine.withWorld world) held worldRelated

theorem lockstep_raiseError (outcome : Except PyExc α) :
    Lockstep linked Eq (raiseError outcome : Cli σ μ α) (raiseError outcome) := by
  cases outcome with
  | ok value => exact lockstep_pure rfl
  | error exc => exact lockstep_throw _

theorem run_runTurn (loop : AgentLoop σ μ) (ctx : RunContext)
    (services : HarnessServices σ μ) (machine : Machine σ μ) :
    let ran := loop.turn ctx services machine.world
    (runTurn loop ctx services).run machine =
      resultOf (answer ran) (machine.afterTurn ctx.sessionId ran) := by
  intro ran
  have same :
      ∀ turned, loop.turn ctx services machine.world = turned →
        (runTurn loop ctx services).run machine =
          resultOf (answer turned) (machine.afterTurn ctx.sessionId turned) := by
    intro turned turnIs
    unfold runTurn
    simp only [EStateM.run, turnIs]
    cases turned <;> rfl
  exact same ran rfl

/-- The turns are in lockstep, and they are entered alike. -/
theorem lockstep_runTurn {loop : AgentLoop σ μ} {other : AgentLoop σ ν}
    {ctx : RunContext} {services : HarnessServices σ μ}
    {otherServices : HarnessServices σ ν}
    (turns :
      Turn.Lockstep linked (loop.runTurn ctx services)
        (other.runTurn ctx otherServices)) :
    Lockstep linked Eq (runTurn loop ctx services) (runTurn other ctx otherServices) := by
  rintro machine _ ⟨memory, related⟩
  have alike := turns _ _ (.intro machine.world.untraced memory related)
  have entered :
      ∀ {ran : EStateM.Result TurnExc (World σ μ) FlowResult}
        {otherRan : EStateM.Result TurnExc (World σ ν) FlowResult},
        Alike (World.Paired linked) Eq ran otherRan →
          Machine.Paired linked (machine.afterTurn ctx.sessionId ran)
            ((machine.swapMemory memory).afterTurn ctx.sessionId otherRan) := by
    intro ran otherRan alike
    cases alike with
    | ok values states =>
        cases values
        cases states with
        | intro held worldRelated => exact .intro _ held worldRelated
    | error states =>
        cases states with
        | intro held worldRelated => exact .intro _ held worldRelated
  rw [run_runTurn, run_runTurn]
  show Alike _ _ _
    (resultOf (answer ((other.runTurn ctx otherServices).run
      (machine.world.untraced.swapMemory memory))) _)
  rw [alike.answer_eq]
  exact alike_resultOf (entered alike)

end Cli

/-! ## One invocation -/

/-- The same services over memories of which one simulates the other. -/
inductive HarnessServices.Paired (linked : μ → ν → Prop) (scope : String) :
    HarnessServices σ μ → HarnessServices σ ν → Prop
  | intro (services : HarnessServices σ μ) (memory : MemoryStore ν)
      (simulated : services.memory.Simulated linked scope memory) :
      Paired linked scope services (services.swapMemory memory)

namespace Invocation

open Cli

/-- What connecting the memory yields on both sides. -/
inductive Connected (linked : μ → ν → Prop) (scope : String) :
    MemoryStore μ × Option (Py σ Unit) → MemoryStore ν × Option (Py σ Unit) → Prop
  | intro {store : MemoryStore μ} {other : MemoryStore ν}
      (simulated : store.Simulated linked scope other) (close : Option (Py σ Unit)) :
      Connected linked scope (store, close) (other, close)

/-- What the first half of `_run` leaves on both sides. -/
inductive Prepared.Paired (linked : μ → ν → Prop) (scope : String) :
    Prepared σ μ → Prepared σ ν → Prop
  | intro {services : HarnessServices σ μ} {otherServices : HarnessServices σ ν}
      (served : services.Paired linked scope otherServices)
      (closeMemory : Option (Py σ Unit)) (sessions : Option PostgresSessionStore) :
      Paired linked scope ⟨services, closeMemory, sessions⟩
        ⟨otherServices, closeMemory, sessions⟩

variable {scope : String} {other : MemoryStore ν}

theorem lockstep_connectMemory {install : Installation σ μ}
    (simulated : install.memory.Simulated linked scope other) :
    Lockstep linked (Connected linked scope) (connectMemory install)
      (connectMemory (install.swapMemory other)) := by
  apply lockstep_seq (lockstep_attempt (lockstep_outside _))
  intro outcome
  cases outcome with
  | ok connected => exact lockstep_pure (.intro simulated _)
  | error exc => exact lockstep_pure (.intro (simulated_null linked scope) none)

theorem lockstep_connectSessions (install : Installation σ μ)
    (other : MemoryStore ν) :
    Lockstep linked Eq (connectSessions install)
      (connectSessions (install.swapMemory other)) := by
  apply lockstep_seq (lockstep_attempt (lockstep_outside _))
  intro outcome
  cases outcome with
  | ok connected => exact lockstep_pure rfl
  | error exc => exact lockstep_pure rfl

theorem lockstep_buildServices (invocation : Invocation σ μ) (other : MemoryStore ν)
    {memory : MemoryStore μ} {otherMemory : MemoryStore ν}
    (simulated : memory.Simulated linked scope otherMemory) :
    Lockstep linked (HarnessServices.Paired linked scope)
      (invocation.buildServices memory)
      ((invocation.swapMemory other).buildServices otherMemory) := by
  apply lockstep_seq (lockstep_raiseError _)
  intro budget
  apply lockstep_seq (lockstep_monotonic _)
  intro start
  apply lockstep_seq (lockstep_outside _)
  intro router
  apply lockstep_seq (lockstep_raiseError _)
  intro matrix
  exact lockstep_pure (.intro _ otherMemory simulated)

section Simulated

variable {invocation : Invocation σ μ}
  (simulated : invocation.install.memory.Simulated linked scope other)
include simulated

theorem lockstep_prepare :
    Lockstep linked (Prepared.Paired linked scope) invocation.prepare
      (invocation.swapMemory other).prepare := by
  apply lockstep_seq (lockstep_outside _)
  intro _
  apply lockstep_bind (lockstep_connectMemory simulated)
  rintro _ _ ⟨connected, close⟩
  apply lockstep_seq (lockstep_connectSessions invocation.install other)
  intro sessions
  apply lockstep_seq (lockstep_onTables _)
  intro _
  apply lockstep_bind (invocation.lockstep_buildServices other connected)
  intro services otherServices served
  exact lockstep_pure (.intro served close sessions)

omit simulated

theorem lockstep_settle (invocation : Invocation σ μ) (other : MemoryStore ν)
    {prepared : Prepared σ μ} {otherPrepared : Prepared σ ν}
    (paired : prepared.Paired linked scope otherPrepared)
    (outcome : Except TurnExc FlowResult) :
    Lockstep linked Eq (invocation.settle prepared outcome)
      ((invocation.swapMemory other).settle otherPrepared outcome) := by
  cases paired with
  | @intro services otherServices served closeMemory sessions =>
      have closes :
          Lockstep linked Eq (closing ⟨services, closeMemory, sessions⟩)
            (closing ⟨otherServices, closeMemory, sessions⟩) := by
        cases closeMemory with
        | none => exact lockstep_pure rfl
        | some close => exact lockstep_outside close
      apply lockstep_seq closes
      intro _
      cases outcome with
      | error exc => exact lockstep_throw exc
      | ok result =>
          apply lockstep_seq (lockstep_onTables _)
          intro _
          cases sessions with
          | none => exact lockstep_pure rfl
          | some store => exact lockstep_outside _

end Simulated

theorem lockstep_run {invocation : Invocation σ μ}
    (simulated :
      invocation.install.memory.Simulated linked invocation.ctx.userScope other) :
    Lockstep linked Eq invocation.run (invocation.swapMemory other).run := by
  apply lockstep_bind (lockstep_prepare simulated)
  rintro prepared otherPrepared paired
  have turns :
      Lockstep linked Eq
        (runTurn invocation.loop invocation.ctx prepared.services)
        (runTurn (invocation.swapMemory other).loop invocation.ctx
          otherPrepared.services) := by
    cases paired with
    | intro served closeMemory sessions =>
        cases served with
        | intro memory serves =>
            exact
              lockstep_runTurn
                (AgentLoop.lockstep_runTurn invocation.install.host serves
                  invocation.single invocation.orchestrator)
  apply lockstep_seq (lockstep_attempt turns)
  exact fun outcome => invocation.lockstep_settle other paired outcome

end Invocation

/-! ## Many invocations -/

/-- An invocation, and the memory that simulates the one it uses. -/
structure SimulatedInvocation (linked : μ → ν → Prop) (σ : Type) where
  invocation : Invocation σ μ
  other : MemoryStore ν
  simulated :
    invocation.install.memory.Simulated linked invocation.ctx.userScope other

/-- The invocations do the same over the memories that simulate theirs. -/
theorem Machine.paired_run (invocations : List (SimulatedInvocation linked σ))
    {machine : Machine σ μ} {shadow : Machine σ ν}
    (paired : Machine.Paired linked machine shadow) :
    Machine.Paired linked
      (machine.run (invocations.map SimulatedInvocation.invocation))
      (shadow.run
        (invocations.map fun each => each.invocation.swapMemory each.other)) := by
  induction invocations generalizing machine shadow with
  | nil => exact paired
  | cons first rest inductionHypothesis =>
      have alike := Invocation.lockstep_run first.simulated machine shadow paired
      exact inductionHypothesis alike.states

end FableHarness
