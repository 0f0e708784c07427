import Mathlib.Data.List.Forall2
import FableHarness.Cli.Preparation

/-!
# The run ledger

A row is written after the turn, on the normal path only.  The ledger of a
sequence of invocations is complete exactly if every invocation that gets to
its turn also gets to the end of this path.
-/

namespace FableHarness

open ExceptionState EventLog

variable {σ μ : Type}

/-! ## What the ledger should say -/

/-- The row says how the turn ended. -/
def TurnEntry.DescribedBy (entry : TurnEntry) (record : RunRecord) : Prop :=
  ∃ result, entry.outcome = .ok result ∧ record.success = result.success ∧
    record.stopReason = result.stopReason

namespace Machine

def turnsOf (machine : Machine σ μ) (sessionId : String) : List TurnEntry :=
  machine.turns.filter fun entry => entry.sessionId = sessionId

def recordsOf (machine : Machine σ μ) (sessionId : String) : List RunRecord :=
  machine.tables.runRecords.filter fun record => record.sessionId = sessionId

/-- Every session has one row for each of its turns, and the row describes the
turn. -/
def LedgerComplete (machine : Machine σ μ) : Prop :=
  ∀ sessionId,
    List.Forall₂ TurnEntry.DescribedBy (machine.turnsOf sessionId)
      (machine.recordsOf sessionId)

end Machine

namespace Invocation

open Cli

/-! ## The course of one invocation -/

/-- The turn returns this result, the memory store closes, and Postgres takes the
texts of the row. -/
def Writes (invocation : Invocation σ μ) (prepared : Prepared σ μ)
    (ready : Machine σ μ) (result : FlowResult) : Prop :=
  ∃ closed,
    answer (invocation.turn prepared ready) = .ok result ∧
      (closing prepared).run (invocation.turned prepared ready) =
        .ok () closed ∧
      invocation.install.sessions.Accepts (invocation.recordOf result)

end Invocation

/-- The invocation gets to the write of its row, if it gets to its turn. -/
def Recordable (machine : Machine σ μ) (invocation : Invocation σ μ) : Prop :=
  ∀ prepared ready, invocation.prepare.run machine = .ok prepared ready →
    ∃ result, invocation.Writes prepared ready result

namespace Invocation

open Cli

/-- What an invocation does to the turns and the rows. -/
inductive Course (invocation : Invocation σ μ) (before after : Machine σ μ) :
    Prop where
  | unstarted (recordable : Recordable before invocation)
      (turns : after.turns = before.turns)
      (records : after.tables.runRecords = before.tables.runRecords)
  | recorded (recordable : Recordable before invocation) (result : FlowResult)
      (trace : List Interaction)
      (turns :
        after.turns =
          before.turns ++ [⟨invocation.sessionId, .ok result, trace⟩])
      (records :
        after.tables.runRecords =
          before.tables.runRecords ++ [invocation.recordOf result])
  | missed
      (unrecordable :
        invocation.SessionsReachable → ¬ Recordable before invocation)
      (outcome : Except TurnExc FlowResult) (trace : List Interaction)
      (turns :
        after.turns = before.turns ++ [⟨invocation.sessionId, outcome, trace⟩])
      (records : after.tables.runRecords = before.tables.runRecords)

theorem recordResult_of_unconnected {invocation : Invocation σ μ}
    {prepared : Prepared σ μ} {machine : Machine σ μ} (result : FlowResult)
    (unconnected : prepared.sessions = none) :
    finalState ((invocation.recordResult prepared result).run machine) =
      machine := by
  unfold recordResult
  rw [unconnected]
  rfl

/-- The last step of an invocation whose session store is connected. -/
theorem recordResult_cases {invocation : Invocation σ μ}
    {prepared : Prepared σ μ} {machine : Machine σ μ} (result : FlowResult)
    (connected : prepared.sessions = some invocation.install.sessions)
    (known : invocation.sessionId ∈ machine.tables.sessions.keys) :
    let after := finalState ((invocation.recordResult prepared result).run machine)
    invocation.install.sessions.Accepts (invocation.recordOf result) ∧
        after.tables.runRecords =
          machine.tables.runRecords ++ [invocation.recordOf result] ∨
      ¬ invocation.install.sessions.Accepts (invocation.recordOf result) ∧
        after.tables.runRecords = machine.tables.runRecords := by
  have known : (invocation.recordOf result).sessionId ∈
      machine.tables.sessions.keys := known
  unfold recordResult
  rw [connected, EStateM.run_bind, onTables, run_focus]
  simp only [sessionStoreOf, PostgresSessionStore.sessionStore]
  rcases invocation.install.sessions.recordRun_cases _ known with
    ⟨accepts, stored⟩ | ⟨rejects, exc, raised⟩
  · rw [stored]
    obtain ⟨_, _, closed, _⟩ :=
      keeps_outside invocation.install.closeSessions
        { machine with
          tables :=
            { machine.tables with
              runRecords :=
                machine.tables.runRecords ++ [invocation.recordOf result] } }
    have sameTables := congrArg Prod.snd closed.kept
    exact Or.inl ⟨accepts, congrArg SessionTables.runRecords sameTables⟩
  · rw [raised]
    exact Or.inr ⟨rejects, rfl⟩

/-- What `settle` does to the rows. -/
theorem settle_records {invocation : Invocation σ μ}
    {prepared : Prepared σ μ} {ready : Machine σ μ}
    (isReady : invocation.Ready prepared ready) :
    let after :=
      finalState
        ((invocation.settle prepared (answer (invocation.turn prepared ready))).run
          (invocation.turned prepared ready))
    (∃ result, invocation.Writes prepared ready result ∧
        after.tables.runRecords =
          ready.tables.runRecords ++ [invocation.recordOf result]) ∨
      (invocation.SessionsReachable →
          ∀ result, ¬ invocation.Writes prepared ready result) ∧
        after.tables.runRecords = ready.tables.runRecords := by
  obtain ⟨_, _, quiet, _⟩ :=
    keeps_closing prepared (invocation.turned prepared ready)
  have kept := congrArg Prod.snd quiet.kept
  simp only [settle, EStateM.run_bind]
  cases closes : (closing prepared).run (invocation.turned prepared ready) with
  | error exc failed =>
      rw [closes] at kept
      refine Or.inr ⟨?_, congrArg SessionTables.runRecords kept⟩
      intro _ result ⟨_, _, closed, _⟩
      cases closes.symm.trans closed
  | ok done closed =>
      rw [closes] at kept
      cases returns : answer (invocation.turn prepared ready) with
      | error exc =>
          refine Or.inr ⟨?_, congrArg SessionTables.runRecords kept⟩
          intro _ result ⟨_, returned, _⟩
          cases returns.symm.trans returned
      | ok result =>
          simp only
          cases connected : prepared.sessions with
          | none =>
              rw [recordResult_of_unconnected result connected]
              refine Or.inr ⟨?_, congrArg SessionTables.runRecords kept⟩
              exact fun reachable => absurd connected (isReady.connected reachable)
          | some store =>
              obtain ⟨same, known⟩ := isReady.sessions store connected
              rw [same] at connected
              have stillKnown :
                  invocation.sessionId ∈ closed.tables.sessions.keys := by
                rw [show closed.tables = ready.tables from kept]
                exact known
              rcases recordResult_cases result connected stillKnown with
                ⟨accepts, stored⟩ | ⟨rejects, stored⟩
              · refine Or.inl ⟨result, ⟨closed, returns, closes, accepts⟩, ?_⟩
                rw [stored, show closed.tables = ready.tables from kept]
              · refine Or.inr ⟨?_, ?_⟩
                · intro _ other ⟨_, returned, _, accepts⟩
                  cases returns.symm.trans returned
                  exact rejects accepts
                · rw [stored, show closed.tables = ready.tables from kept]

theorem course (invocation : Invocation σ μ) (machine : Machine σ μ) :
    invocation.Course machine (machine.step invocation) := by
  cases invocation.stage machine with
  | unstarted unprepared turns kept =>
      refine .unstarted ?_ turns (congrArg Prod.snd kept)
      exact fun prepared ready prepares => absurd prepares (unprepared _ _)
  | turned prepared ready prepares isReady kept turns memory settles =>
      have records : ready.tables.runRecords = machine.tables.runRecords :=
        congrArg Prod.snd kept
      rcases settle_records isReady with
        ⟨result, writes, appended⟩ | ⟨never, same⟩
      · obtain ⟨_, returned, _⟩ := id writes
        rw [← settles, records] at appended
        rw [returned] at turns
        refine .recorded ?_ result _ turns appended
        intro other middle equal
        cases prepares.symm.trans equal
        exact ⟨result, writes⟩
      · rw [← settles, records] at same
        refine .missed (fun reachable recordable => ?_) _ _ turns same
        obtain ⟨result, writes⟩ := recordable prepared ready prepares
        exact never reachable result writes

end Invocation

/-! ## One session along one invocation -/

namespace Machine

/-- Some turn of the session has no row. -/
def Behind (sessionId : String) (machine : Machine σ μ) : Prop :=
  (machine.recordsOf sessionId).length < (machine.turnsOf sessionId).length

theorem not_complete_of_behind {machine : Machine σ μ} {sessionId : String}
    (behind : machine.Behind sessionId) : ¬ machine.LedgerComplete := by
  intro complete
  have equal := (complete sessionId).length_eq
  unfold Behind at behind
  omega

section Step

variable {before after : Machine σ μ} {sessionId : String}

theorem turnsOf_of_same {other : String} (turns : after.turns = before.turns) :
    after.turnsOf other = before.turnsOf other := by
  rw [turnsOf, turns, turnsOf]

theorem recordsOf_of_same {other : String}
    (records : after.tables.runRecords = before.tables.runRecords) :
    after.recordsOf other = before.recordsOf other := by
  rw [recordsOf, records, recordsOf]

theorem turnsOf_of_append {entry : TurnEntry}
    (turns : after.turns = before.turns ++ [entry]) (other : String) :
    after.turnsOf other =
      before.turnsOf other ++ if entry.sessionId = other then [entry] else [] := by
  rw [turnsOf, turns, List.filter_append, turnsOf]
  by_cases same : entry.sessionId = other
  · simp [same]
  · simp [same]

theorem recordsOf_of_append {record : RunRecord}
    (records :
      after.tables.runRecords = before.tables.runRecords ++ [record])
    (other : String) :
    after.recordsOf other =
      before.recordsOf other ++
        if record.sessionId = other then [record] else [] := by
  rw [recordsOf, records, List.filter_append, recordsOf]
  by_cases same : record.sessionId = other
  · simp [same]
  · simp [same]

end Step

/-- A session that is behind never catches up. -/
theorem behind_step {sessionId : String} (machine : Machine σ μ)
    (invocation : Invocation σ μ) (behind : machine.Behind sessionId) :
    (machine.step invocation).Behind sessionId := by
  unfold Behind at *
  cases invocation.course machine with
  | unstarted recordable turns records =>
      rw [turnsOf_of_same turns, recordsOf_of_same records]
      exact behind
  | recorded recordable result trace turns records =>
      rw [turnsOf_of_append turns, recordsOf_of_append records]
      by_cases same : invocation.sessionId = sessionId
      · simp only [same, Invocation.recordOf, if_true, List.length_append,
          List.length_singleton]
        omega
      · simp only [same, Invocation.recordOf, if_false, List.append_nil]
        exact behind
  | missed unrecordable outcome trace turns records =>
      rw [turnsOf_of_append turns, recordsOf_of_same records,
        List.length_append]
      omega

/-- An invocation without a row leaves its session behind. -/
theorem behind_of_unrecordable {machine : Machine σ μ}
    {invocation : Invocation σ μ} (complete : machine.LedgerComplete)
    (unrecordable : ¬ Recordable machine invocation) :
    (machine.step invocation).Behind invocation.sessionId := by
  have equal := (complete invocation.sessionId).length_eq
  unfold Behind
  cases invocation.course machine with
  | unstarted recordable turns records => exact absurd recordable unrecordable
  | recorded recordable result trace turns records =>
      exact absurd recordable unrecordable
  | missed unrecordable outcome trace turns records =>
      rw [turnsOf_of_append turns, recordsOf_of_same records,
        List.length_append]
      simp only [if_true, List.length_singleton]
      omega

/-- An invocation that gets to its row keeps the ledger complete. -/
theorem complete_of_recordable {machine : Machine σ μ}
    {invocation : Invocation σ μ} (reachable : invocation.SessionsReachable)
    (recordable : Recordable machine invocation)
    (complete : machine.LedgerComplete) :
    (machine.step invocation).LedgerComplete := by
  intro sessionId
  cases invocation.course machine with
  | unstarted recordable turns records =>
      rw [turnsOf_of_same turns, recordsOf_of_same records]
      exact complete sessionId
  | missed unrecordable outcome trace turns records =>
      exact absurd recordable (unrecordable reachable)
  | recorded recordable result trace turns records =>
      rw [turnsOf_of_append turns, recordsOf_of_append records]
      apply List.rel_append (complete sessionId)
      by_cases same : invocation.sessionId = sessionId
      · simp only [same, Invocation.recordOf, if_true]
        exact .cons ⟨result, rfl, rfl, rfl⟩ .nil
      · simp only [same, Invocation.recordOf, if_false]
        exact .nil

/-! ## Whole runs -/

theorem run_complete_iff {machine : Machine σ μ}
    {invocations : List (Invocation σ μ)}
    (reachable : ∀ invocation ∈ invocations, invocation.SessionsReachable)
    (complete : machine.LedgerComplete) :
    (machine.run invocations).LedgerComplete ↔
      LabelledRun.Permitted Machine.step Recordable machine invocations := by
  induction invocations generalizing machine with
  | nil => exact iff_of_true complete (LabelledRun.permitted_nil _ _)
  | cons invocation rest inductionHypothesis =>
      rw [LabelledRun.permitted_cons_iff]
      by_cases recordable : Recordable machine invocation
      · have later :=
          complete_of_recordable (reachable _ List.mem_cons_self) recordable complete
        rw [and_iff_right recordable]
        exact
          inductionHypothesis
            (fun other member => reachable other (List.mem_cons_of_mem _ member))
            later
      · have behind :
            (machine.run (invocation :: rest)).Behind invocation.sessionId :=
          LabelledRun.run_invariant Machine.step behind_step
            (behind_of_unrecordable complete recordable) rest
        exact
          iff_of_false (not_complete_of_behind behind) fun both =>
            recordable both.1

end Machine

/-- The ledger of a run over a reachable database is complete exactly if every
invocation that gets to its turn gets to the write of its row. -/
theorem run_ledger_complete_iff (env : σ) (memory : μ) (clock : ℚ)
    (invocations : List (Invocation σ μ))
    (reachable : ∀ invocation ∈ invocations, invocation.SessionsReachable) :
    ((Machine.start env memory clock).run invocations).LedgerComplete ↔
      LabelledRun.Permitted Machine.step Recordable
        (Machine.start env memory clock) invocations :=
  Machine.run_complete_iff reachable fun _ => .nil

/-! ## Two invocations -/

namespace Terminal

/-- Reachable databases, a router that picks the single agent, and a model. -/
def install (model : Model Unit String) : Installation Unit Unit where
  host := Idle.host
  settings := { modelId := "anthropic:claude-sonnet-5" }
  config :=
    { budgets := .ofList [("default", { maxTotalTokens := some 20000 })]
      permissionMatrix := .ok {} }
  setup := pure ()
  connectMemory := pure ()
  memory := nullMemoryStore Unit
  closeMemory := pure ()
  connectSessions := pure ()
  sessions := ⟨fun _ => none⟩
  closeSessions := pure ()
  tools := {}
  buildRouter _ := pure staticRouter
  models _ :=
    { singleAgent := model
      retrieval := Idle.orchestrator.retrievalModel
      synthesis := Idle.orchestrator.synthesisModel
      critic := Idle.orchestrator.criticModel
      extraction := fun _ => pure (.answer {} [] []) }
  server := Idle.orchestrator.server
  gatherOrder := Idle.orchestrator.gatherOrder

def invocation (model : Model Unit String) : Invocation Unit Unit where
  install := install model
  request := "say hello"

/-- The machine after one invocation over empty tables. -/
def afterOne (model : Model Unit String) : Machine Unit Unit :=
  (Machine.start () () 0).run [invocation model]

def overloaded : Model Unit String :=
  fun _ => throw (.other "ModelHTTPError" "status_code: 529")

def answering : Model Unit String := fun _ => pure (.answer {} "hello" [])

/-- The turn returns and the memory store closes. -/
def finishes (model : Model Unit String)
    (prepared : Invocation.Prepared Unit Unit) (ready : Machine Unit Unit) :
    Bool :=
  match answer ((invocation model).turn prepared ready),
    (Invocation.closing prepared).run
      ((invocation model).turned prepared ready) with
  | .ok _, .ok _ _ => true
  | _, _ => false

end Terminal

/-- A model that raises takes the turn's row with it. -/
theorem raising_turn_leaves_no_row :
    ((Terminal.afterOne Terminal.overloaded).turnsOf "cli-session").length = 1 ∧
      (Terminal.afterOne Terminal.overloaded).recordsOf "cli-session" = [] ∧
      ¬ (Terminal.afterOne Terminal.overloaded).LedgerComplete := by
  have oneTurn :
      ((Terminal.afterOne Terminal.overloaded).turnsOf "cli-session").length =
        1 := by
    decide +kernel
  have noRow :
      (Terminal.afterOne Terminal.overloaded).recordsOf "cli-session" = [] := by
    decide +kernel
  refine ⟨oneTurn, noRow, ?_⟩
  apply Machine.not_complete_of_behind
  unfold Machine.Behind
  rw [oneTurn, noRow]
  exact Nat.one_pos

/-- A turn that returns is recorded. -/
theorem answered_turn_is_recorded :
    (Terminal.afterOne Terminal.answering).LedgerComplete := by
  refine
    (run_ledger_complete_iff () () 0 [Terminal.invocation Terminal.answering] ?_).mpr
      ?_
  · intro invocation member env exc after failed
    cases List.mem_singleton.mp member
    cases failed
  · refine
      LabelledRun.permitted_cons_iff.mpr ⟨?_, LabelledRun.permitted_nil _ _⟩
    intro prepared ready prepares
    have checked :
        (match
          (Terminal.invocation Terminal.answering).prepare.run
            (Machine.start () () 0) with
        | .ok prepared ready =>
            Terminal.finishes Terminal.answering prepared ready
        | .error _ _ => false) = true := by
      decide +kernel
    rw [prepares] at checked
    simp only [Terminal.finishes] at checked
    split at checked
    · exact ⟨_, _, by assumption, by assumption, fun _ _ => rfl⟩
    · cases checked

end FableHarness
