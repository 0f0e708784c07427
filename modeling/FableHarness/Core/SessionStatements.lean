import FableHarness.Core.SessionLedger

/-!
# The statements of the session store

What a step can do to the ledger and to the statements in flight, and that the
calls of the store are serializable in the order in which they are decided.
-/

namespace FableHarness

open LabelledRun

namespace SessionDb

/-! ## What a step does -/

inductive Effect (db : SessionDb) (label : Label) : Prop where
  | idle (elapsed : Nat) (starts : db.starts label = none)
      (commits : db.commits label = none)
      (after : db.step label = { db with clock := db.clock + elapsed })
  | sent (call : SessionCall) (starts : db.starts label = some call)
      (commits : db.commits label = none)
      (stamped : ∀ store row, call = .record store row → row.createdAt = db.clock)
      (after : db.step label = db.send call)
  | checked (index : Nat) (store : PostgresSessionStore) (row : LedgerRow)
      (starts : db.starts label = none) (commits : db.commits label = none)
      (found : db.statements[index]? = some (.sent (.record store row)))
      (accepted : (SessionCall.record store row).rejected = none)
      (known : row.record.sessionId ∈ db.ledger.sessions.keys)
      (after : db.step label = db.put index (.checked store row))
  | finished (index : Nat) (call : SessionCall) (starts : db.starts label = none)
      (commits : db.commits label = some index)
      (found : db.statements[index]? = some (.sent call))
      (noRow : db.rowToInsert call = none)
      (after : db.step label = db.finish index call)
  | committed (index : Nat) (store : PostgresSessionStore) (row : LedgerRow)
      (starts : db.starts label = none) (commits : db.commits label = some index)
      (found : db.statements[index]? = some (.checked store row))
      (after :
        db.step label =
          { db.put index (.answered (.record store row) (.ok ())) with
            ledger := db.ledger.insertRun row })
  | aborted (index : Nat) (old : SessionStatement) (exc : PyExc)
      (starts : db.starts label = none) (commits : db.commits label = none)
      (found : db.statements[index]? = some old) (unanswered : old.answer? = none)
      (after : db.step label = db.put index (.aborted old.call exc))

theorem rowToInsert_eq_some {db : SessionDb} {call : SessionCall}
    {store : PostgresSessionStore} {row : LedgerRow}
    (found : db.rowToInsert call = some (store, row)) :
    call = .record store row ∧ call.rejected = none ∧
      row.record.sessionId ∈ db.ledger.sessions.keys := by
  cases call with
  | ensure other session => cases found
  | record other inserted =>
      rcases (SessionCall.record other inserted).perform_cases db.ledger with
        ⟨exc, performed⟩ | ⟨_, _, isEnsure, _⟩ |
          ⟨_, _, isRecord, accepted, known, performed⟩
      · simp only [rowToInsert, performed] at found
        cases found
      · cases isEnsure
      · cases isRecord
        simp only [rowToInsert, performed] at found
        cases found
        exact ⟨rfl, accepted, known⟩

/-- Running alone, a call without a row to insert leaves the rows alone. -/
theorem runRecords_of_rowToInsert {db : SessionDb} {call : SessionCall}
    (noRow : db.rowToInsert call = none) :
    (call.perform db.ledger).2.runRecords = db.ledger.runRecords := by
  rcases call.perform_cases db.ledger with
    ⟨exc, performed⟩ | ⟨_, _, _, performed⟩ | ⟨_, _, rfl, _, _, performed⟩
  · rw [performed]
  · rw [performed]
    rfl
  · simp only [rowToInsert, performed] at noRow
    cases noRow

theorem Effect.of_same {db : SessionDb} {label : Label}
    (starts : db.starts label = none) (commits : db.commits label = none)
    (same : db.step label = db) : Effect db label := by
  refine .idle 0 starts commits ?_
  rw [same]
  simp

theorem effect_step (db : SessionDb) (label : Label) : Effect db label := by
  cases label with
  | tick elapsed => exact .idle elapsed rfl rfl rfl
  | ensure store row =>
      refine .sent (.ensure store row) rfl rfl ?_ rfl
      intro other inserted isRecord
      cases isRecord
  | record store record =>
      refine .sent (.record store ⟨record, db.clock⟩) rfl rfl ?_ rfl
      intro other inserted isRecord
      cases isRecord
      rfl
  | execute index =>
      cases found : db.statements[index]? with
      | none =>
          exact
            .of_same rfl (by simp only [commits, found]) (by simp only [step, found])
      | some statement =>
          cases statement with
          | sent call =>
              cases inserts : db.rowToInsert call with
              | none =>
                  refine .finished index call rfl ?_ found inserts ?_ <;>
                    simp only [commits, step, found, inserts]
              | some pair =>
                  obtain ⟨store, row⟩ := pair
                  obtain ⟨rfl, accepted, known⟩ := rowToInsert_eq_some inserts
                  refine .checked index store row rfl ?_ found accepted known ?_ <;>
                    simp only [commits, step, found, inserts]
          | checked | answered | aborted =>
              exact
                .of_same rfl (by simp only [commits, found])
                  (by simp only [step, found])
  | commit index =>
      cases found : db.statements[index]? with
      | none =>
          exact
            .of_same rfl (by simp only [commits, found]) (by simp only [step, found])
      | some statement =>
          cases statement with
          | checked store row =>
              refine .committed index store row rfl ?_ found ?_ <;>
                simp only [commits, step, found]
          | sent | answered | aborted =>
              exact
                .of_same rfl (by simp only [commits, found])
                  (by simp only [step, found])
  | abort index exc =>
      cases found : db.statements[index]? with
      | none => exact .of_same rfl rfl (by simp only [step, found])
      | some statement =>
          cases statement with
          | sent call =>
              refine .aborted index _ exc rfl rfl found rfl ?_
              simp only [step, found]
              rfl
          | checked store row =>
              refine .aborted index _ exc rfl rfl found rfl ?_
              simp only [step, found]
              rfl
          | answered | aborted =>
              exact .of_same rfl rfl (by simp only [step, found])

/-! ## The calls are serializable -/

abbrev Recorded := CommitOrder.Recorded SessionDb SessionCall

/-- The calls are those of the statements, and the session of a checked row is
known. -/
structure Consistent (recorded : Recorded) : Prop where
  calls : recorded.calls = recorded.state.statements.map SessionStatement.call
  checked :
    ∀ store row,
      .checked store row ∈ recorded.state.statements →
        (SessionCall.record store row).rejected = none ∧
          row.record.sessionId ∈ recorded.state.ledger.sessions.keys

theorem consistent_start (ledger : SessionLedger) (clock : Timestamp) :
    Consistent { state := { ledger, clock } } where
  calls := rfl
  checked _ _ member := by cases member

section Step

variable {db : SessionDb} {recorded : Recorded} {label : Label} {index : Nat}

theorem Consistent.getElem?_calls (consistent : Consistent recorded)
    {statement : SessionStatement}
    (found : recorded.state.statements[index]? = some statement) :
    recorded.calls[index]? = some statement.call := by
  rw [consistent.calls, List.getElem?_map, found]
  rfl

/-- A statement is replaced by one of the same call. -/
theorem map_call_set {statements : List SessionStatement}
    {old new : SessionStatement} (found : statements[index]? = some old)
    (sameCall : new.call = old.call) :
    (statements.set index new).map SessionStatement.call =
      statements.map SessionStatement.call := by
  obtain ⟨inside, rfl⟩ := List.getElem?_eq_some_iff.mp found
  have inMap : index < (statements.map SessionStatement.call).length := by
    rw [List.length_map]
    exact inside
  have same : (statements.map SessionStatement.call)[index] = new.call := by
    rw [List.getElem_map, sameCall]
  rw [List.map_set, ← same, List.set_getElem_self]

theorem map_call_step (db : SessionDb) (label : Label) :
    (db.step label).statements.map SessionStatement.call =
      db.statements.map SessionStatement.call ++ (db.starts label).toList := by
  cases effect_step db label with
  | idle elapsed starts commits after => rw [after, starts]; simp
  | sent call starts commits stamped after => rw [after, starts]; simp [send]; rfl
  | checked index store row starts commits found accepted known after =>
      rw [after, starts, Option.toList_none, List.append_nil]
      exact map_call_set found rfl
  | finished index call starts commits found noRow after =>
      rw [after, starts, Option.toList_none, List.append_nil]
      exact map_call_set found rfl
  | committed index store row starts commits found after =>
      rw [after, starts, Option.toList_none, List.append_nil]
      exact map_call_set found rfl
  | aborted index old exc starts commits found unanswered after =>
      rw [after, starts, Option.toList_none, List.append_nil]
      exact map_call_set found rfl

theorem keys_subset_step (db : SessionDb) (label : Label) :
    db.ledger.sessions.keys ⊆ (db.step label).ledger.sessions.keys := by
  cases effect_step db label with
  | finished index call starts commits found noRow after =>
      rw [after]
      exact call.keys_subset_perform db.ledger
  | idle elapsed starts commits after =>
      rw [after]
      exact List.Subset.refl _
  | sent call starts commits stamped after =>
      rw [after]
      exact List.Subset.refl _
  | checked index store row starts commits found accepted known after =>
      rw [after]
      exact List.Subset.refl _
  | committed index store row starts commits found after =>
      rw [after]
      exact List.Subset.refl _
  | aborted index old exc starts commits found unanswered after =>
      rw [after]
      exact List.Subset.refl _

/-- A row is checked before it is committed. -/
theorem checked_of_step {store : PostgresSessionStore} {row : LedgerRow}
    (member : .checked store row ∈ (db.step label).statements) :
    .checked store row ∈ db.statements ∨
      (SessionCall.record store row).rejected = none ∧
        row.record.sessionId ∈ db.ledger.sessions.keys := by
  cases effect_step db label with
  | idle elapsed starts commits after =>
      rw [after] at member
      exact Or.inl member
  | sent call starts commits stamped after =>
      rw [after] at member
      rcases List.mem_append.mp member with old | new
      · exact Or.inl old
      · cases List.mem_singleton.mp new
  | checked index store row starts commits found accepted known after =>
      rw [after] at member
      rcases List.mem_or_eq_of_mem_set member with old | new
      · exact Or.inl old
      · cases new
        exact Or.inr ⟨accepted, known⟩
  | finished index call starts commits found noRow after =>
      rw [after] at member
      rcases List.mem_or_eq_of_mem_set member with old | new
      · exact Or.inl old
      · cases new
  | committed index store row starts commits found after =>
      rw [after] at member
      rcases List.mem_or_eq_of_mem_set member with old | new
      · exact Or.inl old
      · cases new
  | aborted index old exc starts commits found unanswered after =>
      rw [after] at member
      rcases List.mem_or_eq_of_mem_set member with old | new
      · exact Or.inl old
      · cases new

theorem consistent_record (consistent : Consistent recorded) (label : Label) :
    Consistent (machine.record recorded label) where
  calls := by
    have grown := map_call_step recorded.state label
    rw [← consistent.calls] at grown
    exact grown.symm
  checked store row member := by
    have later := keys_subset_step recorded.state label
    rcases checked_of_step member with old | ⟨accepted, known⟩
    · obtain ⟨accepted, known⟩ := consistent.checked store row old
      exact ⟨accepted, later known⟩
    · exact ⟨accepted, later known⟩

/-- An answer that was given stays. -/
theorem answer_step {answer : Except PyExc Unit}
    (given : db.answerOf index = some answer) :
    (db.step label).answerOf index = some answer := by
  have stays :
      ∀ other old new, db.statements[other]? = some old → old.answer? = none →
        ((db.statements.set other new)[index]?).bind SessionStatement.answer? =
          some answer := by
    intro other old new found unanswered
    by_cases same : other = index
    · subst same
      rw [answerOf, found] at given
      cases unanswered.symm.trans given
    · rw [List.getElem?_set_ne same]
      exact given
  cases effect_step db label with
  | idle elapsed starts commits after =>
      rw [after]
      exact given
  | sent call starts commits stamped after =>
      obtain ⟨statement, found, answered⟩ := Option.bind_eq_some_iff.mp given
      have inside := (List.getElem?_eq_some_iff.mp found).1
      rw [after]
      refine Option.bind_eq_some_iff.mpr ⟨statement, ?_, answered⟩
      exact (List.getElem?_append_left inside).trans found
  | checked other store row starts commits found accepted known after =>
      rw [after]
      exact stays other _ _ found rfl
  | finished other call starts commits found noRow after =>
      rw [after]
      exact stays other _ _ found rfl
  | committed other store row starts commits found after =>
      rw [after]
      exact stays other _ _ found rfl
  | aborted other old exc starts commits found unanswered after =>
      rw [after]
      exact stays other _ _ found unanswered

theorem ledger_step_of_quiet (quiet : db.commits label = none) :
    (db.step label).ledger = db.ledger := by
  cases effect_step db label with
  | finished index call starts commits found noRow after =>
      cases quiet.symm.trans commits
  | committed index store row starts commits found after =>
      cases quiet.symm.trans commits
  | idle elapsed starts commits after => rw [after]
  | sent call starts commits stamped after =>
      rw [after]
      rfl
  | checked index store row starts commits found accepted known after =>
      rw [after]
      rfl
  | aborted index old exc starts commits found unanswered after =>
      rw [after]
      rfl

theorem found_of_commits (commits : db.commits label = some index) :
    ∃ statement, db.statements[index]? = some statement := by
  cases effect_step db label with
  | idle elapsed starts quiet after => cases commits.symm.trans quiet
  | sent call starts quiet stamped after => cases commits.symm.trans quiet
  | checked other store row starts quiet found accepted known after =>
      cases commits.symm.trans quiet
  | finished other call starts decided found noRow after =>
      cases commits.symm.trans decided
      exact ⟨_, found⟩
  | committed other store row starts decided found after =>
      cases commits.symm.trans decided
      exact ⟨_, found⟩
  | aborted other old exc starts quiet found unanswered after =>
      cases commits.symm.trans quiet

theorem lawful : machine.Lawful Consistent where
  quiet recorded label _ quiet := ledger_step_of_quiet quiet
  stays _ _ _ _ _ given := answer_step given
  started recorded label index consistent commits := by
    obtain ⟨statement, found⟩ := found_of_commits commits
    exact (List.getElem?_eq_some_iff.mp (consistent.getElem?_calls found)).1
  kept _ label consistent := consistent_record consistent label

/-- Each call acts on the ledger of the moment at which it is decided: the check of
a foreign key cannot become outdated. -/
theorem actsAtomically (consistent : Consistent recorded) (label : Label) :
    machine.ActsAtomically recorded label := by
  intro index call commits called
  have answered : ∀ answered : SessionStatement, ∀ {other : SessionStatement},
      recorded.state.statements[index]? = some other →
        (recorded.state.statements.set index answered)[index]? = some answered := by
    intro answered other found
    exact List.getElem?_set_self (List.getElem?_eq_some_iff.mp found).1
  cases effect_step recorded.state label with
  | idle elapsed starts quiet after => cases commits.symm.trans quiet
  | sent call starts quiet stamped after => cases commits.symm.trans quiet
  | checked other store row starts quiet found accepted known after =>
      cases commits.symm.trans quiet
  | finished other sent starts decided found noRow after =>
      cases commits.symm.trans decided
      cases called.symm.trans (consistent.getElem?_calls found)
      refine ⟨?_, congrArg ledger after⟩
      have result := congrArg (answerOf · index) after
      refine result.trans ?_
      exact congrArg (·.bind SessionStatement.answer?) (answered _ found)
  | committed other store row starts decided found after =>
      cases commits.symm.trans decided
      cases called.symm.trans (consistent.getElem?_calls found)
      obtain ⟨accepted, known⟩ :=
        consistent.checked store row (List.mem_of_getElem? found)
      have performed :
          machine.perform (SessionCall.record store row) recorded.state.ledger =
            (.ok (), recorded.state.ledger.insertRun row) :=
        SessionCall.perform_record_of_known accepted known
      have result := congrArg (answerOf · index) after
      constructor
      · refine result.trans ?_
        refine (congrArg (·.bind SessionStatement.answer?) (answered _ found)).trans ?_
        exact congrArg (some ∘ Prod.fst) performed.symm
      · exact (congrArg ledger after).trans (congrArg Prod.snd performed).symm
  | aborted other old exc starts quiet found unanswered after =>
      cases commits.symm.trans quiet

end Step

/-- Under every interleaving the sessions, the rows and the answers are those of
the decided calls, made one after the other. -/
theorem session_calls_serializable (ledger : SessionLedger) (clock : Timestamp)
    (schedule : List Label) : machine.Serializable { ledger, clock } schedule := by
  rw [lawful.serializable_iff (consistent_start ledger clock)]
  intro initial label rest equality
  apply actsAtomically
  exact lawful.valid_recordedRun (consistent_start ledger clock) initial

end SessionDb

end FableHarness
