import FableHarness.Library.Noninterference
import FableHarness.Memory.PgVectorStore

/-!
# Scopes do not interfere

Two histories with the same calls on one scope.  The scope's rows and answers
stay equal because every other row carries an id that the scope never
remembers, so neither the id-keyed update nor the global conflict rule reaches
across.
-/

namespace FableHarness

open LabelledRun PgVectorMemoryStore

namespace MemoryHistory

/-- The id is remembered under the scope by some call of the history. -/
def Remembers (history : List MemoryCall) (id : Uuid) (scope : String) : Prop :=
  ∃ call ∈ history, ∃ items,
    call.operation = .remember items scope ∧
      ∃ item ∈ items, Uuid.parse item.id = .ok id

/-- No item id is remembered under two scopes. -/
def OneScopePerId (history : List MemoryCall) : Prop :=
  ∀ id left right,
    Remembers history id left → Remembers history id right → left = right

def onScope (scope : String) (call : MemoryCall) : Bool :=
  call.operation.scope == scope

def inScope (scope : String) (row : MemoryRow) : Bool :=
  row.scope == scope

/-- A call remembers the ids in `own` under `scope` and no other id. -/
def KeepsApart (scope : String) (own : Uuid → Prop) (call : MemoryCall) : Prop :=
  ∀ items itemScope,
    call.operation = .remember items itemScope →
      ∀ item ∈ items, ∀ id,
        Uuid.parse item.id = .ok id → (itemScope = scope ↔ own id)

/-- No row of another scope holds an id in `own`. -/
def Apart (scope : String) (own : Uuid → Prop) (table : MemoryTable) : Prop :=
  ∀ row ∈ table.rows, row.scope ≠ scope → ¬ own row.id

/-- What the scope can see of two histories is the same. -/
structure SameView (scope : String) (own : Uuid → Prop)
    (left right : MemoryHistory) : Prop where
  rows :
    left.table.rows.filter (inScope scope) =
      right.table.rows.filter (inScope scope)
  answers : left.answersOn scope = right.answersOn scope
  leftApart : Apart scope own left.table
  rightApart : Apart scope own right.table

section Calls

variable {backend : MemoryBackend} {scope : String} {own : Uuid → Prop}
  {table : MemoryTable} {call : MemoryCall}

theorem selectLive_eq (table : MemoryTable) (scope : String) :
    selectLive table scope =
      (table.rows.filter (inScope scope)).filter fun row =>
        row.validTo.isNone := by
  rw [List.filter_filter]
  apply List.filter_congr
  intro row _
  exact Bool.and_comm _ _

theorem filter_map_closeRow (now : Timestamp) (ids : List Uuid)
    (rows : List MemoryRow) :
    (rows.map (closeRow now ids)).filter (inScope scope) =
      (rows.filter (inScope scope)).map (closeRow now ids) := by
  rw [List.filter_map]
  congr 1
  apply List.filter_congr
  intro row _
  exact congrArg (· == scope) (scope_closeRow now ids row)

theorem apart_perform (keepsApart : KeepsApart scope own call)
    (apart : Apart scope own table) :
    Apart scope own (perform backend table call).2 := by
  rcases perform_cases backend table call with
    unchanged | ⟨items, itemScope, rows, operation, planned, grown⟩ |
      ⟨predicate, ids, _, _, closed⟩
  · rw [unchanged]
    exact apart
  · rw [grown]
    intro row member foreign owned
    rcases KeyedTable.mem_or_mem_of_mem_insertAll member with old | new
    · exact apart row old foreign owned
    · obtain ⟨item, itemMember, vector, row_eq⟩ :=
        item_of_mem_plannedRows planned new
      have isRow := rowOf_of_buildRow row_eq
      have home :=
        (keepsApart items itemScope operation item itemMember row.id
          isRow.parsed).mpr owned
      exact foreign (isRow.inScope.trans home)
  · intro row member foreign owned
    rw [closed] at member
    obtain ⟨before, inTable, rfl⟩ := List.mem_map.mp member
    rw [scope_closeRow] at foreign
    rw [id_closeRow] at owned
    exact apart before inTable foreign owned

/-- A call on another scope leaves the rows of this one alone. -/
theorem filter_perform_of_hidden (hidden : onScope scope call = false) :
    (perform backend table call).2.rows.filter (inScope scope) =
      table.rows.filter (inScope scope) := by
  have foreign : call.operation.scope ≠ scope := by
    simpa [onScope] using hidden
  rcases perform_cases backend table call with
    unchanged | ⟨items, itemScope, rows, operation, planned, grown⟩ |
      ⟨predicate, ids, operation, chosen, closed⟩
  · rw [unchanged]
  · rw [operation] at foreign
    rw [grown]
    apply KeyedTable.filter_insertAll_of_outside
    intro row member
    obtain ⟨item, _, vector, row_eq⟩ :=
      item_of_mem_plannedRows planned member
    have home : row.scope = itemScope := (rowOf_of_buildRow row_eq).inScope
    exact beq_eq_false_iff_ne.mpr (home ▸ foreign)
  · rw [operation] at foreign
    rw [closed, filter_map_closeRow]
    apply map_closeRow_of_disjoint
    intro row member closing
    obtain ⟨inTable, home⟩ := List.mem_filter.mp member
    obtain ⟨other, otherInTable, sameId, live⟩ :=
      live_of_mem_chooseIds chosen closing
    have same : other = row :=
      table.eq_of_key_eq otherInTable inTable sameId
    simp only [isLiveIn, Bool.and_eq_true, beq_iff_eq] at live
    exact foreign (live.1.symm.trans (same ▸ beq_iff_eq.mp home))

/-! ### A call on the scope, on both sides -/

variable {other : MemoryTable}

theorem selectLive_congr
    (sameRows :
      table.rows.filter (inScope scope) = other.rows.filter (inScope scope)) :
    selectLive table scope = selectLive other scope := by
  rw [selectLive_eq, selectLive_eq, sameRows]

theorem filter_insertAll_planned {items : List MemoryItem}
    {rows : List MemoryRow} {store : PgVectorMemoryStore} {now : Timestamp}
    (sameRows :
      table.rows.filter (inScope scope) = other.rows.filter (inScope scope))
    (keepsApart :
      ∀ item ∈ items, ∀ id, Uuid.parse item.id = .ok id → own id)
    (apart : Apart scope own table) (otherApart : Apart scope own other)
    (built :
      ∀ row ∈ rows, ∃ item ∈ items, ∃ vector,
        store.buildRow now scope item vector = .ok row) :
    (table.insertAll rows).rows.filter (inScope scope) =
      (other.insertAll rows).rows.filter (inScope scope) := by
  have owned : ∀ row ∈ rows, own row.id := by
    intro row member
    obtain ⟨item, itemMember, vector, row_eq⟩ := built row member
    exact keepsApart item itemMember row.id (rowOf_of_buildRow row_eq).parsed
  have free : ∀ tables : MemoryTable, Apart scope own tables →
      ∀ old ∈ tables.rows, inScope scope old = false →
        old.id ∉ rows.map MemoryRow.id := by
    intro tables tablesApart old member foreign taken
    obtain ⟨row, rowMember, sameId⟩ := List.mem_map.mp taken
    exact
      tablesApart old member (by simpa [inScope] using foreign)
        (sameId ▸ owned row rowMember)
  apply KeyedTable.filter_insertAll_congr sameRows
  · intro row member
    obtain ⟨item, _, vector, row_eq⟩ := built row member
    exact beq_iff_eq.mpr (rowOf_of_buildRow row_eq).inScope
  · exact free table apart
  · exact free other otherApart

/-- A call on the scope is answered alike and changes the scope's rows alike. -/
theorem perform_congr (backend : MemoryBackend)
    (shown : onScope scope call = true)
    (keepsApart : KeepsApart scope own call)
    (sameRows :
      table.rows.filter (inScope scope) = other.rows.filter (inScope scope))
    (apart : Apart scope own table) (otherApart : Apart scope own other) :
    (perform backend table call).1 = (perform backend other call).1 ∧
      (perform backend table call).2.rows.filter (inScope scope) =
        (perform backend other call).2.rows.filter (inScope scope) := by
  have home : call.operation.scope = scope := beq_iff_eq.mp shown
  have sameLive := selectLive_congr sameRows
  unfold perform
  cases operation : call.operation with
  | remember items itemScope =>
      rw [operation] at home
      change itemScope = scope at home
      subst home
      simp only [remember_eq_map]
      cases planned :
          (storeFor backend call).plannedRows call.now items itemScope with
      | error exc =>
          exact ⟨rfl, sameRows⟩
      | ok rows =>
          refine ⟨rfl, ?_⟩
          exact
            filter_insertAll_planned sameRows
              (fun item member id parsed =>
                (keepsApart items _ operation item member id parsed).mp rfl)
              apart otherApart
              (fun row member => item_of_mem_plannedRows planned member)
  | recallItems query itemScope k =>
      rw [operation] at home
      change itemScope = scope at home
      subst home
      refine ⟨?_, sameRows⟩
      simp only [recallItems, sameLive]
  | invalidate predicate =>
      rw [operation] at home
      change predicate.scope = scope at home
      subst home
      have sameChoice :
          (storeFor backend call).chooseIds predicate table =
            (storeFor backend call).chooseIds predicate other := by
        unfold chooseIds
        rw [sameLive]
      simp only [invalidate, sameChoice]
      cases (storeFor backend call).chooseIds predicate other with
      | error exc =>
          exact ⟨rfl, sameRows⟩
      | ok ids =>
          cases ids with
          | nil =>
              exact ⟨rfl, sameRows⟩
          | cons id rest =>
              refine ⟨rfl, ?_⟩
              change
                (table.rows.map (closeRow call.now (id :: rest))).filter _ =
                  (other.rows.map (closeRow call.now (id :: rest))).filter _
              rw [filter_map_closeRow, filter_map_closeRow, sameRows]

end Calls

/-! ## The unwinding relation -/

section Unwinding

variable {backend : MemoryBackend} {scope : String} {own : Uuid → Prop}

theorem answersOn_step (history : MemoryHistory) (call : MemoryCall) :
    (step backend history call).answersOn scope =
      history.answersOn scope ++
        bif onScope scope call then
          [(call, (perform backend history.table call).1)]
        else
          [] := by
  unfold answersOn step
  rw [List.filter_append, List.filter_singleton]
  rfl

theorem unwinding_sameView (backend : MemoryBackend) (scope : String)
    (own : Uuid → Prop) :
    Unwinding (step backend) (onScope scope) (KeepsApart scope own)
      (SameView scope own) where
  hiddenLeft := by
    intro left right call keepsApart hidden view
    refine ⟨?_, ?_, apart_perform keepsApart view.leftApart, view.rightApart⟩
    · exact (filter_perform_of_hidden hidden).trans view.rows
    · rw [answersOn_step, hidden]
      simpa using view.answers
  hiddenRight := by
    intro left right call keepsApart hidden view
    refine ⟨?_, ?_, view.leftApart, apart_perform keepsApart view.rightApart⟩
    · exact view.rows.trans (filter_perform_of_hidden hidden).symm
    · rw [answersOn_step, hidden]
      simpa using view.answers
  shown := by
    intro left right call keepsApart shown view
    obtain ⟨sameAnswer, sameRows⟩ :=
      perform_congr backend shown keepsApart view.rows view.leftApart
        view.rightApart
    refine
      ⟨sameRows, ?_, apart_perform keepsApart view.leftApart,
        apart_perform keepsApart view.rightApart⟩
    rw [answersOn_step, answersOn_step, shown, view.answers, sameAnswer]

end Unwinding

/-- When no id is remembered under two scopes, the ids remembered under one
scope are remembered under no other. -/
theorem keepsApart_of_oneScopePerId {history same : List MemoryCall}
    {scope : String} (oneScope : OneScopePerId history)
    (sameVisible :
      same.filter (onScope scope) = history.filter (onScope scope)) :
    ∀ call ∈ history, KeepsApart scope (Remembers same · scope) call := by
  have transfer : ∀ {id}, Remembers same id scope ↔ Remembers history id scope := by
    have carry : ∀ {source target : List MemoryCall} {id},
        source.filter (onScope scope) = target.filter (onScope scope) →
          Remembers source id scope → Remembers target id scope := by
      rintro source target id equal ⟨call, member, items, operation, item⟩
      have shown : onScope scope call = true := by
        simp [onScope, operation, MemoryOperation.scope]
      have kept := List.mem_filter.mpr ⟨member, shown⟩
      rw [equal] at kept
      exact ⟨call, (List.mem_filter.mp kept).1, items, operation, item⟩
    intro id
    exact ⟨carry sameVisible, carry sameVisible.symm⟩
  intro call member items itemScope operation item itemMember id parsed
  have here : Remembers history id itemScope :=
    ⟨call, member, items, operation, item, itemMember, parsed⟩
  change itemScope = scope ↔ Remembers same id scope
  rw [transfer]
  constructor
  · rintro rfl
    exact here
  · exact fun own => oneScope id itemScope scope here own

/-- Two histories that agree on the calls of a scope, and remember no id under
two scopes, give the same answers on the scope and leave it the same rows. -/
theorem scopes_do_not_interfere
    (backend : MemoryBackend) (scope : String) (left right : List MemoryCall)
    (sameCalls :
      left.filter (onScope scope) = right.filter (onScope scope))
    (leftOneScope : OneScopePerId left) (rightOneScope : OneScopePerId right) :
    (run (step backend) {} left).answersOn scope =
        (run (step backend) {} right).answersOn scope ∧
      (run (step backend) {} left).table.rows.filter (inScope scope) =
        (run (step backend) {} right).table.rows.filter (inScope scope) := by
  have start :
      SameView scope (Remembers left · scope) ({} : MemoryHistory) {} :=
    ⟨rfl, rfl, by simp [Apart], by simp [Apart]⟩
  have view :=
    (unwinding_sameView backend scope (Remembers left · scope)).run_related
      (keepsApart_of_oneScopePerId leftOneScope rfl)
      (keepsApart_of_oneScopePerId rightOneScope sameCalls) sameCalls start
  exact ⟨view.answers, view.rows⟩

/-! ### Two clients -/

def clientItem (content id : String) : MemoryItem :=
  { content := content, scope := "", id := id }

def clientACalls : List MemoryCall :=
  [⟨defaultEmbeddingModel, 10,
      .remember [clientItem "prefers email" "00000000000000000000000000000a01"]
        "client_a"⟩,
    ⟨defaultEmbeddingModel, 30, .invalidate ⟨"client_a", fun _ => .ok true⟩⟩]

def clientBCalls : List MemoryCall :=
  [⟨defaultEmbeddingModel, 20,
      .remember [clientItem "prefers calls" "00000000000000000000000000000b01"]
        "client_b"⟩,
    ⟨defaultEmbeddingModel, 40, .recallItems "how to reach them?" "client_b" 5⟩]

theorem clients_one_scope_per_id :
    OneScopePerId (clientACalls ++ clientBCalls) := by
  have home : ∀ {id scope}, Remembers (clientACalls ++ clientBCalls) id scope →
      scope = "client_a" ∧
          Uuid.parse "00000000000000000000000000000a01" = .ok id ∨
        scope = "client_b" ∧
          Uuid.parse "00000000000000000000000000000b01" = .ok id := by
    rintro id scope ⟨call, member, items, operation, item, itemMember, parsed⟩
    simp only [clientACalls, clientBCalls, List.cons_append, List.nil_append,
      List.mem_cons, List.not_mem_nil, or_false] at member
    rcases member with rfl | rfl | rfl | rfl
    · cases operation
      cases List.mem_singleton.mp itemMember
      exact Or.inl ⟨rfl, parsed⟩
    · cases operation
    · cases operation
      cases List.mem_singleton.mp itemMember
      exact Or.inr ⟨rfl, parsed⟩
    · cases operation
  intro id left right leftRemembers rightRemembers
  rcases home leftRemembers with ⟨rfl, leftParsed⟩ | ⟨rfl, leftParsed⟩ <;>
    rcases home rightRemembers with ⟨rfl, rightParsed⟩ | ⟨rfl, rightParsed⟩
  · rfl
  · exact absurd (leftParsed.trans rightParsed.symm) (by decide)
  · exact absurd (leftParsed.trans rightParsed.symm) (by decide)
  · rfl

/-- What client B is told does not depend on the calls made for client A. -/
theorem client_b_sees_only_client_b :
    (run (step plainBackend) {} (clientACalls ++ clientBCalls)).answersOn
          "client_b" =
        (run (step plainBackend) {} clientBCalls).answersOn "client_b" ∧
      (run (step plainBackend) {}
            (clientACalls ++ clientBCalls)).table.rows.filter
          (inScope "client_b") =
        (run (step plainBackend) {} clientBCalls).table.rows.filter
          (inScope "client_b") := by
  apply scopes_do_not_interfere plainBackend "client_b"
  · rfl
  · exact clients_one_scope_per_id
  · intro id left right leftRemembers rightRemembers
    have widen : ∀ {scope}, Remembers clientBCalls id scope →
        Remembers (clientACalls ++ clientBCalls) id scope := by
      rintro scope ⟨call, member, rest⟩
      exact ⟨call, List.mem_append_right _ member, rest⟩
    exact
      clients_one_scope_per_id id left right (widen leftRemembers)
        (widen rightRemembers)

end MemoryHistory

end FableHarness
