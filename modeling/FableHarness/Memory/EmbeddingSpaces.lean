import Mathlib.Data.List.Induction
import FableHarness.Library.LabelledRun
import FableHarness.Memory.PgVectorStore

/-!
# Which embedding spaces a recall mixes

The table remembers the encoder of every row, and `recall` ranks all live rows
of a scope whatever their encoder.  So a recall stays within one embedding
space exactly as long as only instances with that encoder stored rows under
the scope.
-/

namespace FableHarness

open LabelledRun PgVectorMemoryStore

/-! ## What a recall can return -/

namespace PgVectorMemoryStore

variable {store : PgVectorMemoryStore} {query scope : String} {k : Int}
  {table : MemoryTable}

/-- With a large enough `k` every live row of the scope comes back. -/
theorem recall_all {vector : List ℚ}
    (embeds : store.embed [query] = .ok [vector])
    (sendable : store.backend.rejectsText scope = none)
    (rowCount : table.rows.length < 2 ^ 63) :
    store.recallItems query scope table.rows.length table =
      .ok ((store.ranked vector (selectLive table scope)).map
        fun row => rowToItem row scope row.validTo) := by
  have limit : rowLimit table.rows.length = .ok table.rows.length := by
    unfold rowLimit
    rw [if_neg (by omega), if_neg (by omega), Int.toNat_natCast]
  have short :
      (store.ranked vector (selectLive table scope)).length ≤
        table.rows.length := by
    rw [ranked, List.length_mergeSort]
    exact List.length_filter_le _ _
  unfold recallItems
  rw [embeds]
  change
    (raiseIf (store.backend.rejectsText scope) >>= fun _ =>
      rowLimit table.rows.length >>= fun limit =>
        Except.ok
          (((store.ranked vector (selectLive table scope)).take limit).map
            fun row => rowToItem row scope row.validTo)) = _
  rw [sendable, limit]
  change
    Except.ok
      (((store.ranked vector (selectLive table scope)).take
        table.rows.length).map _) = _
  rw [List.take_of_length_le short]

end PgVectorMemoryStore

namespace MemoryHistory

/-! ## Where the rows of a history come from -/

/-- The history consists of `remember` calls. -/
def RemembersOnly (history : List MemoryCall) : Prop :=
  ∀ call ∈ history, ∃ items scope, call.operation = .remember items scope

/-- Only instances with encoder `encoderId` store rows under `scope`: a
`remember` on it that adds a row comes from such an instance. -/
def StoresOnly (backend : MemoryBackend) (scope encoderId : String)
    (history : List MemoryCall) : Prop :=
  Permitted (step backend)
    (fun before call =>
      call.operation.scope = scope →
        (perform backend before.table call).2.rows ≠ before.table.rows →
          call.encoderId = encoderId)
    {} history

section Rows

variable {backend : MemoryBackend} {scope encoderId : String}

/-- A `remember` call appends live rows of its own scope and encoder. -/
theorem rows_perform_of_remember (backend : MemoryBackend)
    {call : MemoryCall} {items : List MemoryItem}
    (operation : call.operation = .remember items scope) (table : MemoryTable) :
    ∃ added,
      (perform backend table call).2.rows = table.rows ++ added ∧
        ∀ row ∈ added,
          isLiveIn scope row = true ∧ row.encoderId = call.encoderId ∧
            backend.rejectsText row.scope = none := by
  rcases perform_cases backend table call with
    unchanged | ⟨_, itemScope, rows, same, planned, grown⟩ |
      ⟨predicate, _, same, _⟩
  · exact ⟨[], by rw [unchanged, List.append_nil], by simp⟩
  · cases operation.symm.trans same
    obtain ⟨added, appended, fromRows⟩ := table.rows_insertAll rows
    refine ⟨added, by rw [grown, appended], ?_⟩
    intro row member
    have sent := (fromRows row member).1
    obtain ⟨item, _, vector, built⟩ := item_of_mem_plannedRows planned sent
    have isRow := rowOf_of_buildRow built
    refine
      ⟨?_, isRow.encoderId, scope_accepted_of_mem_plannedRows planned sent⟩
    simp [isLiveIn, isRow.inScope, isRow.isOpen]
  · cases operation.symm.trans same

theorem table_run_concat (history : List MemoryCall) (call : MemoryCall) :
    (run (step backend) {} (history ++ [call])).table =
      (perform backend (run (step backend) {} history).table call).2 := by
  rw [run_concat]
  rfl

/-- Every row of a history of `remember` calls is live, and Postgres accepted
its scope. -/
theorem live_of_remembersOnly {history : List MemoryCall}
    (remembersOnly : RemembersOnly history) :
    ∀ row ∈ (run (step backend) {} history).table.rows,
      isLiveIn row.scope row = true ∧ backend.rejectsText row.scope = none := by
  induction history using List.reverseRecOn with
  | nil =>
      intro row member
      cases member
  | append_singleton history call inductionHypothesis =>
      intro row member
      obtain ⟨items, callScope, operation⟩ := remembersOnly call (by simp)
      obtain ⟨added, appended, facts⟩ :=
        rows_perform_of_remember backend operation
          (run (step backend) {} history).table
      rw [table_run_concat, appended] at member
      rcases List.mem_append.mp member with old | new
      · exact
          inductionHypothesis
            (fun earlier inHistory =>
              remembersOnly earlier (List.mem_append_left _ inHistory))
            row old
      · obtain ⟨live, _, accepted⟩ := facts row new
        have home : row.scope = callScope := by
          simp only [isLiveIn, Bool.and_eq_true, beq_iff_eq] at live
          exact live.1
        exact ⟨home ▸ live, accepted⟩

/-- The rows of a scope all carry the encoder exactly when only instances with
that encoder stored rows under it. -/
theorem storesOnly_iff {history : List MemoryCall}
    (remembersOnly : RemembersOnly history) :
    StoresOnly backend scope encoderId history ↔
      ∀ row ∈ (run (step backend) {} history).table.rows,
        row.scope = scope → row.encoderId = encoderId := by
  induction history using List.reverseRecOn with
  | nil =>
      constructor
      · intro _ row member
        cases member
      · exact fun _ => permitted_nil _ _
  | append_singleton history call inductionHypothesis =>
      obtain ⟨items, callScope, operation⟩ := remembersOnly call (by simp)
      obtain ⟨added, appended, facts⟩ :=
        rows_perform_of_remember backend operation
          (run (step backend) {} history).table
      have earlier :=
        inductionHypothesis fun before inHistory =>
          remembersOnly before (List.mem_append_left _ inHistory)
      have home : ∀ row ∈ added, row.scope = callScope := by
        intro row member
        have live := (facts row member).1
        simp only [isLiveIn, Bool.and_eq_true, beq_iff_eq] at live
        exact live.1
      unfold StoresOnly at earlier ⊢
      rw [permitted_concat_iff, earlier, table_run_concat, appended]
      have callScope_eq : call.operation.scope = callScope := by
        rw [operation]
        rfl
      constructor
      · rintro ⟨before, last⟩ row member inScope
        rcases List.mem_append.mp member with old | new
        · exact before row old inScope
        · rw [(facts row new).2.1]
          apply last (by rw [callScope_eq, ← home row new, inScope])
          intro same
          rw [List.append_right_eq_self.mp same] at new
          cases new
      · intro all
        refine
          ⟨fun row old => all row (List.mem_append_left _ old), ?_⟩
        intro inScope grew
        cases added with
        | nil =>
            exact (grew (List.append_nil _)).elim
        | cons row rest =>
            rw [← (facts row List.mem_cons_self).2.1]
            apply all row (List.mem_append_right _ List.mem_cons_self)
            rw [home row List.mem_cons_self, ← callScope_eq, inScope]

end Rows

/-! ## The encoder guard -/

/-- After any history of `remember` calls, the recalls on a scope by instances
with one encoder return only items of that encoder if and only if no instance
with another encoder stored a row under the scope. -/
theorem recall_keeps_embedding_space_iff
    (backend : MemoryBackend) (history : List MemoryCall)
    (scope encoderId : String)
    (remembersOnly : RemembersOnly history)
    (embeds :
      ∃ query vector,
        (⟨backend, encoderId⟩ : PgVectorMemoryStore).embed [query] =
          .ok [vector])
    (rowCount :
      (run (step backend) {} history).table.rows.length < 2 ^ 63) :
    (∀ query k items,
      (⟨backend, encoderId⟩ : PgVectorMemoryStore).recallItems query scope k
          (run (step backend) {} history).table = .ok items →
        ∀ item ∈ items, item.encoderId = some encoderId) ↔
      StoresOnly backend scope encoderId history := by
  rw [storesOnly_iff remembersOnly]
  constructor
  · intro keepsSpace row member home
    subst home
    obtain ⟨query, vector, embedded⟩ := embeds
    obtain ⟨live, sendable⟩ := live_of_remembersOnly remembersOnly row member
    have recalled := recall_all embedded sendable rowCount
    have returned := keepsSpace _ _ _ recalled (rowToItem row row.scope row.validTo)
    apply Option.some.inj (returned _)
    apply List.mem_map_of_mem
    rw [ranked, List.mem_mergeSort]
    exact List.mem_filter.mpr ⟨member, live⟩
  · intro stored query k items recalled item member
    obtain ⟨row, inTable, live, rfl⟩ := live_of_mem_recall recalled member
    simp only [isLiveIn, Bool.and_eq_true, beq_iff_eq] at live
    exact congrArg some (stored row inTable live.1)

/-! ### An encoder swap -/

def swapScope : String := "default"

def swapEncoder : String := "text-embedding-ada-002"

def swapItem : MemoryItem where
  content := "prefers calls"
  scope := swapScope
  id := "00000000-0000-0000-0000-00000000000a"

/-- One item stored before the encoder is swapped. -/
def beforeSwap : List MemoryCall :=
  [⟨defaultEmbeddingModel, 0, .remember [swapItem] swapScope⟩]

def swapTable : MemoryTable :=
  (run (step plainBackend) {} beforeSwap).table

theorem beforeSwap_remembersOnly : RemembersOnly beforeSwap := by
  intro call member
  cases List.mem_singleton.mp member
  exact ⟨_, _, rfl⟩

theorem beforeSwap_storesOnly :
    StoresOnly plainBackend swapScope defaultEmbeddingModel beforeSwap := by
  intro initial call rest equality _ _
  have member : call ∈ beforeSwap := by
    rw [equality]
    simp
  cases List.mem_singleton.mp member
  rfl

/-- As long as the encoder is not swapped, a recall stays in its space. -/
theorem recall_keeps_space_before_swap :
    StoresOnly plainBackend swapScope defaultEmbeddingModel beforeSwap ∧
      ∀ query k items,
        (⟨plainBackend, defaultEmbeddingModel⟩ : PgVectorMemoryStore).recallItems
            query swapScope k swapTable = .ok items →
          ∀ item ∈ items, item.encoderId = some defaultEmbeddingModel := by
  have sameSpace :=
    recall_keeps_embedding_space_iff plainBackend beforeSwap swapScope
      defaultEmbeddingModel beforeSwap_remembersOnly
      ⟨"", _, embed_plainBackend _ _⟩ (by decide +kernel)
  exact ⟨beforeSwap_storesOnly, sameSpace.mpr beforeSwap_storesOnly⟩

/-- After the swap the instance with the new encoder is handed the row that the
old one embedded. -/
theorem swapped_encoder_recalls_old_space :
    ¬ ∀ query k items,
      (⟨plainBackend, swapEncoder⟩ : PgVectorMemoryStore).recallItems
          query swapScope k swapTable = .ok items →
        ∀ item ∈ items, item.encoderId = some swapEncoder := by
  intro keepsSpace
  have recalled :
      (⟨plainBackend, swapEncoder⟩ : PgVectorMemoryStore).recallItems
          "how to reach them?" swapScope 5 swapTable =
        .ok [{ swapItem with
          encoderId := some defaultEmbeddingModel, validFrom := some 0 }] := by
    decide +kernel
  have sameSpace := keepsSpace _ _ _ recalled _ List.mem_cons_self
  revert sameSpace
  decide

end MemoryHistory

end FableHarness
