import FableHarness.Core.StickyExhaustion
import FableHarness.Library.Regrouping

/-!
# Usage totals

`record_usage` adds tokens and cost to the ledger, and puts the tool calls of
the last call in the place of those before it.  Tokens and cost are therefore
totals, however the usage is split over calls; the tool calls are not.
-/

namespace FableHarness

/-- The arguments of `record_usage`. -/
@[ext]
structure UsageCounts where
  inputTokens : Nat := 0
  outputTokens : Nat := 0
  toolCalls : Nat := 0

namespace UsageCounts

instance : Zero UsageCounts := ⟨{}⟩

instance : Add UsageCounts where
  add left right :=
    { inputTokens := left.inputTokens + right.inputTokens
      outputTokens := left.outputTokens + right.outputTokens
      toolCalls := left.toolCalls + right.toolCalls }

section Fields

variable (left right : UsageCounts)

@[simp]
theorem inputTokens_zero : (0 : UsageCounts).inputTokens = 0 :=
  rfl

@[simp]
theorem outputTokens_zero : (0 : UsageCounts).outputTokens = 0 :=
  rfl

@[simp]
theorem toolCalls_zero : (0 : UsageCounts).toolCalls = 0 :=
  rfl

@[simp]
theorem inputTokens_add :
    (left + right).inputTokens = left.inputTokens + right.inputTokens :=
  rfl

@[simp]
theorem outputTokens_add :
    (left + right).outputTokens = left.outputTokens + right.outputTokens :=
  rfl

@[simp]
theorem toolCalls_add : (left + right).toolCalls = left.toolCalls + right.toolCalls :=
  rfl

end Fields

instance : AddCommMonoid UsageCounts where
  add_assoc _ _ _ := by ext <;> simp [Nat.add_assoc]
  zero_add _ := by ext <;> simp
  add_zero _ := by ext <;> simp
  add_comm _ _ := by ext <;> simp [Nat.add_comm]
  nsmul := nsmulRec

theorem toolCalls_sum (counts : List UsageCounts) :
    counts.sum.toolCalls = (counts.map toolCalls).sum := by
  induction counts with
  | nil => rfl
  | cons first rest inductionHypothesis =>
      rw [List.sum_cons, toolCalls_add, inductionHypothesis, List.map_cons,
        List.sum_cons]

theorem toolCalls_sum_eq_zero_iff (counts : List UsageCounts) :
    counts.sum.toolCalls = 0 ↔ ∀ count ∈ counts, count.toolCalls = 0 := by
  rw [toolCalls_sum, List.sum_eq_zero_iff_forall_eq_nat]
  simp

end UsageCounts

/-- One `record_usage`, and the clock when it refreshes the elapsed time. -/
structure UsageReport where
  now : ℚ
  counts : UsageCounts

def UsageReport.call (report : UsageReport) : TimedCall :=
  ⟨report.now,
    .recordUsage report.counts.inputTokens report.counts.outputTokens
      report.counts.toolCalls⟩

/-- The counters of a `BudgetStatus`. -/
@[ext]
structure UsageLedger where
  tokensUsed : Nat
  toolCallsUsed : Nat
  costUsd : ℚ

def BudgetStatus.ledger (status : BudgetStatus) : UsageLedger where
  tokensUsed := status.tokensUsed
  toolCallsUsed := status.toolCallsUsed
  costUsd := status.costUsd

namespace BudgetTracker

/-- The ledger after these calls of `record_usage`, from construction on. -/
def ledgerAfter (runtime : PyRuntime) (tracker : BudgetTracker)
    (reports : List UsageReport) : UsageLedger :=
  (statusAfter runtime tracker (reports.map UsageReport.call)).ledger

def totalCounts (reports : List UsageReport) : UsageCounts :=
  (reports.map UsageReport.counts).sum

/-- The ledger of a total. -/
def ledgerOf (tracker : BudgetTracker) (total : UsageCounts) : UsageLedger where
  tokensUsed := total.inputTokens + total.outputTokens
  toolCallsUsed := total.toolCalls
  costUsd := tracker.cost total.inputTokens total.outputTokens

/-- The ledger holds the totals over the calls. -/
def LedgerIsTotal (runtime : PyRuntime) (tracker : BudgetTracker)
    (reports : List UsageReport) : Prop :=
  tracker.ledgerAfter runtime reports = tracker.ledgerOf (totalCounts reports)

/-- The totals are held, and splitting, merging and reordering the calls leaves
the ledger the same. -/
structure UsageIsAdditive (runtime : PyRuntime) (tracker : BudgetTracker)
    (reports : List UsageReport) : Prop where
  total : LedgerIsTotal runtime tracker reports
  regrouped :
    ∀ others : List UsageReport,
      Regrouped (reports.map UsageReport.counts) (others.map UsageReport.counts) →
        tracker.ledgerAfter runtime others = tracker.ledgerAfter runtime reports

section Totals

variable {runtime : PyRuntime} {tracker : BudgetTracker}

@[simp]
theorem totalCounts_concat (earlier : List UsageReport) (last : UsageReport) :
    totalCounts (earlier ++ [last]) = totalCounts earlier + last.counts := by
  unfold totalCounts
  rw [List.map_append, List.sum_append, List.map_singleton, List.sum_singleton]

/-! ## One call -/

theorem ledgerAfter_concat (earlier : List UsageReport) (last : UsageReport) :
    tracker.ledgerAfter runtime (earlier ++ [last]) =
      { tokensUsed :=
          (tracker.ledgerAfter runtime earlier).tokensUsed +
            (last.counts.inputTokens + last.counts.outputTokens)
        toolCallsUsed := last.counts.toolCalls
        costUsd :=
          (tracker.ledgerAfter runtime earlier).costUsd +
            tracker.cost last.counts.inputTokens last.counts.outputTokens } := by
  unfold ledgerAfter
  rw [List.map_append, List.map_singleton, statusAfter_concat]
  ext
  · exact tokensUsed_recordUsage _ _ _ _
  · exact toolCallsUsed_recordUsage _ _ _ _
  · exact costUsd_recordUsage _ _ _ _

/-! ## A sequence of calls -/

/-- Tokens are totals. -/
theorem tokensUsed_ledgerAfter (reports : List UsageReport) :
    (tracker.ledgerAfter runtime reports).tokensUsed =
      (totalCounts reports).inputTokens + (totalCounts reports).outputTokens := by
  induction reports using List.reverseRecOn with
  | nil => rfl
  | append_singleton earlier last inductionHypothesis =>
      rw [ledgerAfter_concat, totalCounts_concat, UsageCounts.inputTokens_add,
        UsageCounts.outputTokens_add, inductionHypothesis]
      exact Nat.add_add_add_comm _ _ _ _

/-- The cost is the price of the totals. -/
theorem costUsd_ledgerAfter (reports : List UsageReport) :
    (tracker.ledgerAfter runtime reports).costUsd =
      tracker.cost (totalCounts reports).inputTokens
        (totalCounts reports).outputTokens := by
  induction reports using List.reverseRecOn with
  | nil => exact cost_zero.symm
  | append_singleton earlier last inductionHypothesis =>
      rw [ledgerAfter_concat, totalCounts_concat, UsageCounts.inputTokens_add,
        UsageCounts.outputTokens_add, cost_add, inductionHypothesis]

/-- Only the tool calls can be wrong. -/
theorem ledgerIsTotal_iff_toolCalls (reports : List UsageReport) :
    LedgerIsTotal runtime tracker reports ↔
      (tracker.ledgerAfter runtime reports).toolCallsUsed =
        (totalCounts reports).toolCalls := by
  constructor
  · intro total
    rw [show tracker.ledgerAfter runtime reports = _ from total]
    rfl
  · intro sameToolCalls
    apply UsageLedger.ext
    · exact tokensUsed_ledgerAfter reports
    · exact sameToolCalls
    · exact costUsd_ledgerAfter reports

/-- The tool calls are right when nothing was overwritten. -/
theorem ledgerIsTotal_iff (reports : List UsageReport) :
    LedgerIsTotal runtime tracker reports ↔
      ∀ report ∈ reports.dropLast, report.counts.toolCalls = 0 := by
  rw [ledgerIsTotal_iff_toolCalls]
  induction reports using List.reverseRecOn with
  | nil => exact iff_of_true rfl (by simp)
  | append_singleton earlier last _ =>
      rw [ledgerAfter_concat, totalCounts_concat, UsageCounts.toolCalls_add,
        List.dropLast_concat]
      have earlierTotal := UsageCounts.toolCalls_sum_eq_zero_iff
        (earlier.map UsageReport.counts)
      rw [List.forall_mem_map] at earlierTotal
      rw [← earlierTotal]
      change last.counts.toolCalls =
        (totalCounts earlier).toolCalls + last.counts.toolCalls ↔
          (totalCounts earlier).toolCalls = 0
      omega

/-- Where no call records a tool call, neither does a regrouping. -/
theorem toolCalls_eq_zero_of_regrouped {reports others : List UsageReport}
    (regrouped :
      Regrouped (reports.map UsageReport.counts) (others.map UsageReport.counts))
    (none : ∀ report ∈ reports, report.counts.toolCalls = 0) :
    ∀ report ∈ others, report.counts.toolCalls = 0 := by
  have total : (others.map UsageReport.counts).sum.toolCalls = 0 := by
    rw [← regrouped.sum_eq, UsageCounts.toolCalls_sum_eq_zero_iff,
      List.forall_mem_map]
    exact none
  rwa [UsageCounts.toolCalls_sum_eq_zero_iff, List.forall_mem_map] at total

/-- A call without any usage, split off the last one. -/
theorem regrouped_concat_empty {reports : List UsageReport} (now : ℚ)
    (nonempty : reports ≠ []) :
    Regrouped (reports.map UsageReport.counts)
      ((reports ++ [(⟨now, 0⟩ : UsageReport)]).map UsageReport.counts) := by
  rw [Regrouped.iff_sum_eq (by simpa using nonempty) (by simp)]
  simp

theorem usageIsAdditive_iff (reports : List UsageReport) :
    UsageIsAdditive runtime tracker reports ↔
      ∀ report ∈ reports, report.counts.toolCalls = 0 := by
  constructor
  · intro additive
    by_cases nonempty : reports = []
    · rw [nonempty]
      simp
    · -- An empty call at the end would overwrite the count.
      have unchanged :=
        additive.regrouped _ (regrouped_concat_empty 0 nonempty)
      have overwritten := congrArg UsageLedger.toolCallsUsed unchanged
      rw [ledgerAfter_concat,
        (ledgerIsTotal_iff_toolCalls reports).mp additive.total] at overwritten
      have none :=
        (UsageCounts.toolCalls_sum_eq_zero_iff
          (reports.map UsageReport.counts)).mp overwritten.symm
      rwa [List.forall_mem_map] at none
  · intro none
    have totals : ∀ {sequence : List UsageReport},
        (∀ report ∈ sequence, report.counts.toolCalls = 0) →
          LedgerIsTotal runtime tracker sequence := by
      intro sequence spendsNone
      rw [ledgerIsTotal_iff]
      exact fun report member => spendsNone report (List.mem_of_mem_dropLast member)
    refine ⟨totals none, ?_⟩
    intro others regrouped
    have othersTotal := totals (toolCalls_eq_zero_of_regrouped regrouped none)
    calc
      tracker.ledgerAfter runtime others =
          tracker.ledgerOf (totalCounts others) := othersTotal
      _ = tracker.ledgerOf (totalCounts reports) := by
          unfold totalCounts
          rw [regrouped.sum_eq]
      _ = tracker.ledgerAfter runtime reports := (totals none).symm

/-- Usage recording is additive exactly for the sequences without tool calls, and
its ledger is the total exactly where only the last call may record some.  The
tokens and the cost are totals in every case. -/
theorem recordUsage_additive_iff (runtime : PyRuntime) (tracker : BudgetTracker)
    (reports : List UsageReport) :
    (UsageIsAdditive runtime tracker reports ↔
        ∀ report ∈ reports, report.counts.toolCalls = 0) ∧
      (LedgerIsTotal runtime tracker reports ↔
        ∀ report ∈ reports.dropLast, report.counts.toolCalls = 0) ∧
      (tracker.ledgerAfter runtime reports).tokensUsed =
        (tracker.ledgerOf (totalCounts reports)).tokensUsed ∧
      (tracker.ledgerAfter runtime reports).costUsd =
        (tracker.ledgerOf (totalCounts reports)).costUsd :=
  ⟨usageIsAdditive_iff reports, ledgerIsTotal_iff reports,
    tokensUsed_ledgerAfter reports, costUsd_ledgerAfter reports⟩

/-- Two turns of one tracker, with two and three tool calls. -/
def twoTurns : List UsageReport :=
  [⟨1, { toolCalls := 2 }⟩, ⟨2, { toolCalls := 3 }⟩]

/-- Without any limit, the ledger of two turns has the tool calls of the second
for a total. -/
theorem two_turns_not_additive :
    (ledgerAfter ⟨fun _ => "{}", id, fun _ => "1.0", fun _ _ => "2.0"⟩
        { budget := {}, modelId := "test", start := 0 } twoTurns).toolCallsUsed =
          3 ∧
      (totalCounts twoTurns).toolCalls = 5 ∧
      ¬ UsageIsAdditive ⟨fun _ => "{}", id, fun _ => "1.0", fun _ _ => "2.0"⟩
        { budget := {}, modelId := "test", start := 0 } twoTurns := by
  refine ⟨rfl, rfl, ?_⟩
  intro additive
  have same := (ledgerIsTotal_iff_toolCalls twoTurns).mp additive.total
  cases same

end Totals

end BudgetTracker

end FableHarness
