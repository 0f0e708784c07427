import Mathlib.Algebra.Order.Ring.Rat
import FableHarness.Core.Python
import FableHarness.Library.OrderedDict

/-!
# Budgets

The resource ceiling of a run.  The agent library enforces the token and tool
call limits it is handed; the tracker adds wall-clock time and cost, in exact
arithmetic.  Times are seconds on one monotonic clock.
-/

namespace FableHarness

structure Budget where
  maxTotalTokens : Option Nat := none
  maxToolCalls : Option Nat := none
  maxWallClockSeconds : Option ℚ := none
  maxCostUsd : Option ℚ := none

structure BudgetStatus where
  tokensUsed : Nat := 0
  toolCallsUsed : Nat := 0
  elapsedSeconds : ℚ := 0
  costUsd : ℚ := 0
  exhaustedReason : Option String := none

def BudgetStatus.exhausted (status : BudgetStatus) : Bool :=
  status.exhaustedReason.isSome

/-- USD per 1K tokens. -/
structure ModelPricing where
  inputPer1k : ℚ := 0
  outputPer1k : ℚ := 0

/-- What `record_usage` adds to the cost, at a price. -/
def ModelPricing.cost (price : ModelPricing) (inputTokens outputTokens : Nat) : ℚ :=
  inputTokens / 1000 * price.inputPer1k + outputTokens / 1000 * price.outputPer1k

/-- `pydantic_ai.usage.UsageLimits`, as far as the harness sets it. -/
structure UsageLimits where
  totalTokensLimit : Option Nat
  toolCallsLimit : Option Nat

/-- What a tracker is constructed with; the changing part is a `BudgetStatus`. -/
structure BudgetTracker where
  budget : Budget
  modelId : String
  pricing : OrderedDict String ModelPricing := ∅
  start : ℚ

namespace BudgetTracker

def usageLimits (tracker : BudgetTracker) : UsageLimits where
  totalTokensLimit := tracker.budget.maxTotalTokens
  toolCallsLimit := tracker.budget.maxToolCalls

/-- The cost at the tracker's price; an unpriced model costs nothing. -/
def cost (tracker : BudgetTracker) (inputTokens outputTokens : Nat) : ℚ :=
  match tracker.pricing.get? tracker.modelId with
  | some price => price.cost inputTokens outputTokens
  | none => 0

def refreshWallClock (tracker : BudgetTracker) (now : ℚ)
    (status : BudgetStatus) : BudgetStatus :=
  { status with elapsedSeconds := now - tracker.start }

def wallClockExceeded (runtime : PyRuntime) (elapsed limit : ℚ) : String :=
  "wall_clock_exceeded:" ++ runtime.fixed 1 elapsed ++ "s>" ++
    runtime.float limit ++ "s"

def costExceeded (runtime : PyRuntime) (cost limit : ℚ) : String :=
  "cost_exceeded:$" ++ runtime.fixed 4 cost ++ ">$" ++ runtime.float limit

/-- The cost half of `_check_exhaustion`. -/
def checkCost (runtime : PyRuntime) (tracker : BudgetTracker)
    (status : BudgetStatus) : BudgetStatus :=
  match tracker.budget.maxCostUsd with
  | some limit =>
      if limit < status.costUsd then
        { status with
          exhaustedReason := some (costExceeded runtime status.costUsd limit) }
      else
        status
  | none => status

/-- The first reason is kept. -/
def checkExhaustion (runtime : PyRuntime) (tracker : BudgetTracker)
    (status : BudgetStatus) : BudgetStatus :=
  match status.exhaustedReason with
  | some _ => status
  | none =>
      match tracker.budget.maxWallClockSeconds with
      | some limit =>
          if limit < status.elapsedSeconds then
            { status with
              exhaustedReason :=
                some (wallClockExceeded runtime status.elapsedSeconds limit) }
          else
            checkCost runtime tracker status
      | none => checkCost runtime tracker status

def recordUsage (runtime : PyRuntime) (tracker : BudgetTracker)
    (inputTokens outputTokens toolCalls : Nat) (now : ℚ)
    (status : BudgetStatus) : BudgetStatus :=
  let counted :=
    { status with
      tokensUsed := status.tokensUsed + (inputTokens + outputTokens)
      toolCallsUsed := toolCalls
      costUsd := status.costUsd + tracker.cost inputTokens outputTokens }
  checkExhaustion runtime tracker (refreshWallClock tracker now counted)

/-- `check_wall_clock`; the caller reads `exhausted` off the new status. -/
def checkWallClock (runtime : PyRuntime) (tracker : BudgetTracker) (now : ℚ)
    (status : BudgetStatus) : BudgetStatus :=
  checkExhaustion runtime tracker (refreshWallClock tracker now status)

/-! ## What a check leaves unexhausted -/

section Exhaustion

variable {runtime : PyRuntime} {tracker : BudgetTracker} {status : BudgetStatus}

/-- Every limit of the tracker's own is kept. -/
structure Within (tracker : BudgetTracker) (elapsed cost : ℚ) : Prop where
  wallClock :
    ∀ limit, tracker.budget.maxWallClockSeconds = some limit → elapsed ≤ limit
  cost : ∀ limit, tracker.budget.maxCostUsd = some limit → cost ≤ limit

theorem exhaustedReason_checkCost_eq_none
    (unexhausted :
      (checkCost runtime tracker status).exhaustedReason = none) :
    ∀ limit, tracker.budget.maxCostUsd = some limit → status.costUsd ≤ limit := by
  intro limit present
  unfold checkCost at unexhausted
  rw [present] at unexhausted
  by_cases exceeded : limit < status.costUsd
  · simp [exceeded] at unexhausted
  · exact not_lt.mp exceeded

/-- A status that a check leaves unexhausted was unexhausted and is within the
limits. -/
theorem within_of_checkExhaustion
    (unexhausted :
      (checkExhaustion runtime tracker status).exhaustedReason = none) :
    Within tracker status.elapsedSeconds status.costUsd := by
  unfold checkExhaustion at unexhausted
  cases before : status.exhaustedReason with
  | some reason =>
      rw [before] at unexhausted
      simp [before] at unexhausted
  | none =>
      rw [before] at unexhausted
      cases wall : tracker.budget.maxWallClockSeconds with
      | none =>
          rw [wall] at unexhausted
          exact
            ⟨by simp [wall], exhaustedReason_checkCost_eq_none unexhausted⟩
      | some limit =>
          rw [wall] at unexhausted
          by_cases exceeded : limit < status.elapsedSeconds
          · simp [exceeded] at unexhausted
          · simp only [exceeded, if_false] at unexhausted
            refine ⟨?_, exhaustedReason_checkCost_eq_none unexhausted⟩
            intro other same
            rw [wall] at same
            cases same
            exact not_lt.mp exceeded

/-- A check changes the reason at most. -/
theorem exists_checkExhaustion_eq (runtime : PyRuntime) (tracker : BudgetTracker)
    (status : BudgetStatus) :
    ∃ reason,
      checkExhaustion runtime tracker status =
        { status with exhaustedReason := reason } := by
  have costHalf :
      ∃ reason,
        checkCost runtime tracker status =
          { status with exhaustedReason := reason } := by
    unfold checkCost
    cases tracker.budget.maxCostUsd with
    | none => exact ⟨_, rfl⟩
    | some limit =>
        by_cases exceeded : limit < status.costUsd
        · exact ⟨_, if_pos exceeded⟩
        · exact ⟨_, if_neg exceeded⟩
  unfold checkExhaustion
  cases status.exhaustedReason with
  | some reason => exact ⟨_, rfl⟩
  | none =>
      cases tracker.budget.maxWallClockSeconds with
      | none => exact costHalf
      | some limit =>
          by_cases exceeded : limit < status.elapsedSeconds
          · exact ⟨_, if_pos exceeded⟩
          · simp only [exceeded, if_false]
            exact costHalf

@[simp]
theorem costUsd_checkExhaustion :
    (checkExhaustion runtime tracker status).costUsd = status.costUsd := by
  obtain ⟨reason, equality⟩ :=
    exists_checkExhaustion_eq runtime tracker status
  rw [equality]

@[simp]
theorem tokensUsed_checkExhaustion :
    (checkExhaustion runtime tracker status).tokensUsed = status.tokensUsed := by
  obtain ⟨reason, equality⟩ :=
    exists_checkExhaustion_eq runtime tracker status
  rw [equality]

@[simp]
theorem toolCallsUsed_checkExhaustion :
    (checkExhaustion runtime tracker status).toolCallsUsed =
      status.toolCallsUsed := by
  obtain ⟨reason, equality⟩ :=
    exists_checkExhaustion_eq runtime tracker status
  rw [equality]

@[simp]
theorem costUsd_recordUsage (inputTokens outputTokens toolCalls : Nat) (now : ℚ) :
    (recordUsage runtime tracker inputTokens outputTokens toolCalls now
        status).costUsd =
      status.costUsd + tracker.cost inputTokens outputTokens := by
  simp [recordUsage, refreshWallClock]

@[simp]
theorem tokensUsed_recordUsage (inputTokens outputTokens toolCalls : Nat)
    (now : ℚ) :
    (recordUsage runtime tracker inputTokens outputTokens toolCalls now
        status).tokensUsed =
      status.tokensUsed + (inputTokens + outputTokens) := by
  simp [recordUsage, refreshWallClock]

/-- The count of the call replaces the count so far. -/
@[simp]
theorem toolCallsUsed_recordUsage (inputTokens outputTokens toolCalls : Nat)
    (now : ℚ) :
    (recordUsage runtime tracker inputTokens outputTokens toolCalls now
        status).toolCallsUsed =
      toolCalls := by
  simp [recordUsage, refreshWallClock]

@[simp]
theorem tokensUsed_checkWallClock (now : ℚ) :
    (checkWallClock runtime tracker now status).tokensUsed =
      status.tokensUsed := by
  simp [checkWallClock, refreshWallClock]

/-- An unexhausted poll at `now` is within the limits then. -/
theorem within_of_checkWallClock {now : ℚ}
    (unexhausted :
      (checkWallClock runtime tracker now status).exhausted = false) :
    Within tracker (now - tracker.start) status.costUsd := by
  have open_ :
      (checkExhaustion runtime tracker
        (refreshWallClock tracker now status)).exhaustedReason = none := by
    simpa [BudgetStatus.exhausted, checkWallClock] using unexhausted
  exact within_of_checkExhaustion open_

end Exhaustion

end BudgetTracker

end FableHarness
