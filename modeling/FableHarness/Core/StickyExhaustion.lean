import Mathlib.Tactic.Positivity
import Mathlib.Tactic.Ring
import FableHarness.Core.Budgets
import FableHarness.Library.LabelledRun

/-!
# Sticky exhaustion

A tracker stops looking once it has stored a reason.  Since neither the clock
nor the cost can fall, the stored reason still agrees with the totals at every
later call.
-/

namespace FableHarness

open LabelledRun

inductive BudgetCall where
  | recordUsage (inputTokens outputTokens toolCalls : Nat)
  | checkWallClock
deriving DecidableEq

namespace BudgetCall

def inputTokens : BudgetCall → Nat
  | recordUsage inputTokens _ _ => inputTokens
  | checkWallClock => 0

def outputTokens : BudgetCall → Nat
  | recordUsage _ outputTokens _ => outputTokens
  | checkWallClock => 0

end BudgetCall

/-- A call, and the clock when it refreshes the elapsed time. -/
structure TimedCall where
  now : ℚ
  call : BudgetCall

namespace BudgetTracker

/-- The new status, and what the call returns, if it returns anything. -/
def perform (runtime : PyRuntime) (tracker : BudgetTracker)
    (status : BudgetStatus) (timed : TimedCall) : BudgetStatus × Option Bool :=
  match timed.call with
  | .recordUsage inputTokens outputTokens toolCalls =>
      (recordUsage runtime tracker inputTokens outputTokens toolCalls timed.now
        status, none)
  | .checkWallClock =>
      let polled := checkWallClock runtime tracker timed.now status
      (polled, some polled.exhausted)

def step (runtime : PyRuntime) (tracker : BudgetTracker) (status : BudgetStatus)
    (timed : TimedCall) : BudgetStatus :=
  (tracker.perform runtime status timed).1

/-- The status after `calls`, from construction on. -/
def statusAfter (runtime : PyRuntime) (tracker : BudgetTracker)
    (calls : List TimedCall) : BudgetStatus :=
  run (step runtime tracker) {} calls

/-- The price of all the usage that `calls` record. -/
def pricedTotal (tracker : BudgetTracker) (calls : List TimedCall) : ℚ :=
  tracker.cost (calls.map (·.call.inputTokens)).sum
    (calls.map (·.call.outputTokens)).sum

/-- The wall-clock limit is set, and exceeded. -/
def OverTime (tracker : BudgetTracker) (elapsed : ℚ) : Prop :=
  ∃ limit, tracker.budget.maxWallClockSeconds = some limit ∧ limit < elapsed

/-- The cost limit is set, and exceeded. -/
def OverCost (tracker : BudgetTracker) (cost : ℚ) : Prop :=
  ∃ limit, tracker.budget.maxCostUsd = some limit ∧ limit < cost

def PricesNonneg (tracker : BudgetTracker) : Prop :=
  ∀ model price, tracker.pricing.get? model = some price →
    0 ≤ price.inputPer1k ∧ 0 ≤ price.outputPer1k

/-! ## Prices -/

section Prices

variable {tracker : BudgetTracker}

theorem cost_add (input output moreInput moreOutput : Nat) :
    tracker.cost (input + moreInput) (output + moreOutput) =
      tracker.cost input output + tracker.cost moreInput moreOutput := by
  unfold cost
  cases tracker.pricing.get? tracker.modelId with
  | none => simp
  | some price =>
      simp only [ModelPricing.cost, Nat.cast_add]
      ring

theorem cost_nonneg (nonneg : PricesNonneg tracker) (input output : Nat) :
    0 ≤ tracker.cost input output := by
  unfold cost
  cases priced : tracker.pricing.get? tracker.modelId with
  | none => exact le_rfl
  | some price =>
      obtain ⟨inputNonneg, outputNonneg⟩ := nonneg _ price priced
      have inputCost : 0 ≤ (input : ℚ) / 1000 * price.inputPer1k := by positivity
      have outputCost : 0 ≤ (output : ℚ) / 1000 * price.outputPer1k := by
        positivity
      exact add_nonneg inputCost outputCost

@[simp]
theorem cost_zero : tracker.cost 0 0 = 0 := by
  unfold cost
  cases tracker.pricing.get? tracker.modelId with
  | none => rfl
  | some price => simp [ModelPricing.cost]

theorem pricedTotal_concat (earlier : List TimedCall) (last : TimedCall) :
    tracker.pricedTotal (earlier ++ [last]) =
      tracker.pricedTotal earlier +
        tracker.cost last.call.inputTokens last.call.outputTokens := by
  simp [pricedTotal, cost_add]

end Prices

/-! ## One check -/

section Check

variable {runtime : PyRuntime} {tracker : BudgetTracker} {status : BudgetStatus}

theorem OverTime.mono {elapsed later : ℚ} (exceeded : OverTime tracker elapsed)
    (forward : elapsed ≤ later) : OverTime tracker later := by
  obtain ⟨limit, present, below⟩ := exceeded
  exact ⟨limit, present, below.trans_le forward⟩

theorem OverCost.mono {cost later : ℚ} (exceeded : OverCost tracker cost)
    (forward : cost ≤ later) : OverCost tracker later := by
  obtain ⟨limit, present, below⟩ := exceeded
  exact ⟨limit, present, below.trans_le forward⟩

theorem exhaustedReason_checkExhaustion_of_some {reason : String}
    (stored : status.exhaustedReason = some reason) :
    checkExhaustion runtime tracker status = status := by
  unfold checkExhaustion
  rw [stored]

/-- What a check stores where no reason was stored: the wall clock comes
first. -/
theorem exhaustedReason_checkExhaustion_of_none (runtime : PyRuntime)
    (tracker : BudgetTracker) (unset : status.exhaustedReason = none) :
    (OverTime tracker status.elapsedSeconds ∧
        ∃ limit, (checkExhaustion runtime tracker status).exhaustedReason =
          some (wallClockExceeded runtime status.elapsedSeconds limit)) ∨
      (¬ OverTime tracker status.elapsedSeconds ∧
        OverCost tracker status.costUsd ∧
        ∃ limit, (checkExhaustion runtime tracker status).exhaustedReason =
          some (costExceeded runtime status.costUsd limit)) ∨
      (¬ OverTime tracker status.elapsedSeconds ∧
        ¬ OverCost tracker status.costUsd ∧
        (checkExhaustion runtime tracker status).exhaustedReason = none) := by
  by_cases overTime : OverTime tracker status.elapsedSeconds
  · obtain ⟨limit, present, exceeded⟩ := overTime
    refine Or.inl ⟨⟨limit, present, exceeded⟩, limit, ?_⟩
    simp [checkExhaustion, unset, present, exceeded]
  · have costHalf :
        checkExhaustion runtime tracker status =
          checkCost runtime tracker status := by
      unfold checkExhaustion
      rw [unset]
      cases present : tracker.budget.maxWallClockSeconds with
      | none => rfl
      | some limit =>
          exact if_neg fun exceeded => overTime ⟨limit, present, exceeded⟩
    rw [costHalf]
    by_cases overCost : OverCost tracker status.costUsd
    · obtain ⟨limit, present, exceeded⟩ := overCost
      refine Or.inr (Or.inl ⟨overTime, ⟨limit, present, exceeded⟩, limit, ?_⟩)
      simp [checkCost, present, exceeded]
    · refine Or.inr (Or.inr ⟨overTime, overCost, ?_⟩)
      unfold checkCost
      cases present : tracker.budget.maxCostUsd with
      | none => exact unset
      | some limit =>
          have within : ¬ limit < status.costUsd :=
            fun exceeded => overCost ⟨limit, present, exceeded⟩
          simpa only [within, if_false] using unset

/-- A call refreshes the elapsed time and adds its usage before it checks. -/
theorem step_eq_checkExhaustion (runtime : PyRuntime) (tracker : BudgetTracker)
    (status : BudgetStatus) (timed : TimedCall) :
    ∃ refreshed : BudgetStatus,
      step runtime tracker status timed =
          checkExhaustion runtime tracker refreshed ∧
        refreshed.exhaustedReason = status.exhaustedReason ∧
        refreshed.elapsedSeconds = timed.now - tracker.start ∧
        refreshed.costUsd =
          status.costUsd +
            tracker.cost timed.call.inputTokens timed.call.outputTokens := by
  cases timed with
  | mk now call =>
      cases call with
      | recordUsage inputTokens outputTokens toolCalls =>
          exact ⟨_, rfl, rfl, rfl, rfl⟩
      | checkWallClock =>
          refine ⟨_, rfl, rfl, rfl, ?_⟩
          show status.costUsd = status.costUsd + tracker.cost 0 0
          rw [cost_zero, add_zero]

/-- A stored reason is kept. -/
theorem exhaustedReason_step_of_some {reason : String}
    (stored : status.exhaustedReason = some reason) (timed : TimedCall) :
    (step runtime tracker status timed).exhaustedReason = some reason := by
  obtain ⟨refreshed, equality, kept, _, _⟩ :=
    step_eq_checkExhaustion runtime tracker status timed
  rw [equality, exhaustedReason_checkExhaustion_of_some (kept.trans stored)]
  exact kept.trans stored

theorem costUsd_step (timed : TimedCall) :
    (step runtime tracker status timed).costUsd =
      status.costUsd +
        tracker.cost timed.call.inputTokens timed.call.outputTokens := by
  obtain ⟨refreshed, equality, _, _, cost⟩ :=
    step_eq_checkExhaustion runtime tracker status timed
  rw [equality, costUsd_checkExhaustion, cost]

end Check

/-! ## Sequences of calls -/

section Sequences

variable {runtime : PyRuntime} {tracker : BudgetTracker}

theorem statusAfter_concat (earlier : List TimedCall) (last : TimedCall) :
    statusAfter runtime tracker (earlier ++ [last]) =
      step runtime tracker (statusAfter runtime tracker earlier) last :=
  run_concat _ _ earlier last

theorem costUsd_statusAfter (calls : List TimedCall) :
    (statusAfter runtime tracker calls).costUsd = tracker.pricedTotal calls := by
  induction calls using List.reverseRecOn with
  | nil => exact cost_zero.symm
  | append_singleton earlier last inductionHypothesis =>
      rw [statusAfter_concat, costUsd_step, pricedTotal_concat,
        inductionHypothesis]

/-- Once a reason is stored, no call changes it. -/
theorem exhaustedReason_statusAfter_append {earlier : List TimedCall}
    {reason : String}
    (stored :
      (statusAfter runtime tracker earlier).exhaustedReason = some reason)
    (later : List TimedCall) :
    (statusAfter runtime tracker (earlier ++ later)).exhaustedReason =
      some reason := by
  induction later using List.reverseRecOn with
  | nil => rwa [List.append_nil]
  | append_singleton later last inductionHypothesis =>
      rw [← List.append_assoc, statusAfter_concat]
      exact exhaustedReason_step_of_some inductionHypothesis last

/-- The clock never goes back between two calls. -/
def ClockForward (calls : List TimedCall) : Prop :=
  calls.Pairwise fun earlier later => earlier.now ≤ later.now

/-- Some limit of the tracker's own is exceeded, by the elapsed time at `last`
or by all the usage recorded up to and with it. -/
def Exceeded (tracker : BudgetTracker) (earlier : List TimedCall)
    (last : TimedCall) : Prop :=
  OverTime tracker (last.now - tracker.start) ∨
    OverCost tracker (tracker.pricedTotal (earlier ++ [last]))

theorem pricedTotal_le_concat (nonneg : PricesNonneg tracker)
    (earlier : List TimedCall) (last : TimedCall) :
    tracker.pricedTotal earlier ≤ tracker.pricedTotal (earlier ++ [last]) := by
  rw [pricedTotal_concat]
  exact le_add_of_nonneg_right (cost_nonneg nonneg _ _)

/-- What is exceeded at a call is exceeded at the next. -/
theorem Exceeded.next {earlier : List TimedCall} {previous last : TimedCall}
    (nonneg : PricesNonneg tracker) (forward : previous.now ≤ last.now)
    (exceeded : Exceeded tracker earlier previous) :
    Exceeded tracker (earlier ++ [previous]) last := by
  rcases exceeded with overTime | overCost
  · exact Or.inl (overTime.mono (sub_le_sub_right forward _))
  · exact Or.inr (overCost.mono (pricedTotal_le_concat nonneg _ last))

/-- What one call stores where no reason was stored yet. -/
theorem statusAfter_concat_of_none {earlier : List TimedCall}
    (unset : (statusAfter runtime tracker earlier).exhaustedReason = none)
    (last : TimedCall) :
    (OverTime tracker (last.now - tracker.start) ∧
        ∃ limit,
          (statusAfter runtime tracker (earlier ++ [last])).exhaustedReason =
            some (wallClockExceeded runtime (last.now - tracker.start)
              limit)) ∨
      (¬ OverTime tracker (last.now - tracker.start) ∧
        OverCost tracker (tracker.pricedTotal (earlier ++ [last])) ∧
        ∃ limit,
          (statusAfter runtime tracker (earlier ++ [last])).exhaustedReason =
            some (costExceeded runtime
              (tracker.pricedTotal (earlier ++ [last])) limit)) ∨
      (¬ OverTime tracker (last.now - tracker.start) ∧
        ¬ OverCost tracker (tracker.pricedTotal (earlier ++ [last])) ∧
        (statusAfter runtime tracker (earlier ++ [last])).exhaustedReason =
          none) := by
  obtain ⟨refreshed, equality, kept, elapsed, cost⟩ :=
    step_eq_checkExhaustion runtime tracker (statusAfter runtime tracker earlier)
      last
  rw [costUsd_statusAfter, ← pricedTotal_concat] at cost
  have verdict :=
    exhaustedReason_checkExhaustion_of_none runtime tracker (kept.trans unset)
  rw [elapsed, cost] at verdict
  rw [statusAfter_concat, equality]
  exact verdict

theorem exhausted_eq_true_iff (status : BudgetStatus) :
    status.exhausted = true ↔
      ∃ reason, status.exhaustedReason = some reason :=
  Option.isSome_iff_exists

theorem exhausted_concat_iff_of_none {earlier : List TimedCall}
    (unset : (statusAfter runtime tracker earlier).exhaustedReason = none)
    (last : TimedCall) :
    (statusAfter runtime tracker (earlier ++ [last])).exhausted = true ↔
      Exceeded tracker earlier last := by
  rw [exhausted_eq_true_iff]
  rcases statusAfter_concat_of_none unset last with
    ⟨overTime, limit, stored⟩ | ⟨_, overCost, limit, stored⟩ |
      ⟨inTime, inCost, none⟩
  · exact iff_of_true ⟨_, stored⟩ (Or.inl overTime)
  · exact iff_of_true ⟨_, stored⟩ (Or.inr overCost)
  · rw [none]
    exact iff_of_false (by simp) (not_or.mpr ⟨inTime, inCost⟩)

/-- The stored verdict is the current one: totals and clock only grow. -/
theorem exhausted_statusAfter_iff (runtime : PyRuntime)
    (nonneg : PricesNonneg tracker) (earlier : List TimedCall) (last : TimedCall)
    (forward : ClockForward (earlier ++ [last])) :
    (statusAfter runtime tracker (earlier ++ [last])).exhausted = true ↔
      Exceeded tracker earlier last := by
  induction earlier using List.reverseRecOn generalizing last with
  | nil => exact exhausted_concat_iff_of_none rfl last
  | append_singleton earlier previous inductionHypothesis =>
      cases stored :
          (statusAfter runtime tracker
            (earlier ++ [previous])).exhaustedReason with
      | none => exact exhausted_concat_iff_of_none stored last
      | some reason =>
          obtain ⟨before, _, order⟩ := List.pairwise_append.mp forward
          have exceeded : Exceeded tracker earlier previous :=
            (inductionHypothesis previous before).mp
              ((exhausted_eq_true_iff _).mpr ⟨reason, stored⟩)
          have kept := exhaustedReason_statusAfter_append stored [last]
          refine
            iff_of_true ((exhausted_eq_true_iff _).mpr ⟨reason, kept⟩) ?_
          exact
            exceeded.next nonneg (order previous (by simp) last (by simp))

/-! ## What a reason names -/

def NamesWallClock (reason : String) : Prop :=
  ∃ rest, reason = "wall_clock_exceeded:" ++ rest

def NamesCost (reason : String) : Prop :=
  ∃ rest, reason = "cost_exceeded:$" ++ rest

theorem namesWallClock_wallClockExceeded (runtime : PyRuntime)
    (elapsed limit : ℚ) :
    NamesWallClock (wallClockExceeded runtime elapsed limit) :=
  ⟨runtime.fixed 1 elapsed ++ ("s>" ++ (runtime.float limit ++ "s")), by
    unfold wallClockExceeded
    rw [String.append_assoc, String.append_assoc, String.append_assoc]⟩

theorem namesCost_costExceeded (runtime : PyRuntime) (cost limit : ℚ) :
    NamesCost (costExceeded runtime cost limit) :=
  ⟨runtime.fixed 4 cost ++ (">$" ++ runtime.float limit), by
    unfold costExceeded
    rw [String.append_assoc, String.append_assoc]⟩

/-- No reason names both. -/
theorem not_namesCost_of_namesWallClock {reason : String}
    (wallClock : NamesWallClock reason) : ¬ NamesCost reason := by
  rintro ⟨rest, equality⟩
  obtain ⟨other, same⟩ := wallClock
  rw [same] at equality
  have heads := congrArg (fun text => text.toList.head?) equality
  simp at heads

/-- What holds after the call `last`, made after `earlier`. -/
structure AgreesWithTotals (runtime : PyRuntime) (tracker : BudgetTracker)
    (earlier : List TimedCall) (last : TimedCall) : Prop where
  exhausted :
    (statusAfter runtime tracker (earlier ++ [last])).exhausted = true ↔
      Exceeded tracker earlier last
  /-- `check_wall_clock` returns the verdict. -/
  returned :
    last.call = .checkWallClock →
      ∃ answer,
        (tracker.perform runtime (statusAfter runtime tracker earlier) last).2 =
            some answer ∧
          (answer = true ↔ Exceeded tracker earlier last)
  sticky :
    ∀ reason later,
      (statusAfter runtime tracker (earlier ++ [last])).exhaustedReason =
          some reason →
        (statusAfter runtime tracker
          ((earlier ++ [last]) ++ later)).exhaustedReason = some reason
  /-- The call that first sets a reason names what was exceeded then. -/
  named :
    ∀ reason,
      (statusAfter runtime tracker earlier).exhaustedReason = none →
      (statusAfter runtime tracker (earlier ++ [last])).exhaustedReason =
          some reason →
        (NamesWallClock reason ↔
            OverTime tracker (last.now - tracker.start)) ∧
          (NamesCost reason ↔
            ¬ OverTime tracker (last.now - tracker.start))

theorem named_of_none {earlier : List TimedCall} {last : TimedCall}
    {reason : String}
    (unset : (statusAfter runtime tracker earlier).exhaustedReason = none)
    (set :
      (statusAfter runtime tracker (earlier ++ [last])).exhaustedReason =
        some reason) :
    (NamesWallClock reason ↔ OverTime tracker (last.now - tracker.start)) ∧
      (NamesCost reason ↔
        ¬ OverTime tracker (last.now - tracker.start)) := by
  rcases statusAfter_concat_of_none unset last with
    ⟨overTime, limit, stored⟩ | ⟨inTime, _, limit, stored⟩ | ⟨_, _, none⟩
  · cases set.symm.trans stored
    have wallClock :=
      namesWallClock_wallClockExceeded runtime (last.now - tracker.start) limit
    exact
      ⟨iff_of_true wallClock overTime,
        iff_of_false (not_namesCost_of_namesWallClock wallClock)
          (not_not.mpr overTime)⟩
  · cases set.symm.trans stored
    have cost :=
      namesCost_costExceeded runtime (tracker.pricedTotal (earlier ++ [last]))
        limit
    exact
      ⟨iff_of_false
          (fun wallClock => not_namesCost_of_namesWallClock wallClock cost)
          inTime,
        iff_of_true cost inTime⟩
  · rw [none] at set
    cases set

/-- After every call the stored verdict agrees with clock and totals. -/
theorem sticky_exhaustion_agrees (runtime : PyRuntime) (tracker : BudgetTracker)
    (nonneg : PricesNonneg tracker) (calls : List TimedCall)
    (forward : ClockForward calls) :
    ∀ earlier last later, calls = earlier ++ last :: later →
      AgreesWithTotals runtime tracker earlier last := by
  rintro earlier last later rfl
  have upToLast : ClockForward (earlier ++ [last]) := by
    rw [List.append_cons] at forward
    exact (List.pairwise_append.mp forward).1
  have verdict :=
    exhausted_statusAfter_iff runtime nonneg earlier last upToLast
  exact
    { exhausted := verdict
      returned := by
        intro poll
        refine ⟨_, ?_, verdict⟩
        rw [statusAfter_concat]
        unfold step perform
        rw [poll]
      sticky := fun reason later stored =>
        exhaustedReason_statusAfter_append stored later
      named := fun reason => named_of_none }

/-- A second of wall clock and ten dollars for a priced model. -/
def pricedTracker : BudgetTracker where
  budget := { maxWallClockSeconds := some 1, maxCostUsd := some 10 }
  modelId := "test"
  pricing := .ofList [("test", ⟨3, 15⟩)]
  start := 0

theorem pricesNonneg_pricedTracker : PricesNonneg pricedTracker := by
  intro model price present
  by_cases priced : model = "test"
  · subst priced
    cases present
    exact ⟨by norm_num, by norm_num⟩
  · have absent : pricedTracker.pricing.get? model = none := by
      simp [pricedTracker, OrderedDict.ofList, OrderedDict.get?_set, priced]
    cases absent.symm.trans present

/-- A poll after two seconds, of a model that costs 105 cents so far. -/
theorem sticky_exhaustion_agrees_two_seconds :
    AgreesWithTotals ⟨fun _ => "{}", id, fun _ => "1.0", fun _ _ => "2.0"⟩
      pricedTracker [⟨1, .recordUsage 100 50 1⟩] ⟨2, .checkWallClock⟩ := by
  have forward :
      ClockForward [⟨1, .recordUsage 100 50 1⟩, ⟨2, .checkWallClock⟩] := by
    unfold ClockForward
    simp
  exact
    sticky_exhaustion_agrees _ pricedTracker pricesNonneg_pricedTracker
      [⟨1, .recordUsage 100 50 1⟩, ⟨2, .checkWallClock⟩] forward
      [⟨1, .recordUsage 100 50 1⟩] ⟨2, .checkWallClock⟩ [] rfl

end Sequences

end BudgetTracker

end FableHarness
