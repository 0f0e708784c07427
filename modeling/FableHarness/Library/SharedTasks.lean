import Mathlib.Data.List.Count
import Mathlib.Data.List.Perm.Basic
import Mathlib.Logic.Function.Basic
import FableHarness.Library.LabelledRun

/-!
# Tasks that share an environment

Each task has a phase of its own and advances it on a common environment.  Where
the advances of different tasks commute, a schedule comes to the same as every
reordering of it, and so to the tasks run one by one in any order.
-/

namespace SharedTasks

open LabelledRun

universe u v w

variable {ι : Type u} {P : Type v} {σ : Type w}

/-- Neither action sees whether the other has been taken, and the order in which
they are taken leaves no trace. -/
structure Commute {α β : Type*} (first : σ → α × σ) (second : σ → β × σ) : Prop where
  firstUnaware : ∀ env, (first (second env).2).1 = (first env).1
  secondUnaware : ∀ env, (second (first env).2).1 = (second env).1
  sameEnv : ∀ env, (second (first env).2).2 = (first (second env).2).2

section Actions

variable {α β γ δ : Type*}

/-- The action that only looks on. -/
def still (env : σ) : Unit × σ := ((), env)

theorem commute_still (action : σ → α × σ) : Commute action still where
  firstUnaware _ := rfl
  secondUnaware _ := rfl
  sameEnv _ := rfl

theorem Commute.symm {first : σ → α × σ} {second : σ → β × σ}
    (commute : Commute first second) : Commute second first where
  firstUnaware := commute.secondUnaware
  secondUnaware := commute.firstUnaware
  sameEnv env := (commute.sameEnv env).symm

/-- The action does to the environment what its core does, and tells no more. -/
structure ActsAs (action : σ → α × σ) (core : σ → β × σ) : Prop where
  sameEnv : ∀ env, (action env).2 = (core env).2
  determined :
    ∀ env other, (core env).1 = (core other).1 → (action env).1 = (action other).1

/-- Actions commute if their cores do. -/
theorem Commute.of_actsAs {first : σ → α × σ} {second : σ → β × σ}
    {core : σ → γ × σ} {secondCore : σ → δ × σ} (commute : Commute core secondCore)
    (acts : ActsAs first core) (secondActs : ActsAs second secondCore) :
    Commute first second where
  firstUnaware env := by
    apply acts.determined
    rw [secondActs.sameEnv]
    exact commute.firstUnaware env
  secondUnaware env := by
    apply secondActs.determined
    rw [acts.sameEnv]
    exact commute.secondUnaware env
  sameEnv env := by
    rw [secondActs.sameEnv, acts.sameEnv, acts.sameEnv, secondActs.sameEnv]
    exact commute.sameEnv env

/-- The action works on one part of the environment. -/
def OnPart {κ τ : Type*} [DecidableEq κ] (part : κ)
    (action : (κ → τ) → α × (κ → τ)) : Prop :=
  ∃ own : τ → α × τ, ∀ env,
    action env = ((own (env part)).1, Function.update env part (own (env part)).2)

/-- Actions on different parts commute. -/
theorem commute_of_onPart {κ τ : Type*} [DecidableEq κ] {part other : κ}
    (different : part ≠ other) {first : (κ → τ) → α × (κ → τ)}
    {second : (κ → τ) → β × (κ → τ)} (onFirst : OnPart part first)
    (onSecond : OnPart other second) : Commute first second := by
  obtain ⟨own, acts⟩ := onFirst
  obtain ⟨otherOwn, otherActs⟩ := onSecond
  constructor
  · intro env
    rw [acts, acts, otherActs]
    simp only [Function.update_of_ne different]
  · intro env
    rw [otherActs, otherActs, acts]
    simp only [Function.update_of_ne different.symm]
  · intro env
    rw [otherActs, acts, acts, otherActs]
    simp only [Function.update_of_ne different, Function.update_of_ne different.symm]
    exact Function.update_comm different _ _ _

end Actions

@[ext]
structure State (ι : Type u) (P : Type v) (σ : Type w) where
  env : σ
  phases : ι → P

variable [DecidableEq ι]

/-- Run one task to its next await point. -/
def step (advance : ι → P → σ → P × σ) (state : State ι P σ) (task : ι) :
    State ι P σ where
  env := (advance task (state.phases task) state.env).2
  phases :=
    Function.update state.phases task
      (advance task (state.phases task) state.env).1

/-- Each task keeps to its valid phases, and from these the advances of different
tasks commute. -/
structure Independent (advance : ι → P → σ → P × σ) (valid : ι → P → Prop) :
    Prop where
  keeps :
    ∀ {task phase}, valid task phase → ∀ env, valid task (advance task phase env).1
  commute :
    ∀ {first second}, first ≠ second →
      ∀ {phase other}, valid first phase → valid second other →
        Commute (advance first phase) (advance second other)

section Reordering

variable {advance : ι → P → σ → P × σ} {valid : ι → P → Prop}

theorem Independent.valid_step (independent : Independent advance valid)
    {state : State ι P σ} (isValid : ∀ task, valid task (state.phases task))
    (task : ι) : ∀ other, valid other ((step advance state task).phases other) := by
  intro other
  by_cases same : other = task
  · subst same
    have kept := independent.keeps (isValid other) state.env
    simpa only [step, Function.update_self] using kept
  · simpa only [step, Function.update_of_ne same] using isValid other

/-- Different tasks can be resumed in either order. -/
theorem Independent.step_comm (independent : Independent advance valid)
    {state : State ι P σ} (isValid : ∀ task, valid task (state.phases task))
    {first second : ι} (different : first ≠ second) :
    step advance (step advance state first) second =
      step advance (step advance state second) first := by
  have commute := independent.commute different (isValid first) (isValid second)
  have secondPhase :
      (step advance state first).phases second = state.phases second :=
    Function.update_of_ne different.symm _ _
  have firstPhase :
      (step advance state second).phases first = state.phases first :=
    Function.update_of_ne different _ _
  have laterSecond := commute.secondUnaware state.env
  have laterFirst := commute.firstUnaware state.env
  have sameEnv := commute.sameEnv state.env
  rw [step, secondPhase, step.eq_def _ (step advance state second), firstPhase]
  apply State.ext
  · exact sameEnv
  · simp only [step]
    rw [laterSecond, laterFirst, Function.update_comm different.symm]

/-- A reordered schedule comes to the same. -/
theorem Independent.run_perm (independent : Independent advance valid)
    {schedule other : List ι} (reordered : schedule.Perm other)
    {state : State ι P σ} (isValid : ∀ task, valid task (state.phases task)) :
    run (step advance) state schedule = run (step advance) state other := by
  induction reordered generalizing state with
  | nil => rfl
  | cons task _ inductionHypothesis =>
      rw [run_cons, run_cons]
      exact inductionHypothesis (independent.valid_step isValid task)
  | swap first second rest =>
      rw [run_cons, run_cons, run_cons, run_cons]
      by_cases same : second = first
      · rw [same]
      · rw [independent.step_comm isValid same]
  | trans _ _ firstHypothesis secondHypothesis =>
      exact (firstHypothesis isValid).trans (secondHypothesis isValid)

end Reordering

/-! ## One task after the other -/

/-- Resumptions of one task alone. -/
def drive (advance : P → σ → P × σ) : Nat → P → σ → P × σ
  | 0, phase, env => (phase, env)
  | count + 1, phase, env =>
      drive advance count (advance phase env).1 (advance phase env).2

section Drive

variable {advance : P → σ → P × σ} {finished : P → Prop}

theorem drive_finished
    (stays : ∀ {phase}, finished phase → ∀ env, advance phase env = (phase, env))
    {phase : P} (ended : finished phase) (env : σ) (count : Nat) :
    drive advance count phase env = (phase, env) := by
  induction count with
  | zero => rfl
  | succ count inductionHypothesis =>
      rw [drive, stays ended]
      exact inductionHypothesis

/-- However often a task is resumed, it finishes in one way. -/
theorem drive_unique
    (stays : ∀ {phase}, finished phase → ∀ env, advance phase env = (phase, env))
    {first second : Nat} {phase : P} {env : σ}
    (firstEnded : finished (drive advance first phase env).1)
    (secondEnded : finished (drive advance second phase env).1) :
    drive advance first phase env = drive advance second phase env := by
  induction first generalizing second phase env with
  | zero =>
      have ended : finished phase := firstEnded
      rw [drive_finished stays ended, drive_finished stays ended]
  | succ first inductionHypothesis =>
      cases second with
      | zero =>
          have ended : finished phase := secondEnded
          rw [drive_finished stays ended, drive_finished stays ended]
      | succ second => exact inductionHypothesis firstEnded secondEnded

end Drive

/-- The tasks of a list, each run to its end before the next one starts, and the
phases in which they end. -/
inductive OneByOne (advance : ι → P → σ → P × σ) (finished : P → Prop)
    (start : ι → P) : List ι → σ → List (ι × P) → σ → Prop where
  | nil (env : σ) : OneByOne advance finished start [] env [] env
  | cons {task : ι} {rest : List ι} {env middle after : σ} {phase : P}
      {outcomes : List (ι × P)} (count : Nat)
      (ran : drive (advance task) count (start task) env = (phase, middle))
      (ended : finished phase)
      (later : OneByOne advance finished start rest middle outcomes after) :
      OneByOne advance finished start (task :: rest) env ((task, phase) :: outcomes)
        after

section Sequential

variable {advance : ι → P → σ → P × σ} {finished : P → Prop}

theorem run_replicate (state : State ι P σ) (task : ι) (count : Nat) :
    run (step advance) state (List.replicate count task) =
      { env := (drive (advance task) count (state.phases task) state.env).2
        phases :=
          Function.update state.phases task
            (drive (advance task) count (state.phases task) state.env).1 } := by
  induction count generalizing state with
  | zero =>
      apply State.ext
      · rfl
      · exact (Function.update_eq_self _ _).symm
  | succ count inductionHypothesis =>
      rw [List.replicate_succ, run_cons, inductionHypothesis]
      have here :
          (step advance state task).phases task =
            (advance task (state.phases task) state.env).1 :=
        Function.update_self ..
      apply State.ext
      · rw [drive, here]
        rfl
      · rw [drive, here]
        exact Function.update_idem ..

/-- A schedule that resumes the tasks in blocks runs them one by one. -/
theorem oneByOne_of_blocks (counts : ι → Nat) {order : List ι}
    (nodup : order.Nodup) {state : State ι P σ} {start : ι → P}
    (fresh : ∀ task ∈ order, state.phases task = start task) :
    let after :=
      run (step advance) state
        (order.flatMap fun task => List.replicate (counts task) task)
    (∀ task ∈ order, finished (after.phases task)) →
      OneByOne advance finished start order state.env
          (order.map fun task => (task, after.phases task)) after.env ∧
        ∀ task ∉ order, after.phases task = state.phases task := by
  induction order generalizing state with
  | nil =>
      intro after _
      exact ⟨.nil state.env, fun _ _ => rfl⟩
  | cons task rest inductionHypothesis =>
      intro after ended
      obtain ⟨notLater, restNodup⟩ := List.nodup_cons.mp nodup
      let middle :=
        run (step advance) state (List.replicate (counts task) task)
      have middleEq : middle = _ := run_replicate state task (counts task)
      have splits :
          after =
            run (step advance) middle
              (rest.flatMap fun task => List.replicate (counts task) task) := by
        show run _ state (List.flatMap _ (task :: rest)) = _
        rw [List.flatMap_cons, run_append]
      have restFresh : ∀ later ∈ rest, middle.phases later = start later := by
        intro later member
        have different : later ≠ task := fun same => notLater (same ▸ member)
        rw [middleEq]
        show Function.update state.phases task _ later = start later
        rw [Function.update_of_ne different]
        exact fresh later (List.mem_cons_of_mem _ member)
      have restEnded :
          ∀ later ∈ rest,
            finished
              ((run (step advance) middle
                (rest.flatMap fun task =>
                  List.replicate (counts task) task)).phases later) := by
        intro later member
        rw [← splits]
        exact ended later (List.mem_cons_of_mem _ member)
      obtain ⟨laterRan, untouched⟩ :=
        inductionHypothesis restNodup restFresh restEnded
      rw [← splits] at laterRan untouched
      have own : after.phases task = middle.phases task := untouched task notLater
      have ran :
          drive (advance task) (counts task) (start task) state.env =
            (after.phases task, middle.env) := by
        rw [own, ← fresh task List.mem_cons_self]
        rw [middleEq]
        show _ = (Function.update state.phases task _ task, _)
        rw [Function.update_self]
      refine ⟨.cons (counts task) ran (ended task List.mem_cons_self) laterRan, ?_⟩
      intro other absent
      obtain ⟨different, notRest⟩ := not_or.mp (List.mem_cons.not.mp absent)
      rw [untouched other notRest, middleEq]
      exact Function.update_of_ne different _ _

theorem count_blocks (counts : ι → Nat) {order : List ι} (nodup : order.Nodup)
    (task : ι) :
    (order.flatMap fun other => List.replicate (counts other) other).count task =
      if task ∈ order then counts task else 0 := by
  induction order with
  | nil => rfl
  | cons first rest inductionHypothesis =>
      obtain ⟨notLater, restNodup⟩ := List.nodup_cons.mp nodup
      rw [List.flatMap_cons, List.count_append, inductionHypothesis restNodup,
        List.count_replicate]
      by_cases same : first = task
      · subst same
        simp [notLater]
      · have different : task ≠ first := fun equal => same equal.symm
        simp [same, different]

/-- A schedule is a reordering of the blocks that resume each task as often. -/
theorem perm_blocks {schedule order : List ι} (nodup : order.Nodup)
    (listed : ∀ task ∈ schedule, task ∈ order) :
    schedule.Perm
      (order.flatMap fun task => List.replicate (schedule.count task) task) := by
  rw [List.perm_iff_count]
  intro task
  rw [count_blocks (fun task => schedule.count task) nodup]
  by_cases member : task ∈ order
  · rw [if_pos member]
  · rw [if_neg member, List.count_eq_zero]
    exact fun scheduled => member (listed task scheduled)

/-- A schedule that finishes independent tasks comes to the tasks run one by one,
in any order. -/
theorem Independent.oneByOne {valid : ι → P → Prop}
    (independent : Independent advance valid) {order schedule : List ι}
    (nodup : order.Nodup) (listed : ∀ task ∈ schedule, task ∈ order)
    {state : State ι P σ} (isValid : ∀ task, valid task (state.phases task))
    (ended :
      ∀ task ∈ order,
        finished ((run (step advance) state schedule).phases task)) :
    let after := run (step advance) state schedule
    OneByOne advance finished state.phases order state.env
      (order.map fun task => (task, after.phases task)) after.env := by
  have reordered := perm_blocks nodup listed
  have same := independent.run_perm reordered isValid
  rw [same] at ended ⊢
  exact
    (oneByOne_of_blocks (fun task => schedule.count task) nodup
      (fun _ _ => rfl) ended).1

end Sequential

end SharedTasks
