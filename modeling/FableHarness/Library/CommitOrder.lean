import Mathlib.Data.List.Induction
import FableHarness.Library.LabelledRun

/-!
# Serializability in the order of the commits

A machine on which calls are started and, some steps later, committed.  The
recorded machine keeps the calls in the order of their starts and the commits in
their order.  A run is serial if the committed calls, performed one after the
other, give the same data and the same answers; it is so all along exactly if
every commit acts on the data of the moment as its call does.
-/

namespace CommitOrder

open LabelledRun

universe u v w x y

variable {S : Type u} {L : Type v} {C : Type w} {D : Type x} {A : Type y}

/-! ## Performing calls one by one -/

/-- The answers of the calls, in their order, and the data they leave. -/
def replay (perform : C → D → A × D) (data : D) : List C → List A × D
  | [] => ([], data)
  | call :: rest =>
      ((perform call data).1 :: (replay perform (perform call data).2 rest).1,
        (replay perform (perform call data).2 rest).2)

theorem replay_concat (perform : C → D → A × D) (data : D) (earlier : List C)
    (last : C) :
    replay perform data (earlier ++ [last]) =
      ((replay perform data earlier).1 ++
          [(perform last (replay perform data earlier).2).1],
        (perform last (replay perform data earlier).2).2) := by
  induction earlier generalizing data with
  | nil => rfl
  | cons call rest inductionHypothesis =>
      rw [List.cons_append, replay, inductionHypothesis, replay, List.cons_append]

/-! ## The recorded machine -/

/-- A concurrent machine: which calls its labels start, which calls they commit,
and what can be seen of its states. -/
structure Machine (S : Type u) (L : Type v) (C : Type w) (D : Type x)
    (A : Type y) where
  step : S → L → S
  starts : S → L → Option C
  /-- The number of the committed call, counted from the first start. -/
  commits : S → L → Option Nat
  data : S → D
  answer : S → Nat → Option A
  perform : C → D → A × D

/-- A state with the calls started and the numbers of the calls committed. -/
structure Recorded (S : Type u) (C : Type w) where
  state : S
  calls : List C := []
  order : List Nat := []

/-- The committed calls, in the order of their commits. -/
def Recorded.committed (recorded : Recorded S C) : List C :=
  recorded.order.filterMap fun index => recorded.calls[index]?

namespace Machine

variable (machine : Machine S L C D A)

def record (recorded : Recorded S C) (label : L) : Recorded S C where
  state := machine.step recorded.state label
  calls := recorded.calls ++ (machine.starts recorded.state label).toList
  order := recorded.order ++ (machine.commits recorded.state label).toList

/-- The run of the machine from a state in which no call is under way. -/
def recordedRun (start : S) (schedule : List L) : Recorded S C :=
  run machine.record { state := start } schedule

@[simp]
theorem recordedRun_nil (start : S) :
    machine.recordedRun start [] = { state := start } :=
  rfl

theorem recordedRun_concat (start : S) (earlier : List L) (label : L) :
    machine.recordedRun start (earlier ++ [label]) =
      machine.record (machine.recordedRun start earlier) label :=
  run_concat _ _ _ _

/-- Recording does not interfere. -/
theorem state_recordedRun (start : S) (schedule : List L) :
    (machine.recordedRun start schedule).state =
      run machine.step start schedule := by
  induction schedule using List.reverseRecOn with
  | nil => rfl
  | append_singleton earlier label inductionHypothesis =>
      rw [recordedRun_concat, run_concat, ← inductionHypothesis]
      rfl

/-- The data and the answers are those of the committed calls, performed one
after the other. -/
structure IsSerial (start : S) (recorded : Recorded S C) : Prop where
  data :
    (replay machine.perform (machine.data start) recorded.committed).2 =
      machine.data recorded.state
  answers :
    (replay machine.perform (machine.data start) recorded.committed).1.map some =
      recorded.order.map (machine.answer recorded.state)

/-- In every state of the run, what was committed so far is serial. -/
def Serializable (start : S) (schedule : List L) : Prop :=
  ∀ earlier later,
    schedule = earlier ++ later →
      machine.IsSerial start (machine.recordedRun start earlier)

/-- A step that commits a call leaves the answer and the data that the call, made
in this state, would leave. -/
def ActsAtomically (recorded : Recorded S C) (label : L) : Prop :=
  ∀ index call,
    machine.commits recorded.state label = some index →
      recorded.calls[index]? = some call →
        machine.answer (machine.step recorded.state label) index =
            some (machine.perform call (machine.data recorded.state)).1 ∧
          machine.data (machine.step recorded.state label) =
            (machine.perform call (machine.data recorded.state)).2

/-- What a recording relies on: only commits change the data, answers stay, and
what is committed was started. -/
structure Lawful (valid : Recorded S C → Prop) : Prop where
  quiet :
    ∀ recorded label, valid recorded →
      machine.commits recorded.state label = none →
        machine.data (machine.step recorded.state label) =
          machine.data recorded.state
  stays :
    ∀ recorded label index answer, valid recorded →
      machine.answer recorded.state index = some answer →
        machine.answer (machine.step recorded.state label) index = some answer
  started :
    ∀ recorded label index, valid recorded →
      machine.commits recorded.state label = some index →
        index < recorded.calls.length
  kept :
    ∀ recorded label, valid recorded → valid (machine.record recorded label)

variable {machine} {valid : Recorded S C → Prop}

theorem Lawful.valid_recordedRun (lawful : machine.Lawful valid) {start : S}
    (begins : valid { state := start }) (schedule : List L) :
    valid (machine.recordedRun start schedule) :=
  run_invariant _ lawful.kept begins schedule

/-- Only calls that were started are committed. -/
theorem Lawful.indexed (lawful : machine.Lawful valid) {start : S}
    (begins : valid { state := start }) (schedule : List L) :
    ∀ index ∈ (machine.recordedRun start schedule).order,
      index < (machine.recordedRun start schedule).calls.length := by
  induction schedule using List.reverseRecOn with
  | nil => simp
  | append_singleton earlier label inductionHypothesis =>
      have before := lawful.valid_recordedRun begins earlier
      rw [recordedRun_concat]
      intro index member
      rw [record, List.length_append]
      rcases List.mem_append.mp member with old | new
      · exact Nat.lt_add_right _ (inductionHypothesis index old)
      · have committed := Option.mem_toList.mp new
        exact Nat.lt_add_right _ (lawful.started _ label index before committed)

/-! ## One step -/

section Step

variable {recorded : Recorded S C} {label : L}

/-- A step that commits nothing leaves the committed calls alone. -/
theorem committed_record_of_none
    (indexed : ∀ index ∈ recorded.order, index < recorded.calls.length)
    (quiet : machine.commits recorded.state label = none) :
    (machine.record recorded label).committed = recorded.committed := by
  unfold Recorded.committed record
  rw [quiet, Option.toList_none, List.append_nil]
  apply List.filterMap_congr
  intro index member
  exact List.getElem?_append_left (indexed index member)

/-- A step that commits a call appends it to the committed calls. -/
theorem committed_record_of_some {index : Nat} {call : C}
    (indexed : ∀ index ∈ recorded.order, index < recorded.calls.length)
    (commits : machine.commits recorded.state label = some index)
    (found : recorded.calls[index]? = some call) :
    (machine.record recorded label).committed = recorded.committed ++ [call] := by
  have inside : index < recorded.calls.length :=
    (List.getElem?_eq_some_iff.mp found).1
  have last :
      (recorded.calls ++ (machine.starts recorded.state label).toList)[index]? =
        some call := by
    rw [List.getElem?_append_left inside, found]
  unfold Recorded.committed record
  rw [commits, Option.toList_some, List.filterMap_append, List.filterMap_cons, last]
  refine congrArg (· ++ [call]) (List.filterMap_congr ?_)
  intro other member
  exact List.getElem?_append_left (indexed other member)

/-- Answers that were given are still the same after a step. -/
theorem Lawful.map_answer (lawful : machine.Lawful valid) (holds : valid recorded)
    {given : List A}
    (answers : given.map some = recorded.order.map (machine.answer recorded.state)) :
    recorded.order.map (machine.answer (machine.step recorded.state label)) =
      given.map some := by
  rw [answers]
  apply List.map_congr_left
  intro index member
  have inGiven : machine.answer recorded.state index ∈ given.map some := by
    rw [answers]
    exact List.mem_map_of_mem member
  obtain ⟨answer, _, same⟩ := List.mem_map.mp inGiven
  rw [← same]
  exact lawful.stays recorded label index answer holds same.symm

/-- From a serial state, a step leads to a serial one exactly if it acts
atomically. -/
theorem Lawful.isSerial_record_iff (lawful : machine.Lawful valid) {start : S}
    (holds : valid recorded)
    (indexed : ∀ index ∈ recorded.order, index < recorded.calls.length)
    (serial : machine.IsSerial start recorded) :
    machine.IsSerial start (machine.record recorded label) ↔
      machine.ActsAtomically recorded label := by
  have answers :
      recorded.order.map (machine.answer (machine.step recorded.state label)) =
        (replay machine.perform (machine.data start) recorded.committed).1.map some :=
    lawful.map_answer holds serial.answers
  cases commits : machine.commits recorded.state label with
  | none =>
      have same := committed_record_of_none indexed commits
      refine iff_of_true ⟨?_, ?_⟩ ?_
      · rw [same, serial.data]
        exact (lawful.quiet recorded label holds commits).symm
      · rw [same, record, commits, Option.toList_none, List.append_nil, answers]
      · intro index call committed
        rw [commits] at committed
        cases committed
  | some index =>
      have inside := lawful.started recorded label index holds commits
      have found : recorded.calls[index]? = some recorded.calls[index] :=
        List.getElem?_eq_getElem inside
      have grown := committed_record_of_some indexed commits found
      have order :
          (machine.record recorded label).order = recorded.order ++ [index] := by
        rw [record, commits, Option.toList_some]
      constructor
      · intro later other call committed started
        cases commits.symm.trans committed
        cases found.symm.trans started
        have data := later.data
        have given := later.answers
        rw [grown, replay_concat, serial.data] at data given
        rw [order, List.map_append, List.map_append] at given
        obtain ⟨_, last⟩ := List.append_inj' given rfl
        exact ⟨(List.cons.inj last).1.symm, data.symm⟩
      · intro atomic
        obtain ⟨answered, left⟩ := atomic index _ commits found
        constructor
        · rw [grown, replay_concat, serial.data]
          exact left.symm
        · rw [grown, replay_concat, serial.data, order, List.map_append,
            List.map_append, ← answers]
          exact congrArg (_ ++ [·]) answered.symm

end Step

/-! ## A whole run -/

/-- A run is serializable in the order of its commits exactly if every commit acts
atomically. -/
theorem Lawful.serializable_iff (lawful : machine.Lawful valid) {start : S}
    (begins : valid { state := start }) (schedule : List L) :
    machine.Serializable start schedule ↔
      Permitted machine.record machine.ActsAtomically { state := start }
        schedule := by
  have oneStep : ∀ (earlier : List L) (label : L),
      machine.IsSerial start (machine.recordedRun start earlier) →
        (machine.IsSerial start (machine.recordedRun start (earlier ++ [label])) ↔
          machine.ActsAtomically (machine.recordedRun start earlier) label) := by
    intro earlier label serial
    rw [recordedRun_concat]
    exact
      lawful.isSerial_record_iff (lawful.valid_recordedRun begins earlier)
        (lawful.indexed begins earlier) serial
  constructor
  · intro serializable initial label rest equality
    have before := serializable initial (label :: rest) equality
    apply (oneStep initial label before).mp
    exact serializable (initial ++ [label]) rest (by rw [equality]; simp)
  · intro permitted earlier
    induction earlier using List.reverseRecOn with
    | nil => exact fun _ _ => ⟨rfl, rfl⟩
    | append_singleton earlier label inductionHypothesis =>
        intro later equality
        have split : schedule = earlier ++ label :: later := by
          rw [equality, List.append_assoc, List.singleton_append]
        have before := inductionHypothesis (label :: later) split
        exact (oneStep earlier label before).mpr (permitted earlier label later split)

end Machine

end CommitOrder
