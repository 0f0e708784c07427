import Mathlib.Order.Lattice
import Mathlib.Data.List.Forall2

/-!
# Rows with a validity interval

A row is valid from its start until its stop, which may still be open.  While
rows are only added and closed after an instant, the rows valid at that instant
stay what they were.
-/

universe u v w

/-- How to read a row: its start, its stop, and everything else. -/
structure ValidTime (ρ : Type u) (τ : Type v) (δ : Type w) where
  start : ρ → τ
  stop : ρ → Option τ
  data : ρ → δ

namespace ValidTime

variable {ρ : Type u} {τ : Type v} {δ : Type w} [LinearOrder τ]
  (reading : ValidTime ρ τ δ)

def validAt (instant : τ) (row : ρ) : Bool :=
  decide (reading.start row ≤ instant) &&
    match reading.stop row with
    | none => true
    | some stop => decide (instant < stop)

/-- The data of the rows valid at an instant. -/
def asOf (instant : τ) (rows : List ρ) : List δ :=
  (rows.filter (reading.validAt instant)).map reading.data

/-- The data of the rows that are not closed. -/
def live (rows : List ρ) : List δ :=
  (rows.filter fun row => (reading.stop row).isNone).map reading.data

/-- The row has started, and if it is closed, it is over. -/
structure Settled (instant : τ) (row : ρ) : Prop where
  started : reading.start row ≤ instant
  stopped : ∀ stop, reading.stop row = some stop → stop ≤ instant

/-- The row is the same, or it was closed after the instant. -/
structure ClosedAfter (instant : τ) (before after : ρ) : Prop where
  start : reading.start after = reading.start before
  data : reading.data after = reading.data before
  stop :
    reading.stop after = reading.stop before ∨
      reading.stop before = none ∧
        ∃ stop, instant < stop ∧ reading.stop after = some stop

/-- After the instant, rows were closed in place and rows were added. -/
def EvolvesAfter (instant : τ) (before after : List ρ) : Prop :=
  ∃ kept added,
    after = kept ++ added ∧
      List.Forall₂ (reading.ClosedAfter instant) before kept ∧
      ∀ row ∈ added, instant < reading.start row

variable {reading} {instant : τ}

/-- If everything is settled, what is valid is what is not closed. -/
theorem asOf_eq_live {rows : List ρ}
    (settled : ∀ row ∈ rows, reading.Settled instant row) :
    reading.asOf instant rows = reading.live rows := by
  unfold asOf live
  congr 1
  apply List.filter_congr
  intro row member
  have started := (settled row member).started
  unfold validAt
  cases closed : reading.stop row with
  | none => simp [started]
  | some stop =>
      have ended := (settled row member).stopped stop closed
      simp [not_lt.mpr ended]

theorem validAt_of_closedAfter {before after : ρ}
    (closed : reading.ClosedAfter instant before after) :
    reading.validAt instant after = reading.validAt instant before := by
  unfold validAt
  rw [closed.start]
  rcases closed.stop with same | ⟨wasOpen, stop, later, stops⟩
  · rw [same]
  · rw [wasOpen, stops]
    simp [later]

/-- What was valid at an instant does not change after it. -/
theorem asOf_of_evolvesAfter {before after : List ρ}
    (evolves : reading.EvolvesAfter instant before after) :
    reading.asOf instant after = reading.asOf instant before := by
  obtain ⟨kept, added, rfl, closed, new⟩ := evolves
  have nothingNew : added.filter (reading.validAt instant) = [] := by
    apply List.filter_eq_nil_iff.mpr
    intro row member
    have late : ¬ reading.start row ≤ instant := not_le.mpr (new row member)
    simp [validAt, late]
  unfold asOf
  rw [List.filter_append, nothingNew, List.append_nil]
  induction closed with
  | nil => rfl
  | cons head rest inductionHypothesis =>
      have sameValidity := validAt_of_closedAfter head
      rw [List.filter_cons, List.filter_cons, sameValidity]
      split
      · rw [List.map_cons, List.map_cons, head.data, inductionHypothesis]
      · exact inductionHypothesis

theorem closedAfter_refl (row : ρ) : reading.ClosedAfter instant row row :=
  ⟨rfl, rfl, Or.inl rfl⟩

theorem ClosedAfter.trans {first second third : ρ}
    (early : reading.ClosedAfter instant first second)
    (late : reading.ClosedAfter instant second third) :
    reading.ClosedAfter instant first third := by
  refine
    ⟨late.start.trans early.start, late.data.trans early.data, ?_⟩
  rcases late.stop with same | ⟨wasOpen, stop, later, stops⟩
  · rw [same]
    exact early.stop
  · rcases early.stop with same | ⟨_, other, _, closed⟩
    · exact Or.inr ⟨same.symm.trans wasOpen, stop, later, stops⟩
    · rw [wasOpen] at closed
      cases closed

theorem evolvesAfter_refl (rows : List ρ) :
    reading.EvolvesAfter instant rows rows :=
  ⟨rows, [], (List.append_nil rows).symm,
    List.forall₂_same.mpr fun row _ => closedAfter_refl row, by simp⟩

/-- No row disappears. -/
theorem exists_closedAfter_of_mem {before after : List ρ}
    (evolves : reading.EvolvesAfter instant before after) {row : ρ}
    (member : row ∈ before) :
    ∃ kept ∈ after, reading.ClosedAfter instant row kept := by
  obtain ⟨kept, added, rfl, closed, _⟩ := evolves
  induction closed with
  | nil => cases member
  | cons head rest inductionHypothesis =>
      rcases List.mem_cons.mp member with rfl | later
      · exact ⟨_, List.mem_cons_self, head⟩
      · obtain ⟨found, present, same⟩ := inductionHypothesis later
        exact ⟨found, List.mem_cons_of_mem _ present, same⟩

end ValidTime
