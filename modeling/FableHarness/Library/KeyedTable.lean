import Mathlib.Data.List.Nodup

/-!
# Tables with a primary key

A table is a list of rows in the order of their insertion whose keys are
pairwise different.  Rows are inserted unless their key is taken, and updated
in place without touching the key.
-/

universe u v

/-- Rows with pairwise different keys, oldest first. -/
structure KeyedTable {ρ : Type u} {κ : Type v} (key : ρ → κ) where
  rows : List ρ
  uniqueKeys : (rows.map key).Nodup

namespace KeyedTable

variable {ρ : Type u} {κ : Type v} {key : ρ → κ}

def empty : KeyedTable key := ⟨[], List.nodup_nil⟩

instance : EmptyCollection (KeyedTable key) := ⟨empty⟩

instance : Inhabited (KeyedTable key) := ⟨empty⟩

@[simp]
theorem rows_empty : (∅ : KeyedTable key).rows = [] :=
  rfl

def keys (table : KeyedTable key) : List κ := table.rows.map key

@[ext]
theorem ext {left right : KeyedTable key} (sameRows : left.rows = right.rows) :
    left = right := by
  cases left
  cases right
  cases sameRows
  rfl

theorem eq_of_key_eq (table : KeyedTable key) {left right : ρ}
    (leftMember : left ∈ table.rows) (rightMember : right ∈ table.rows)
    (sameKey : key left = key right) : left = right :=
  List.inj_on_of_nodup_map table.uniqueKeys leftMember rightMember sameKey

/-- A key tells whether its row is in a part of the table. -/
theorem key_mem_map_filter_iff (table : KeyedTable key) (part : ρ → Bool) {row : ρ}
    (member : row ∈ table.rows) :
    key row ∈ (table.rows.filter part).map key ↔ part row = true := by
  constructor
  · intro keyMember
    obtain ⟨other, inPart, sameKey⟩ := List.mem_map.mp keyMember
    obtain ⟨otherMember, held⟩ := List.mem_filter.mp inPart
    rwa [← table.eq_of_key_eq otherMember member sameKey]
  · intro held
    exact List.mem_map_of_mem (List.mem_filter.mpr ⟨member, held⟩)

/-! ## Insertion -/

/-- A row of the list whose key no earlier row of the list has. -/
def FirstWithKey (key : ρ → κ) (rows : List ρ) (row : ρ) : Prop :=
  ∃ earlier later,
    rows = earlier ++ row :: later ∧ key row ∉ earlier.map key

theorem FirstWithKey.mem {rows : List ρ} {row : ρ}
    (first : FirstWithKey key rows row) : row ∈ rows := by
  obtain ⟨earlier, later, equality, _⟩ := first
  rw [equality]
  exact List.mem_append_right earlier List.mem_cons_self

theorem firstWithKey_head (row : ρ) (rest : List ρ) :
    FirstWithKey key (row :: rest) row :=
  ⟨[], rest, rfl, List.not_mem_nil⟩

theorem FirstWithKey.cons {head row : ρ} {rest : List ρ}
    (different : key row ≠ key head) (first : FirstWithKey key rest row) :
    FirstWithKey key (head :: rest) row := by
  obtain ⟨earlier, later, equality, fresh⟩ := first
  refine ⟨head :: earlier, later, by rw [equality]; rfl, ?_⟩
  rw [List.map_cons, List.mem_cons, not_or]
  exact ⟨different, fresh⟩

section Insertion

variable [DecidableEq κ]

/-- `INSERT ... ON CONFLICT (key) DO NOTHING` -/
def insertAbsent (table : KeyedTable key) (row : ρ) : KeyedTable key :=
  if fresh : key row ∈ table.rows.map key then
    table
  else
    ⟨table.rows ++ [row], by
      rw [List.map_append, List.nodup_append]
      refine ⟨table.uniqueKeys, by simp, ?_⟩
      intro left leftMember right rightMember equal
      simp only [List.map_cons, List.map_nil, List.mem_singleton] at rightMember
      exact fresh (rightMember ▸ equal ▸ leftMember)⟩

theorem rows_insertAbsent (table : KeyedTable key) (row : ρ) :
    (table.insertAbsent row).rows =
      if key row ∈ table.keys then table.rows else table.rows ++ [row] := by
  unfold insertAbsent keys
  split <;> rfl

/-- Insert rows one after the other. -/
def insertAll (table : KeyedTable key) (rows : List ρ) : KeyedTable key :=
  rows.foldl insertAbsent table

@[simp]
theorem insertAll_nil (table : KeyedTable key) : table.insertAll [] = table :=
  rfl

@[simp]
theorem insertAll_cons (table : KeyedTable key) (row : ρ) (rest : List ρ) :
    table.insertAll (row :: rest) = (table.insertAbsent row).insertAll rest :=
  rfl

theorem insertAll_append (table : KeyedTable key) (earlier later : List ρ) :
    table.insertAll (earlier ++ later) =
      (table.insertAll earlier).insertAll later :=
  List.foldl_append

/-- An insertion appends, for every key that was absent, the first row it was
given with that key. -/
theorem rows_insertAll_first (table : KeyedTable key) (rows : List ρ) :
    ∃ added,
      (table.insertAll rows).rows = table.rows ++ added ∧
        (∀ row ∈ added, FirstWithKey key rows row ∧ key row ∉ table.keys) ∧
        ∀ row ∈ rows, key row ∈ table.keys ∨ key row ∈ added.map key := by
  induction rows generalizing table with
  | nil =>
      exact ⟨[], by simp, by simp, by simp⟩
  | cons row rest inductionHypothesis =>
      obtain ⟨added, grown, fromRest, covered⟩ :=
        inductionHypothesis (table.insertAbsent row)
      rw [insertAll_cons, grown]
      by_cases taken : key row ∈ table.keys
      · have unchanged : (table.insertAbsent row).rows = table.rows := by
          rw [rows_insertAbsent, if_pos taken]
        have sameKeys : (table.insertAbsent row).keys = table.keys := by
          rw [keys, unchanged, keys]
        rw [sameKeys] at fromRest covered
        refine ⟨added, by rw [unchanged], ?_, ?_⟩
        · intro later member
          obtain ⟨first, fresh⟩ := fromRest later member
          exact ⟨first.cons fun same => fresh (same ▸ taken), fresh⟩
        · intro later member
          rcases List.mem_cons.mp member with rfl | inRest
          · exact Or.inl taken
          · exact covered later inRest
      · have appended : (table.insertAbsent row).rows = table.rows ++ [row] := by
          rw [rows_insertAbsent, if_neg taken]
        have newKeys :
            (table.insertAbsent row).keys = table.keys ++ [key row] := by
          rw [keys, appended, List.map_append, keys]
          rfl
        rw [newKeys] at fromRest covered
        refine ⟨row :: added, by rw [appended]; simp, ?_, ?_⟩
        · intro later member
          rcases List.mem_cons.mp member with rfl | inAdded
          · exact ⟨firstWithKey_head _ rest, taken⟩
          · obtain ⟨first, fresh⟩ := fromRest later inAdded
            rw [List.mem_append, List.mem_singleton, not_or] at fresh
            exact ⟨first.cons fresh.2, fresh.1⟩
        · intro later member
          rw [List.map_cons, List.mem_cons]
          rcases List.mem_cons.mp member with rfl | inRest
          · exact Or.inr (Or.inl rfl)
          · rcases covered later inRest with old | new
            · rw [List.mem_append, List.mem_singleton] at old
              exact old.imp_right Or.inl
            · exact Or.inr (Or.inr new)

/-- An insertion only appends rows, and only rows it was given. -/
theorem rows_insertAll (table : KeyedTable key) (rows : List ρ) :
    ∃ added,
      (table.insertAll rows).rows = table.rows ++ added ∧
        ∀ row ∈ added, row ∈ rows ∧ key row ∉ table.keys := by
  obtain ⟨added, grown, fromRows, _⟩ := table.rows_insertAll_first rows
  refine ⟨added, grown, ?_⟩
  intro row member
  obtain ⟨first, fresh⟩ := fromRows row member
  exact ⟨first.mem, fresh⟩

/-- The rows that were there stay where they are. -/
theorem prefix_insertAll (table : KeyedTable key) (rows : List ρ) :
    table.rows <+: (table.insertAll rows).rows := by
  obtain ⟨added, grown, _⟩ := table.rows_insertAll rows
  exact ⟨added, grown.symm⟩

/-- An insertion appends some of the rows it was given, in their order. -/
theorem sublist_insertAll (table : KeyedTable key) (rows : List ρ) :
    ∃ added,
      (table.insertAll rows).rows = table.rows ++ added ∧ added.Sublist rows := by
  induction rows generalizing table with
  | nil => exact ⟨[], by simp, .refl []⟩
  | cons row rest inductionHypothesis =>
      obtain ⟨added, grown, fromRest⟩ :=
        inductionHypothesis (table.insertAbsent row)
      rw [insertAll_cons, grown, rows_insertAbsent]
      by_cases taken : key row ∈ table.keys
      · rw [if_pos taken]
        exact ⟨added, rfl, fromRest.cons row⟩
      · rw [if_neg taken, List.append_assoc]
        exact ⟨row :: added, rfl, fromRest.cons_cons row⟩

/-- Every row that was given has its key in the table afterwards. -/
theorem key_mem_keys_insertAll (table : KeyedTable key) {row : ρ} {rows : List ρ}
    (given : row ∈ rows) : key row ∈ (table.insertAll rows).keys := by
  obtain ⟨added, grown, _, covered⟩ := table.rows_insertAll_first rows
  unfold keys
  rw [grown, List.map_append, List.mem_append]
  exact covered row given

theorem keys_subset_insertAll (table : KeyedTable key) (rows : List ρ) :
    table.keys ⊆ (table.insertAll rows).keys := by
  obtain ⟨added, grown, _⟩ := table.rows_insertAll rows
  unfold keys
  rw [grown, List.map_append]
  exact List.subset_append_left _ _

/-- Rows whose keys are all taken change nothing. -/
theorem insertAll_of_taken {table : KeyedTable key} {rows : List ρ}
    (taken : ∀ row ∈ rows, key row ∈ table.keys) :
    table.insertAll rows = table := by
  obtain ⟨added, grown, fromRows⟩ := table.rows_insertAll rows
  have nothing : added = [] := by
    rw [List.eq_nil_iff_forall_not_mem]
    intro row member
    obtain ⟨given, fresh⟩ := fromRows row member
    exact fresh (taken row given)
  apply ext
  rw [grown, nothing, List.append_nil]

theorem mem_insertAll_of_mem {table : KeyedTable key} {row : ρ} (rows : List ρ)
    (member : row ∈ table.rows) : row ∈ (table.insertAll rows).rows := by
  obtain ⟨added, grown, _⟩ := table.rows_insertAll rows
  rw [grown]
  exact List.mem_append_left _ member

theorem mem_or_mem_of_mem_insertAll {table : KeyedTable key} {row : ρ}
    {rows : List ρ} (member : row ∈ (table.insertAll rows).rows) :
    row ∈ table.rows ∨ row ∈ rows := by
  obtain ⟨added, grown, fromRows⟩ := table.rows_insertAll rows
  rw [grown] at member
  rcases List.mem_append.mp member with old | new
  · exact Or.inl old
  · exact Or.inr (fromRows row new).1

end Insertion

/-! ## Update -/

/-- `UPDATE`: change every row in place. -/
def update (table : KeyedTable key) (change : ρ → ρ)
    (keepsKey : ∀ row, key (change row) = key row) : KeyedTable key :=
  ⟨table.rows.map change, by
    rw [List.map_map]
    have same : key ∘ change = key := funext keepsKey
    rw [same]
    exact table.uniqueKeys⟩

@[simp]
theorem rows_update (table : KeyedTable key) (change : ρ → ρ)
    (keepsKey : ∀ row, key (change row) = key row) :
    (table.update change keepsKey).rows = table.rows.map change :=
  rfl

@[simp]
theorem keys_update (table : KeyedTable key) (change : ρ → ρ)
    (keepsKey : ∀ row, key (change row) = key row) :
    (table.update change keepsKey).keys = table.keys := by
  unfold keys
  rw [rows_update, List.map_map]
  exact List.map_congr_left fun row _ => keepsKey row

/-! ## Part of a table -/

section Part

variable [DecidableEq κ] {part : ρ → Bool}

/-- Inserting outside a part of the table leaves the part alone. -/
theorem filter_insertAll_of_outside (table : KeyedTable key) {rows : List ρ}
    (outside : ∀ row ∈ rows, part row = false) :
    (table.insertAll rows).rows.filter part = table.rows.filter part := by
  obtain ⟨added, grown, fromRows⟩ := table.rows_insertAll rows
  have none : added.filter part = [] := by
    rw [List.filter_eq_nil_iff]
    intro row member
    simp [outside row (fromRows row member).1]
  rw [grown, List.filter_append, none, List.append_nil]

omit [DecidableEq κ] in
/-- A key that no row outside the part holds is looked up in the part alone. -/
theorem mem_keys_iff_of_apart {table : KeyedTable key} {wanted : κ}
    (apart : ∀ old ∈ table.rows, part old = false → key old ≠ wanted) :
    wanted ∈ table.keys ↔ wanted ∈ (table.rows.filter part).map key := by
  unfold keys
  rw [List.mem_map, List.mem_map]
  constructor
  · rintro ⟨old, member, sameKey⟩
    cases held : part old with
    | true => exact ⟨old, List.mem_filter.mpr ⟨member, held⟩, sameKey⟩
    | false => exact absurd sameKey (apart old member held)
  · rintro ⟨old, member, sameKey⟩
    exact ⟨old, (List.mem_filter.mp member).1, sameKey⟩

/-- A row outside the part was there before a row of the part was inserted. -/
theorem mem_of_mem_insertAbsent {table : KeyedTable key} {row old : ρ}
    (inside : part row = true) (outside : part old = false)
    (member : old ∈ (table.insertAbsent row).rows) : old ∈ table.rows := by
  have inserted : old ∈ (table.insertAll [row]).rows := member
  rcases mem_or_mem_of_mem_insertAll inserted with before | new
  · exact before
  · rw [List.mem_singleton.mp new, inside] at outside
    cases outside

/-- Two tables that agree on a part accept the same rows into it, provided no
row outside the part holds one of the new keys. -/
theorem filter_insertAll_congr {left right : KeyedTable key} {rows : List ρ}
    (agree : left.rows.filter part = right.rows.filter part)
    (inside : ∀ row ∈ rows, part row = true)
    (leftApart :
      ∀ old ∈ left.rows, part old = false → key old ∉ rows.map key)
    (rightApart :
      ∀ old ∈ right.rows, part old = false → key old ∉ rows.map key) :
    (left.insertAll rows).rows.filter part =
      (right.insertAll rows).rows.filter part := by
  induction rows generalizing left right with
  | nil =>
      exact agree
  | cons row rest inductionHypothesis =>
      have rowInside := inside row List.mem_cons_self
      have apart_head : ∀ table : KeyedTable key,
          (∀ old ∈ table.rows, part old = false →
            key old ∉ (row :: rest).map key) →
          ∀ old ∈ table.rows, part old = false → key old ≠ key row := by
        intro table apart old member held sameKey
        exact apart old member held (by simp [sameKey])
      have apart_insert : ∀ table : KeyedTable key,
          (∀ old ∈ table.rows, part old = false →
            key old ∉ (row :: rest).map key) →
          ∀ old ∈ (table.insertAbsent row).rows, part old = false →
            key old ∉ rest.map key := by
        intro table apart old member held later
        have before := mem_of_mem_insertAbsent rowInside held member
        exact apart old before held (List.mem_cons_of_mem _ later)
      rw [insertAll_cons, insertAll_cons]
      apply inductionHypothesis
      · -- Only rows of the part can hold the key, and there the tables agree.
        have sameTaken : key row ∈ left.keys ↔ key row ∈ right.keys := by
          rw [mem_keys_iff_of_apart (apart_head left leftApart),
            mem_keys_iff_of_apart (apart_head right rightApart), agree]
        rw [rows_insertAbsent, rows_insertAbsent]
        by_cases taken : key row ∈ right.keys
        · rw [if_pos taken, if_pos (sameTaken.mpr taken)]
          exact agree
        · rw [if_neg taken, if_neg (fun held => taken (sameTaken.mp held)),
            List.filter_append, List.filter_append, agree]
      · exact fun later member => inside later (List.mem_cons_of_mem _ member)
      · exact apart_insert left leftApart
      · exact apart_insert right rightApart

end Part

end KeyedTable
