import Mathlib.Data.List.Basic

/-!
# Insertion-ordered dictionaries

A dictionary keeps the order in which its keys were first inserted and
overwrites a value in place.  Key uniqueness is part of the type, so a lookup
never has to choose between two entries.
-/

universe u v

/-- Key-value pairs in insertion order with pairwise different keys. -/
structure OrderedDict (α : Type u) (β : Type v) where
  entries : List (α × β)
  nodupKeys : (entries.map Prod.fst).Nodup

namespace OrderedDict

variable {α : Type u} {β : Type v}

def empty : OrderedDict α β := ⟨[], List.nodup_nil⟩

instance : EmptyCollection (OrderedDict α β) := ⟨empty⟩

instance : Inhabited (OrderedDict α β) := ⟨empty⟩

def keys (dict : OrderedDict α β) : List α := dict.entries.map Prod.fst

def values (dict : OrderedDict α β) : List β := dict.entries.map Prod.snd

variable [DecidableEq α]

/-- Overwrite the value of `key` in place, or append a new pair. -/
def setEntries (key : α) (value : β) : List (α × β) → List (α × β)
  | [] => [(key, value)]
  | (other, old) :: rest =>
      if other = key then
        (key, value) :: rest
      else
        (other, old) :: setEntries key value rest

theorem map_fst_setEntries (key : α) (value : β) :
    ∀ entries : List (α × β),
      (setEntries key value entries).map Prod.fst =
        if key ∈ entries.map Prod.fst then
          entries.map Prod.fst
        else
          entries.map Prod.fst ++ [key]
  | [] => by simp [setEntries]
  | (other, old) :: rest => by
      have tail := map_fst_setEntries key value rest
      by_cases same : other = key
      · subst same
        simp [setEntries]
      · have different : key ≠ other := fun equal => same equal.symm
        rw [setEntries, if_neg same, List.map_cons, tail]
        by_cases later : key ∈ rest.map Prod.fst
        · simp only [later, if_true, List.map_cons, List.mem_cons, or_true]
        · simp only [later, if_false, List.map_cons, List.mem_cons,
            different, or_self, List.cons_append]

def set (dict : OrderedDict α β) (key : α) (value : β) : OrderedDict α β where
  entries := setEntries key value dict.entries
  nodupKeys := by
    rw [map_fst_setEntries]
    split
    · exact dict.nodupKeys
    · rename_i fresh
      exact List.nodup_append.mpr
        ⟨dict.nodupKeys, by simp, by
          intro left leftMember right rightMember equal
          simp only [List.mem_singleton] at rightMember
          exact fresh (rightMember ▸ equal ▸ leftMember)⟩

def get? (dict : OrderedDict α β) (key : α) : Option β :=
  dict.entries.lookup key

@[simp]
theorem get?_empty (key : α) : (∅ : OrderedDict α β).get? key = none :=
  rfl

theorem lookup_setEntries (key wanted : α) (value : β) :
    ∀ entries : List (α × β),
      (setEntries key value entries).lookup wanted =
        if wanted = key then some value else entries.lookup wanted
  | [] => by
      by_cases same : wanted = key
      · simp [setEntries, same]
      · simp [setEntries, List.lookup_cons, same,
          beq_eq_false_iff_ne.mpr same]
  | (other, old) :: rest => by
      have tail := lookup_setEntries key wanted value rest
      by_cases overwritten : other = key
      · subst overwritten
        by_cases same : wanted = other
        · simp [setEntries, same]
        · simp [setEntries, List.lookup_cons, same, beq_eq_false_iff_ne.mpr same]
      · rw [setEntries, if_neg overwritten, List.lookup_cons, tail,
          List.lookup_cons]
        by_cases here : wanted = other
        · subst here
          simp [overwritten]
        · simp [beq_eq_false_iff_ne.mpr here]

theorem get?_set (dict : OrderedDict α β) (key wanted : α) (value : β) :
    (dict.set key value).get? wanted =
      if wanted = key then some value else dict.get? wanted :=
  lookup_setEntries key wanted value dict.entries

@[simp]
theorem get?_set_self (dict : OrderedDict α β) (key : α) (value : β) :
    (dict.set key value).get? key = some value := by
  simp [get?_set]

theorem mem_entries_iff {dict : OrderedDict α β} {key : α} {value : β} :
    (key, value) ∈ dict.entries ↔ dict.get? key = some value := by
  have lookup :
      ∀ entries : List (α × β), (entries.map Prod.fst).Nodup →
        ((key, value) ∈ entries ↔ entries.lookup key = some value) := by
    intro entries distinct
    induction entries with
    | nil => simp
    | cons entry rest inductionHypothesis =>
        obtain ⟨other, old⟩ := entry
        rw [List.map_cons, List.nodup_cons] at distinct
        rw [List.mem_cons, inductionHypothesis distinct.2, List.lookup_cons]
        by_cases same : key = other
        · subst same
          have absent : rest.lookup key ≠ some value := by
            intro found
            have member := (inductionHypothesis distinct.2).mpr found
            exact distinct.1 (List.mem_map.mpr ⟨_, member, rfl⟩)
          simp [absent, eq_comm]
        · simp [same, beq_eq_false_iff_ne.mpr same]
  exact lookup dict.entries dict.nodupKeys

/-- The values are what the keys look up. -/
theorem mem_values_iff {dict : OrderedDict α β} {value : β} :
    value ∈ dict.values ↔ ∃ key, dict.get? key = some value := by
  unfold values
  rw [List.mem_map]
  constructor
  · intro member
    obtain ⟨⟨key, found⟩, present, same⟩ := member
    rw [← same]
    exact ⟨key, mem_entries_iff.mp present⟩
  · intro lookup
    obtain ⟨key, found⟩ := lookup
    exact ⟨(key, value), mem_entries_iff.mpr found, rfl⟩

/-- Change every value in place, by its key. -/
def mapValues {γ : Type*} (change : α → β → γ) (dict : OrderedDict α β) :
    OrderedDict α γ where
  entries := dict.entries.map fun entry => (entry.1, change entry.1 entry.2)
  nodupKeys := by
    rw [List.map_map]
    exact dict.nodupKeys

theorem get?_mapValues {γ : Type*} (change : α → β → γ) (dict : OrderedDict α β)
    (key : α) :
    (dict.mapValues change).get? key = (dict.get? key).map (change key) := by
  show (dict.entries.map _).lookup key = (dict.entries.lookup key).map (change key)
  induction dict.entries with
  | nil => rfl
  | cons entry rest inductionHypothesis =>
      obtain ⟨other, value⟩ := entry
      rw [List.map_cons, List.lookup_cons, List.lookup_cons]
      by_cases same : key = other
      · subst same
        simp
      · simp only [beq_eq_false_iff_ne.mpr same, inductionHypothesis]

/-- Insert pairs one after the other; a repeated key keeps its first place and
its last value. -/
def ofList (pairs : List (α × β)) : OrderedDict α β :=
  pairs.foldl (fun dict pair => dict.set pair.1 pair.2) ∅

/-- Set pairs one after the other. -/
def setAll (dict : OrderedDict α β) (pairs : List (α × β)) : OrderedDict α β :=
  pairs.foldl (fun dict pair => dict.set pair.1 pair.2) dict

@[simp]
theorem setAll_cons (dict : OrderedDict α β) (pair : α × β)
    (rest : List (α × β)) :
    dict.setAll (pair :: rest) = (dict.set pair.1 pair.2).setAll rest :=
  rfl

/-- A key that is not set keeps its value. -/
theorem get?_setAll_of_not_mem {dict : OrderedDict α β} {pairs : List (α × β)}
    {key : α} (absent : key ∉ pairs.map Prod.fst) :
    (dict.setAll pairs).get? key = dict.get? key := by
  induction pairs generalizing dict with
  | nil => rfl
  | cons pair rest inductionHypothesis =>
      rw [List.map_cons, List.mem_cons, not_or] at absent
      rw [setAll_cons, inductionHypothesis absent.2, get?_set, if_neg absent.1]

/-- Among different keys, each one that is set has its value. -/
theorem get?_setAll_of_mem {dict : OrderedDict α β} {pairs : List (α × β)}
    (nodup : (pairs.map Prod.fst).Nodup) {pair : α × β} (member : pair ∈ pairs) :
    (dict.setAll pairs).get? pair.1 = some pair.2 := by
  induction pairs generalizing dict with
  | nil => cases member
  | cons first rest inductionHypothesis =>
      rw [List.map_cons, List.nodup_cons] at nodup
      rw [setAll_cons]
      rcases List.mem_cons.mp member with rfl | later
      · rw [get?_setAll_of_not_mem nodup.1, get?_set_self]
      · exact inductionHypothesis nodup.2 later

end OrderedDict
