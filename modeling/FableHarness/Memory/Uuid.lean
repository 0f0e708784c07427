import FableHarness.Core.Python

/-!
# UUIDs and their text

`uuid.UUID(text)` accepts a `urn:uuid:` prefix, braces and dashes anywhere
around 32 hexadecimal digits; `str(uuid)` writes the canonical form.
-/

namespace FableHarness

/-- A 128-bit value, as its 32 hexadecimal digits. -/
structure Uuid where
  digits : List (Fin 16)
  length_digits : digits.length = 32
deriving DecidableEq

namespace Uuid

/-! ## String methods -/

/-- `text.replace(pattern, "")`; `skip` counts the characters of an occurrence
still to be dropped. -/
def removeFrom (pattern : List Char) : Nat → List Char → List Char
  | _, [] => []
  | skip + 1, _ :: rest => removeFrom pattern skip rest
  | 0, char :: rest =>
      if pattern.isPrefixOf (char :: rest) then
        removeFrom pattern (pattern.length - 1) rest
      else
        char :: removeFrom pattern 0 rest

def remove (pattern text : List Char) : List Char :=
  removeFrom pattern 0 text

def isBrace (char : Char) : Bool := char == '\x7b' || char == '\x7d'

/-- `text.strip` of both braces -/
def stripBraces (text : List Char) : List Char :=
  ((text.dropWhile isBrace).reverse.dropWhile isBrace).reverse

/-! ## Reading and writing -/

def hexValue (char : Char) : Option (Fin 16) :=
  if '0' ≤ char ∧ char ≤ '9' then
    some (Fin.ofNat 16 (char.toNat - '0'.toNat))
  else if 'a' ≤ char ∧ char ≤ 'f' then
    some (Fin.ofNat 16 (char.toNat - 'a'.toNat + 10))
  else if 'A' ≤ char ∧ char ≤ 'F' then
    some (Fin.ofNat 16 (char.toNat - 'A'.toNat + 10))
  else
    none

def readDigits : List Char → Option (List (Fin 16))
  | [] => some []
  | char :: rest =>
      match hexValue char, readDigits rest with
      | some digit, some digits => some (digit :: digits)
      | _, _ => none

theorem length_readDigits {text : List Char} {digits : List (Fin 16)}
    (read : readDigits text = some digits) : digits.length = text.length := by
  induction text generalizing digits with
  | nil =>
      cases read
      rfl
  | cons char rest inductionHypothesis =>
      unfold readDigits at read
      split at read
      · rename_i digit later _ readRest
        cases read
        rw [List.length_cons, List.length_cons, inductionHypothesis readRest]
      · cases read

def badlyFormed : PyExc :=
  .other "ValueError" "badly formed hexadecimal UUID string"

def invalidLiteral (text : List Char) : PyExc :=
  .other "ValueError" <|
    "invalid literal for int() with base 16: '" ++ String.ofList text ++ "'"

/-- `uuid.UUID(hex)` -/
def parse (hex : String) : Except PyExc Uuid :=
  let text :=
    remove "-".toList <| stripBraces <|
      remove "uuid:".toList <| remove "urn:".toList hex.toList
  if length : text.length = 32 then
    match read : readDigits text with
    | some digits => .ok ⟨digits, (length_readDigits read).trans length⟩
    | none => .error (invalidLiteral text)
  else
    .error badlyFormed

def hexText (digits : List (Fin 16)) : List Char :=
  digits.map fun digit => hexDigit digit.val

/-- `str(uuid)` -/
def str (uuid : Uuid) : String :=
  let hex := hexText uuid.digits
  String.ofList <|
    hex.take 8 ++ '-' :: ((hex.drop 8).take 4 ++ '-' :: ((hex.drop 12).take 4 ++
      '-' :: ((hex.drop 16).take 4 ++ '-' :: hex.drop 20)))

/-! ## A written UUID reads back -/

theorem remove_of_head_not_mem {head : Char} {tail text : List Char}
    (absent : head ∉ text) : remove (head :: tail) text = text := by
  unfold remove
  induction text with
  | nil =>
      rfl
  | cons char rest inductionHypothesis =>
      have different : (head == char) = false := by
        rw [beq_eq_false_iff_ne]
        exact fun same => absent (same ▸ List.mem_cons_self)
      rw [removeFrom, List.isPrefixOf_cons_cons, different, Bool.false_and,
        if_neg Bool.false_ne_true,
        inductionHypothesis fun later => absent (List.mem_cons_of_mem _ later)]

theorem remove_singleton (dropped : Char) (text : List Char) :
    remove [dropped] text = text.filter (· != dropped) := by
  unfold remove
  induction text with
  | nil =>
      rfl
  | cons char rest inductionHypothesis =>
      rw [removeFrom, List.isPrefixOf_cons_cons, List.isPrefixOf_nil_left,
        Bool.and_true]
      by_cases same : dropped = char
      · rw [if_pos (beq_iff_eq.mpr same), List.length_singleton, Nat.sub_self,
          inductionHypothesis, List.filter_cons_of_neg (by simp [same])]
      · have kept : (char != dropped) = true := bne_iff_ne.mpr (Ne.symm same)
        rw [if_neg (by simpa using same), inductionHypothesis,
          List.filter_cons_of_pos (p := (· != dropped)) kept]

theorem stripBraces_of_no_brace {text : List Char}
    (plain : ∀ char ∈ text, isBrace char = false) :
    stripBraces text = text := by
  have keeps : ∀ list : List Char,
      (∀ char ∈ list, isBrace char = false) → list.dropWhile isBrace = list := by
    intro list clean
    cases list with
    | nil =>
        rfl
    | cons char rest =>
        rw [List.dropWhile_cons_of_neg]
        simp [clean char List.mem_cons_self]
  unfold stripBraces
  rw [keeps text plain, keeps text.reverse (by simpa using plain),
    List.reverse_reverse]

/-- What a character of a canonical text is not. -/
theorem hexDigit_plain (digit : Fin 16) :
    hexDigit digit.val ≠ 'u' ∧ hexDigit digit.val ≠ '-' ∧
      isBrace (hexDigit digit.val) = false := by
  revert digit
  decide

theorem hexValue_hexDigit (digit : Fin 16) :
    hexValue (hexDigit digit.val) = some digit := by
  revert digit
  decide

theorem readDigits_hexText (digits : List (Fin 16)) :
    readDigits (hexText digits) = some digits := by
  induction digits with
  | nil =>
      rfl
  | cons digit rest inductionHypothesis =>
      have tail : readDigits (rest.map fun digit => hexDigit digit.val) = some rest :=
        inductionHypothesis
      rw [hexText, List.map_cons, readDigits, hexValue_hexDigit, tail]

theorem mem_str {uuid : Uuid} {char : Char} (member : char ∈ uuid.str.toList) :
    char = '-' ∨ ∃ digit : Fin 16, char = hexDigit digit.val := by
  have written : ∀ part : List Char, (∀ each ∈ part, each ∈ hexText uuid.digits) →
      char ∈ part → ∃ digit : Fin 16, char = hexDigit digit.val := by
    intro part subset inside
    obtain ⟨digit, _, equal⟩ := List.mem_map.mp (subset char inside)
    exact ⟨digit, equal.symm⟩
  have middle : ∀ start, char ∈ ((hexText uuid.digits).drop start).take 4 →
      ∃ digit : Fin 16, char = hexDigit digit.val :=
    fun start =>
      written _ fun _ inside => List.mem_of_mem_drop (List.mem_of_mem_take inside)
  simp only [str, String.toList_ofList, List.mem_append, List.mem_cons] at member
  rcases member with part | dash | part | dash | part | dash | part | dash | part
  · exact Or.inr (written _ (fun _ inside => List.mem_of_mem_take inside) part)
  · exact Or.inl dash
  · exact Or.inr (middle _ part)
  · exact Or.inl dash
  · exact Or.inr (middle _ part)
  · exact Or.inl dash
  · exact Or.inr (middle _ part)
  · exact Or.inl dash
  · exact Or.inr (written _ (fun _ inside => List.mem_of_mem_drop inside) part)

theorem filter_dash_str (uuid : Uuid) :
    uuid.str.toList.filter (· != '-') = hexText uuid.digits := by
  have keeps : ∀ part : List Char, (∀ each ∈ part, each ∈ hexText uuid.digits) →
      part.filter (· != '-') = part := by
    intro part subset
    rw [List.filter_eq_self]
    intro char inside
    obtain ⟨digit, _, rfl⟩ := List.mem_map.mp (subset char inside)
    exact bne_iff_ne.mpr (hexDigit_plain digit).2.1
  have middle : ∀ start,
      (((hexText uuid.digits).drop start).take 4).filter (· != '-') =
        ((hexText uuid.digits).drop start).take 4 :=
    fun start =>
      keeps _ fun _ inside => List.mem_of_mem_drop (List.mem_of_mem_take inside)
  have split : ∀ start,
      ((hexText uuid.digits).drop start).take 4 ++
          (hexText uuid.digits).drop (start + 4) =
        (hexText uuid.digits).drop start := by
    intro start
    rw [← List.drop_drop, List.take_append_drop]
  simp only [str, String.toList_ofList, List.filter_append, List.filter_cons,
    bne_self_eq_false, Bool.false_eq_true, if_false, middle,
    keeps _ (fun _ inside => List.mem_of_mem_take inside),
    keeps _ (fun _ inside => List.mem_of_mem_drop inside)]
  rw [split 16, split 12, split 8, List.take_append_drop]

theorem parse_str (uuid : Uuid) : parse uuid.str = .ok uuid := by
  have noU : 'u' ∉ uuid.str.toList := by
    intro member
    rcases mem_str member with dash | ⟨digit, equal⟩
    · revert dash
      decide
    · exact (hexDigit_plain digit).1 equal.symm
  have noBrace : ∀ char ∈ uuid.str.toList, isBrace char = false := by
    intro char member
    rcases mem_str member with rfl | ⟨digit, rfl⟩
    · decide
    · exact (hexDigit_plain digit).2.2
  have text :
      remove "-".toList (stripBraces (remove "uuid:".toList
        (remove "urn:".toList uuid.str.toList))) = hexText uuid.digits := by
    have urn : remove "urn:".toList uuid.str.toList = uuid.str.toList :=
      remove_of_head_not_mem noU
    have prefixed : remove "uuid:".toList uuid.str.toList = uuid.str.toList :=
      remove_of_head_not_mem noU
    rw [urn, prefixed, stripBraces_of_no_brace noBrace]
    exact (remove_singleton '-' _).trans (filter_dash_str uuid)
  have length : (hexText uuid.digits).length = 32 := by
    rw [hexText, List.length_map, uuid.length_digits]
  unfold parse
  simp only [text, length, dite_true]
  split
  · rename_i digits read
    rw [text, readDigits_hexText] at read
    cases read
    rfl
  · rename_i read
    rw [text, readDigits_hexText] at read
    cases read

end Uuid

end FableHarness
