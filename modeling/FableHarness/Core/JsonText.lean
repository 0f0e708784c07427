import Mathlib.Data.List.Nodup
import Mathlib.Data.List.Perm.Subperm
import FableHarness.Library.Delimited
import FableHarness.Memory.Uuid

/-!
# The canonical JSON text

`json.dumps` with sorted keys writes two values alike exactly if they are equal
as JSON values, whatever the order of their keys at any depth.
-/

namespace FableHarness

open Delimited

namespace Json

/-! ## Equality of JSON values -/

mutual

/-- Objects are equal if they have equal values at the same keys. -/
def same : Json → Json → Bool
  | .null, .null => true
  | .bool left, .bool right => left == right
  | .int left, .int right => left == right
  | .str left, .str right => left == right
  | .arr items, .arr others => sameItems items others
  | .obj fields, .obj others =>
      fields.length == others.length && sameFields fields others
  | _, _ => false

def sameItems : List Json → List Json → Bool
  | [], [] => true
  | item :: items, other :: others => item.same other && sameItems items others
  | _, _ => false

/-- Every field of the first object is a field of the second. -/
def sameFields : List (String × Json) → List (String × Json) → Bool
  | [], _ => true
  | (key, value) :: rest, others =>
      (others.any fun other => key == other.1 && value.same other.2) &&
        sameFields rest others

end

mutual

/-- No object has two fields with one key, at any depth. -/
def WellFormed : Json → Prop
  | .arr items => WellFormedItems items
  | .obj fields => (fields.map Prod.fst).Nodup ∧ WellFormedFields fields
  | _ => True

def WellFormedItems : List Json → Prop
  | [] => True
  | item :: items => item.WellFormed ∧ WellFormedItems items

def WellFormedFields : List (String × Json) → Prop
  | [] => True
  | (_, value) :: rest => value.WellFormed ∧ WellFormedFields rest

end

/-- Induction over a value, with a hypothesis for each member of an array and
each field of an object. -/
theorem induct {motive : Json → Prop} (null : motive .null)
    (bool : ∀ value, motive (.bool value)) (int : ∀ value, motive (.int value))
    (str : ∀ value, motive (.str value))
    (arr : ∀ items, (∀ item ∈ items, motive item) → motive (.arr items))
    (obj : ∀ fields, (∀ field ∈ fields, motive field.2) → motive (.obj fields))
    (value : Json) : motive value :=
  @Json.rec motive (fun items => ∀ item ∈ items, motive item)
    (fun fields => ∀ field ∈ fields, motive field.2) (fun field => motive field.2)
    null bool int str arr obj (by simp)
    (fun _ _ first later => List.forall_mem_cons.mpr ⟨first, later⟩) (by simp)
    (fun _ _ first later => List.forall_mem_cons.mpr ⟨first, later⟩)
    (fun _ _ value => value) value

theorem sameItems_iff {items others : List Json} :
    sameItems items others = true ↔
      List.Forall₂ (fun item other => item.same other = true) items others := by
  induction items generalizing others with
  | nil =>
      cases others with
      | nil => simp [sameItems]
      | cons other others => simp [sameItems]
  | cons item items inductionHypothesis =>
      cases others with
      | nil => simp [sameItems]
      | cons other others =>
          rw [sameItems, Bool.and_eq_true, inductionHypothesis,
            List.forall₂_cons]

theorem sameFields_iff {fields others : List (String × Json)} :
    sameFields fields others = true ↔
      ∀ field ∈ fields, ∃ other ∈ others,
        field.1 = other.1 ∧ field.2.same other.2 = true := by
  induction fields with
  | nil => simp [sameFields]
  | cons field rest inductionHypothesis =>
      rw [sameFields, Bool.and_eq_true, inductionHypothesis,
        List.forall_mem_cons, List.any_eq_true]
      simp only [Bool.and_eq_true, beq_iff_eq]

theorem wellFormedItems_iff {items : List Json} :
    WellFormedItems items ↔ ∀ item ∈ items, item.WellFormed := by
  induction items with
  | nil => simp [WellFormedItems]
  | cons item items inductionHypothesis =>
      rw [WellFormedItems, inductionHypothesis, List.forall_mem_cons]

theorem wellFormedFields_iff {fields : List (String × Json)} :
    WellFormedFields fields ↔ ∀ field ∈ fields, field.2.WellFormed := by
  induction fields with
  | nil => simp [WellFormedFields]
  | cons field rest inductionHypothesis =>
      rw [WellFormedFields, inductionHypothesis, List.forall_mem_cons]

/-! ## The text of a value -/

def text (value : Json) : List Char := value.dumps.toList

/-- The fields in the order of their keys. -/
def sortKeys (fields : List (String × Json)) : List (String × Json) :=
  fields.mergeSort fun left right => decide (left.1 ≤ right.1)

def quoted (value : String) : List Char :=
  '"' :: (value.toList.flatMap escapeChar ++ ['"'])

def fieldText (field : String × Json) : List Char :=
  quoted field.1 ++ (':' :: ' ' :: field.2.text)

theorem dumpItems_eq_map (items : List Json) :
    dumpItems items = items.map dumps := by
  induction items with
  | nil => rfl
  | cons item items inductionHypothesis =>
      rw [dumpItems, inductionHypothesis, List.map_cons]

theorem dumpFields_eq_map (fields : List (String × Json)) :
    dumpFields fields = fields.map fun field => (field.1, field.2.dumps) := by
  induction fields with
  | nil => rfl
  | cons field rest inductionHypothesis =>
      rw [dumpFields, inductionHypothesis, List.map_cons]

theorem toList_dumpString (value : String) :
    (dumpString value).toList = quoted value := by
  simp [dumpString, quoted]

theorem text_str (value : String) : (str value).text = quoted value := by
  rw [text, dumps, toList_dumpString]

theorem text_arr (items : List Json) :
    (arr items).text =
      '[' :: ([',', ' '].intercalate (items.map text) ++ [']']) := by
  rw [text, dumps, String.toList_append, String.toList_append,
    String.toList_intercalate, dumpItems_eq_map, List.map_map]
  rfl

theorem sortFields_dumpFields (fields : List (String × Json)) :
    sortFields (dumpFields fields) =
      (sortKeys fields).map fun field => (field.1, field.2.dumps) := by
  rw [sortFields, sortKeys, dumpFields_eq_map, ← List.map_mergeSort]
  intro left _ right _
  rfl

theorem text_obj (fields : List (String × Json)) :
    (obj fields).text =
      '\x7b' ::
        ([',', ' '].intercalate ((sortKeys fields).map fieldText) ++ ['\x7d']) := by
  rw [text, dumps, sortFields_dumpFields, String.toList_append,
    String.toList_append, String.toList_intercalate, List.map_map, List.map_map]
  have each :
      (fun field : String × Json =>
          (dumpString field.1 ++ ": " ++ field.2.dumps).toList) =
        fieldText := by
    funext field
    rw [String.toList_append, String.toList_append, toList_dumpString,
      List.append_assoc]
    rfl
  rw [← each]
  rfl

/-! ## Strings -/

def hexNat (char : Char) : Nat :=
  match Uuid.hexValue char with
  | some digit => digit.val
  | none => 0

def hexUnit (a b c d : Char) : Nat :=
  hexNat a * 4096 + hexNat b * 256 + hexNat c * 16 + hexNat d

/-- What a letter after a backslash stands for. -/
def escaped (letter : Char) : Char :=
  if letter = 'n' then '\n'
  else if letter = 'r' then '\r'
  else if letter = 't' then '\t'
  else if letter = 'b' then Char.ofNat 0x08
  else if letter = 'f' then Char.ofNat 0x0C
  else letter

/-- What follows `\u`: one code unit, or a surrogate pair. -/
def readUnits : List Char → Option (Char × List Char)
  | a :: b :: c :: d :: rest =>
      let unit := hexUnit a b c d
      if 0xD800 ≤ unit ∧ unit < 0xDC00 then
        match rest with
        | '\\' :: 'u' :: e :: f :: g :: h :: rest =>
            some
              (Char.ofNat
                (0x10000 + (unit - 0xD800) * 0x400 + (hexUnit e f g h - 0xDC00)),
                rest)
        | _ => none
      else
        some (Char.ofNat unit, rest)
  | _ => none

/-- The character that a text starts with, as JSON reads it. -/
def unescape : List Char → Option (Char × List Char)
  | [] => none
  | char :: rest =>
      if char = '\\' then
        match rest with
        | [] => none
        | letter :: rest =>
            if letter = 'u' then readUnits rest else some (escaped letter, rest)
      else
        some (char, rest)

theorem hexNat_hexDigit {digit : Nat} (small : digit < 16) :
    hexNat (hexDigit digit) = digit := by
  have read := Uuid.hexValue_hexDigit ⟨digit, small⟩
  unfold hexNat
  rw [read]

theorem hexUnit_hexDigits {unit : Nat} (small : unit < 65536) :
    hexUnit (hexDigit (unit / 4096 % 16)) (hexDigit (unit / 256 % 16))
        (hexDigit (unit / 16 % 16)) (hexDigit (unit % 16)) = unit := by
  unfold hexUnit
  rw [hexNat_hexDigit (by omega), hexNat_hexDigit (by omega),
    hexNat_hexDigit (by omega), hexNat_hexDigit (by omega)]
  omega

theorem unescape_unicodeEscape {unit : Nat} (small : unit < 65536)
    (noSurrogate : ¬ (0xD800 ≤ unit ∧ unit < 0xDC00)) (rest : List Char) :
    unescape (unicodeEscape unit ++ rest) = some (Char.ofNat unit, rest) := by
  have read := hexUnit_hexDigits small
  simp only [unicodeEscape, List.cons_append, List.nil_append, unescape, if_true,
    readUnits, read, noSurrogate, if_false]

theorem unescape_surrogates {high low : Nat} (highRange : 0xD800 ≤ high)
    (highBound : high < 0xDC00) (lowBound : low < 65536) (rest : List Char) :
    unescape (unicodeEscape high ++ unicodeEscape low ++ rest) =
      some (Char.ofNat (0x10000 + (high - 0xD800) * 0x400 + (low - 0xDC00)),
        rest) := by
  have highSmall : high < 65536 := by omega
  have readHigh := hexUnit_hexDigits highSmall
  have readLow := hexUnit_hexDigits lowBound
  have isHigh : 0xD800 ≤ high ∧ high < 0xDC00 := ⟨highRange, highBound⟩
  simp only [unicodeEscape, List.cons_append, List.nil_append, unescape, if_true,
    readUnits, readHigh, readLow, isHigh, and_self]

/-- A character is no surrogate. -/
theorem toNat_cases (char : Char) :
    char.toNat < 0xD800 ∨ 0xDFFF < char.toNat ∧ char.toNat < 0x110000 :=
  char.valid

/-- The forms an escaped character can have. -/
inductive EscapedAs (char : Char) : List Char → Prop where
  | letter (letter : Char) (stands : escaped letter = char)
      (noUnit : letter ≠ 'u') : EscapedAs char ['\\', letter]
  | plain (noQuote : char ≠ '"') (noBackslash : char ≠ '\\') :
      EscapedAs char [char]
  | basic (small : char.toNat < 0x10000) :
      EscapedAs char (unicodeEscape char.toNat)
  | beyond (large : 0x10000 ≤ char.toNat) :
      EscapedAs char
        (unicodeEscape (0xD800 + (char.toNat - 0x10000) / 0x400) ++
          unicodeEscape (0xDC00 + (char.toNat - 0x10000) % 0x400))

theorem escapedAs_escapeChar (char : Char) :
    EscapedAs char (escapeChar char) := by
  have fromNat {code : Nat} (coded : char.toNat = code) :
      Char.ofNat code = char := by
    rw [← coded]
    exact Char.ofNat_toNat char
  unfold escapeChar
  by_cases quote : char = '"'
  · rw [if_pos quote]
    exact .letter '"' quote.symm (by decide)
  rw [if_neg quote]
  by_cases backslash : char = '\\'
  · rw [if_pos backslash]
    exact .letter '\\' backslash.symm (by decide)
  rw [if_neg backslash]
  by_cases newline : char = '\n'
  · rw [if_pos newline]
    exact .letter 'n' newline.symm (by decide)
  rw [if_neg newline]
  by_cases return_ : char = '\r'
  · rw [if_pos return_]
    exact .letter 'r' return_.symm (by decide)
  rw [if_neg return_]
  by_cases tab : char = '\t'
  · rw [if_pos tab]
    exact .letter 't' tab.symm (by decide)
  rw [if_neg tab]
  by_cases backspace : char.toNat = 0x08
  · rw [if_pos backspace]
    exact .letter 'b' (fromNat backspace) (by decide)
  rw [if_neg backspace]
  by_cases feed : char.toNat = 0x0C
  · rw [if_pos feed]
    exact .letter 'f' (fromNat feed) (by decide)
  rw [if_neg feed]
  by_cases printable : 0x20 ≤ char.toNat ∧ char.toNat ≤ 0x7E
  · rw [if_pos printable]
    exact .plain quote backslash
  rw [if_neg printable]
  by_cases basic : char.toNat < 0x10000
  · rw [if_pos basic]
    exact .basic basic
  · rw [if_neg basic]
    exact .beyond (not_lt.mp basic)

/-- The default escape of a character reads back as that character. -/
theorem unescape_escapeChar (char : Char) (rest : List Char) :
    unescape (escapeChar char ++ rest) = some (char, rest) := by
  have valid := toNat_cases char
  have same : Char.ofNat char.toNat = char := Char.ofNat_toNat char
  have form := escapedAs_escapeChar char
  generalize escapeChar char = text at form ⊢
  cases form with
  | letter letter stands noUnit =>
      simp [unescape, noUnit, stands]
  | plain noQuote noBackslash =>
      simp [unescape, noBackslash]
  | basic small =>
      rw [unescape_unicodeEscape small (by omega), same]
  | beyond large =>
      rw [unescape_surrogates (by omega) (by omega) (by omega)]
      have number :
          0x10000 + (0xD800 + (char.toNat - 0x10000) / 0x400 - 0xD800) * 0x400 +
              (0xDC00 + (char.toNat - 0x10000) % 0x400 - 0xDC00) =
            char.toNat := by
        omega
      rw [number, same]

theorem escapeChar_inj {left right : Char} {rest others : List Char}
    (equality : escapeChar left ++ rest = escapeChar right ++ others) :
    left = right ∧ rest = others := by
  have read := unescape_escapeChar left rest
  rw [equality, unescape_escapeChar] at read
  cases read
  exact ⟨rfl, rfl⟩

/-! ## No text has two readings -/

theorem opensWith_escapeChar :
    OpensWith escapeChar fun head => True ∧ head ≠ '"' := by
  intro char rest
  have form := escapedAs_escapeChar char
  generalize escapeChar char = text at form ⊢
  cases form with
  | letter letter stands noUnit => exact ⟨'\\', _, rfl, trivial, by decide⟩
  | plain noQuote noBackslash => exact ⟨char, _, rfl, trivial, noQuote⟩
  | basic small => exact ⟨'\\', _, rfl, trivial, by decide⟩
  | beyond large => exact ⟨'\\', _, rfl, trivial, by decide⟩

/-- A quoted text closes itself. -/
theorem quoted_inj {left right : String} {rest others : List Char}
    (equality : quoted left ++ rest = quoted right ++ others) :
    left = right ∧ rest = others := by
  have characters :
      left.toList.flatMap escapeChar ++ '"' :: rest =
        right.toList.flatMap escapeChar ++ '"' :: others := by
    simpa [quoted] using equality
  have unambiguous :
      ∀ char ∈ left.toList,
        Unambiguous escapeChar (· = ·) (fun _ => True) char :=
    fun _ _ _ _ _ _ _ same => escapeChar_inj same
  obtain ⟨sameCharacters, sameRest⟩ :=
    flatMap_inj opensWith_escapeChar trivial unambiguous characters
  rw [List.forall₂_eq_eq_eq] at sameCharacters
  exact ⟨String.toList_inj.mp sameCharacters, sameRest⟩

/-- What may follow a value inside a text. -/
def EndsValue (char : Char) : Prop :=
  char = ',' ∨ char = ']' ∨ char = '\x7d'

instance : DecidablePred EndsValue :=
  fun char => inferInstanceAs (Decidable (char = ',' ∨ _))

inductive Kind where
  | null
  | bool
  | int
  | str
  | arr
  | obj
deriving DecidableEq

def kind : Json → Kind
  | .null => .null
  | .bool _ => .bool
  | .int _ => .int
  | .str _ => .str
  | .arr _ => .arr
  | .obj _ => .obj

/-- The kind of value that a character opens. -/
def Kind.ofChar (char : Char) : Kind :=
  if char = 'n' then .null
  else if char = 't' ∨ char = 'f' then .bool
  else if char = '"' then .str
  else if char = '[' then .arr
  else if char = '\x7b' then .obj
  else .int

/-! ### Integers -/

theorem text_int (value : Int) :
    (int value).text =
      if 0 ≤ value then
        Nat.toDigits 10 value.toNat
      else
        '-' :: Nat.toDigits 10 (-value).toNat := by
  rw [text, dumps, Int.toString_eq_repr, Int.repr_eq_if]
  split_ifs with nonneg
  · exact Nat.toList_repr
  · rw [String.toList_append, Nat.toList_repr]
    rfl

theorem not_endsValue_of_isDigit {char : Char} (digit : char.isDigit = true) :
    ¬ EndsValue char := by
  rintro (rfl | rfl | rfl)
  all_goals exact absurd digit (by decide)

theorem toDigits_inj {left right : Nat}
    (equality : Nat.toDigits 10 left = Nat.toDigits 10 right) : left = right := by
  have read := congrArg (fun digits => Nat.ofDigitChars 10 digits 0) equality
  simpa only [Nat.ofDigitChars_ten_toDigits] using read

theorem toDigits_append_inj {left right : Nat} {rest others : List Char}
    (stops : Stops EndsValue rest) (otherStops : Stops EndsValue others)
    (equality :
      Nat.toDigits 10 left ++ rest = Nat.toDigits 10 right ++ others) :
    left = right ∧ rest = others := by
  have digits :
      ∀ value : Nat, ∀ char ∈ Nat.toDigits 10 value, ¬ EndsValue char :=
    fun value char member =>
      not_endsValue_of_isDigit
        (Nat.isDigit_of_mem_toDigits (by decide) (by decide) member)
  obtain ⟨sameDigits, sameRest⟩ :=
    append_inj_of_stops (digits left) (digits right) stops otherStops equality
  exact ⟨toDigits_inj sameDigits, sameRest⟩

/-- The first digit of a number. -/
theorem toDigits_eq_cons (value : Nat) :
    ∃ head tail,
      Nat.toDigits 10 value = head :: tail ∧ head.isDigit = true := by
  cases digits : Nat.toDigits 10 value with
  | nil => exact absurd digits Nat.toDigits_ne_nil
  | cons head tail =>
      have member : head ∈ Nat.toDigits 10 value := by
        rw [digits]
        exact List.mem_cons_self
      exact
        ⟨head, tail, rfl,
          Nat.isDigit_of_mem_toDigits (by decide) (by decide) member⟩

theorem ofChar_of_isDigit {char : Char} (digit : char.isDigit = true) :
    Kind.ofChar char = .int := by
  unfold Kind.ofChar
  split_ifs with isNull isBool isStr isArr isObj
  · subst isNull
    exact absurd digit (by decide)
  · rcases isBool with rfl | rfl
    · exact absurd digit (by decide)
    · exact absurd digit (by decide)
  · subst isStr
    exact absurd digit (by decide)
  · subst isArr
    exact absurd digit (by decide)
  · subst isObj
    exact absurd digit (by decide)
  · rfl

theorem int_inj {left right : Int} {rest others : List Char}
    (stops : Stops EndsValue rest) (otherStops : Stops EndsValue others)
    (equality : (int left).text ++ rest = (int right).text ++ others) :
    left = right ∧ rest = others := by
  have minusApart :
      ∀ (value : Nat) (rest others : List Char),
        '-' :: others ≠ Nat.toDigits 10 value ++ rest := by
    intro value rest others same
    obtain ⟨head, tail, shape, digit⟩ := toDigits_eq_cons value
    rw [shape] at same
    rw [← (List.cons.inj same).1] at digit
    exact absurd digit (by decide)
  rw [text_int, text_int] at equality
  by_cases nonneg : 0 ≤ left
  · by_cases otherNonneg : 0 ≤ right
    · rw [if_pos nonneg, if_pos otherNonneg] at equality
      obtain ⟨same, sameRest⟩ := toDigits_append_inj stops otherStops equality
      exact ⟨by omega, sameRest⟩
    · rw [if_pos nonneg, if_neg otherNonneg] at equality
      exact absurd equality.symm (minusApart _ _ _)
  · by_cases otherNonneg : 0 ≤ right
    · rw [if_neg nonneg, if_pos otherNonneg] at equality
      exact absurd equality (minusApart _ _ _)
    · rw [if_neg nonneg, if_neg otherNonneg] at equality
      obtain ⟨same, sameRest⟩ :=
        toDigits_append_inj stops otherStops (List.cons.inj equality).2
      exact ⟨by omega, sameRest⟩

/-- The first character of a text tells the kind of the value, and closes
nothing. -/
theorem text_opens (value : Json) (rest : List Char) :
    ∃ head tail,
      value.text ++ rest = head :: tail ∧
        Kind.ofChar head = value.kind ∧ ¬ EndsValue head := by
  cases value with
  | null => exact ⟨'n', _, rfl, rfl, by decide⟩
  | bool value =>
      cases value with
      | true => exact ⟨'t', _, rfl, rfl, by decide⟩
      | false => exact ⟨'f', _, rfl, rfl, by decide⟩
  | int value =>
      rw [text_int]
      split_ifs with nonneg
      · obtain ⟨head, tail, shape, digit⟩ := toDigits_eq_cons value.toNat
        rw [shape]
        exact
          ⟨head, _, rfl, ofChar_of_isDigit digit, not_endsValue_of_isDigit digit⟩
      · exact ⟨'-', _, rfl, rfl, by decide⟩
  | str value =>
      rw [text_str]
      exact ⟨'"', _, rfl, rfl, by decide⟩
  | arr items =>
      rw [text_arr]
      exact ⟨'[', _, rfl, rfl, by decide⟩
  | obj fields =>
      rw [text_obj]
      exact ⟨'\x7b', _, rfl, rfl, by decide⟩

theorem kind_eq_of_text {left right : Json} {rest others : List Char}
    (equality : left.text ++ rest = right.text ++ others) :
    left.kind = right.kind := by
  obtain ⟨head, tail, shape, leftKind, _⟩ := text_opens left rest
  obtain ⟨otherHead, otherTail, otherShape, rightKind, _⟩ :=
    text_opens right others
  rw [shape, otherShape] at equality
  rw [← leftKind, ← rightKind, (List.cons.inj equality).1]

/-! ### Arrays and objects -/

/-- Two values with one text, up to what may follow them, are the same. -/
abbrev OneReading (value : Json) : Prop :=
  Unambiguous text (fun left right => left.same right = true) EndsValue value

theorem fieldText_unambiguous {field : String × Json}
    (oneReading : field.2.OneReading) :
    Unambiguous fieldText
      (fun left right => left.1 = right.1 ∧ left.2.same right.2 = true) EndsValue
      field := by
  intro other rest others stops otherStops equality
  unfold fieldText at equality
  rw [List.append_assoc, List.append_assoc] at equality
  obtain ⟨sameKey, later⟩ := quoted_inj equality
  obtain ⟨sameValue, sameRest⟩ :=
    oneReading other.2 rest others stops otherStops
      (List.cons.inj (List.cons.inj later).2).2
  exact ⟨⟨sameKey, sameValue⟩, sameRest⟩

theorem opensWith_text : OpensWith text (· ≠ ']') := by
  intro value rest
  obtain ⟨head, tail, shape, _, opens⟩ := text_opens value rest
  exact ⟨head, tail, shape, fun closes => opens (Or.inr (Or.inl closes))⟩

theorem opensWith_fieldText : OpensWith fieldText (· ≠ '\x7d') :=
  fun _ _ => ⟨'"', _, rfl, by decide⟩

theorem perm_sortKeys (fields : List (String × Json)) :
    (sortKeys fields).Perm fields :=
  List.mergeSort_perm _ _

/-- Fields that agree in the order of their keys agree as objects. -/
theorem same_obj_of_sorted {fields others : List (String × Json)}
    (sorted :
      List.Forall₂
        (fun left right => left.1 = right.1 ∧ left.2.same right.2 = true)
        (sortKeys fields) (sortKeys others)) :
    (obj fields).same (obj others) = true := by
  have sameLength : fields.length = others.length :=
    calc
      fields.length = (sortKeys fields).length :=
        (perm_sortKeys fields).length_eq.symm
      _ = (sortKeys others).length := sorted.length_eq
      _ = others.length := (perm_sortKeys others).length_eq
  rw [same, Bool.and_eq_true, beq_iff_eq, sameFields_iff]
  refine ⟨sameLength, ?_⟩
  intro field member
  have inSorted : field ∈ sortKeys fields :=
    (perm_sortKeys fields).mem_iff.mpr member
  obtain ⟨i, at_⟩ := List.mem_iff_getElem?.mp inSorted
  obtain ⟨inside, rfl⟩ := List.getElem?_eq_some_iff.mp at_
  have otherInside : i < (sortKeys others).length := by
    rw [← sorted.length_eq]
    exact inside
  exact
    ⟨(sortKeys others)[i],
      (perm_sortKeys others).mem_iff.mp (List.getElem_mem otherInside),
      (List.forall₂_iff_get.mp sorted).2 i inside otherInside⟩

/-- Every value has one reading. -/
theorem oneReading (value : Json) : value.OneReading := by
  have commaEnds : EndsValue ',' := by decide
  have bracketEnds : EndsValue ']' := by decide
  have braceEnds : EndsValue '\x7d' := by decide
  induction value using induct with
  | null =>
      intro other rest others _ _ equality
      have sameKind := kind_eq_of_text equality
      cases other with
      | null => exact ⟨rfl, List.append_cancel_left equality⟩
      | _ => cases sameKind
  | bool value =>
      intro other rest others _ _ equality
      have sameKind := kind_eq_of_text equality
      cases other with
      | bool other =>
          cases value with
          | true =>
              cases other with
              | true => exact ⟨rfl, List.append_cancel_left equality⟩
              | false => exact absurd (List.cons.inj equality).1 (by decide)
          | false =>
              cases other with
              | true => exact absurd (List.cons.inj equality).1 (by decide)
              | false => exact ⟨rfl, List.append_cancel_left equality⟩
      | _ => cases sameKind
  | int value =>
      intro other rest others stops otherStops equality
      have sameKind := kind_eq_of_text equality
      cases other with
      | int other =>
          obtain ⟨equal, sameRest⟩ := int_inj stops otherStops equality
          exact ⟨beq_iff_eq.mpr equal, sameRest⟩
      | _ => cases sameKind
  | str value =>
      intro other rest others _ _ equality
      have sameKind := kind_eq_of_text equality
      cases other with
      | str other =>
          rw [text_str, text_str] at equality
          obtain ⟨equal, sameRest⟩ := quoted_inj equality
          exact ⟨beq_iff_eq.mpr equal, sameRest⟩
      | _ => cases sameKind
  | arr items inductionHypothesis =>
      intro other rest others _ _ equality
      have sameKind := kind_eq_of_text equality
      cases other with
      | arr otherItems =>
          rw [text_arr, text_arr, List.cons_append, List.cons_append,
            List.append_assoc, List.append_assoc] at equality
          obtain ⟨sameItems, sameRest⟩ :=
            intercalate_inj commaEnds bracketEnds (by decide) opensWith_text
              inductionHypothesis (List.cons.inj equality).2
          exact ⟨sameItems_iff.mpr sameItems, sameRest⟩
      | _ => cases sameKind
  | obj fields inductionHypothesis =>
      intro other rest others _ _ equality
      have sameKind := kind_eq_of_text equality
      cases other with
      | obj otherFields =>
          rw [text_obj, text_obj, List.cons_append, List.cons_append,
            List.append_assoc, List.append_assoc] at equality
          have eachField :
              ∀ field ∈ sortKeys fields,
                Unambiguous fieldText
                  (fun left right =>
                    left.1 = right.1 ∧ left.2.same right.2 = true)
                  EndsValue field :=
            fun field member =>
              fieldText_unambiguous
                (inductionHypothesis field
                  ((perm_sortKeys fields).mem_iff.mp member))
          obtain ⟨sorted, sameRest⟩ :=
            intercalate_inj commaEnds braceEnds (by decide) opensWith_fieldText
              eachField (List.cons.inj equality).2
          exact ⟨same_obj_of_sorted sorted, sameRest⟩
      | _ => cases sameKind

theorem same_of_dumps_eq {left right : Json} (equality : left.dumps = right.dumps) :
    left.same right = true := by
  have texts : left.text ++ [] = right.text ++ [] := by
    rw [text, text, equality]
  exact
    (oneReading left right [] [] (stops_nil _) (stops_nil _) texts).1

/-! ## Equal values have one text -/

/-- Fields with different keys are sorted in one way only. -/
theorem sortFields_eq_of_perm {fields others : List (String × String)}
    (nodup : (fields.map Prod.fst).Nodup) (perm : fields.Perm others) :
    sortFields fields = sortFields others := by
  have pairwise : ∀ list : List (String × String),
      (sortFields list).Pairwise fun left right =>
        decide (left.1 ≤ right.1) = true :=
    List.pairwise_mergeSort
      (fun _ _ _ first second =>
        decide_eq_true <|
          String.le_trans (of_decide_eq_true first) (of_decide_eq_true second))
      (fun left right => by
        rw [Bool.or_eq_true, decide_eq_true_iff, decide_eq_true_iff]
        exact String.le_total left.1 right.1)
  have sortedPerm : (sortFields fields).Perm (sortFields others) :=
    (List.mergeSort_perm _ _).trans
      (perm.trans (List.mergeSort_perm _ _).symm)
  refine List.Perm.eq_of_pairwise ?_ (pairwise fields) (pairwise others) sortedPerm
  intro left right leftMember rightMember before after
  have inFields : left ∈ fields := (List.mergeSort_perm _ _).mem_iff.mp leftMember
  have otherInFields : right ∈ fields :=
    perm.mem_iff.mpr ((List.mergeSort_perm _ _).mem_iff.mp rightMember)
  exact
    List.inj_on_of_nodup_map nodup inFields otherInFields
      (String.le_antisymm (of_decide_eq_true before) (of_decide_eq_true after))

theorem map_fst_dumpFields (fields : List (String × Json)) :
    (dumpFields fields).map Prod.fst = fields.map Prod.fst := by
  rw [dumpFields_eq_map, List.map_map]
  rfl

/-- As many fields, each with a counterpart of the same key and text, have the
same texts in another order. -/
theorem perm_dumpFields {fields others : List (String × Json)}
    (nodup : (fields.map Prod.fst).Nodup) (sameLength : fields.length = others.length)
    (sameTexts :
      ∀ field ∈ fields, ∃ other ∈ others,
        field.1 = other.1 ∧ field.2.dumps = other.2.dumps) :
    (dumpFields fields).Perm (dumpFields others) := by
  have subset : dumpFields fields ⊆ dumpFields others := by
    rw [dumpFields_eq_map, dumpFields_eq_map]
    intro dumped member
    obtain ⟨field, inFields, rfl⟩ := List.mem_map.mp member
    obtain ⟨other, inOthers, sameKey, sameText⟩ := sameTexts field inFields
    rw [sameKey, sameText]
    exact List.mem_map_of_mem inOthers
  rw [← map_fst_dumpFields] at nodup
  refine
    (List.subperm_of_subset (List.Nodup.of_map _ nodup) subset).perm_of_length_le
      ?_
  rw [dumpFields_eq_map, dumpFields_eq_map, List.length_map, List.length_map,
    sameLength]

theorem dumps_eq_of_same {left right : Json} (leftFormed : left.WellFormed)
    (rightFormed : right.WellFormed) (equal : left.same right = true) :
    left.dumps = right.dumps := by
  induction left using induct generalizing right with
  | null =>
      cases right with
      | null => rfl
      | _ => cases equal
  | bool value =>
      cases right with
      | bool other =>
          rw [same, beq_iff_eq] at equal
          rw [equal]
      | _ => cases equal
  | int value =>
      cases right with
      | int other =>
          rw [same, beq_iff_eq] at equal
          rw [equal]
      | _ => cases equal
  | str value =>
      cases right with
      | str other =>
          rw [same, beq_iff_eq] at equal
          rw [equal]
      | _ => cases equal
  | arr items inductionHypothesis =>
      cases right with
      | arr others =>
          rw [same, sameItems_iff] at equal
          rw [WellFormed, wellFormedItems_iff] at leftFormed rightFormed
          have sameTexts : items.map dumps = others.map dumps := by
            induction equal with
            | nil => rfl
            | cons sameItem _ tail =>
                rw [List.map_cons, List.map_cons]
                rw [List.forall_mem_cons] at leftFormed rightFormed
                rw [List.forall_mem_cons] at inductionHypothesis
                rw [inductionHypothesis.1 leftFormed.1 rightFormed.1 sameItem,
                  tail inductionHypothesis.2 leftFormed.2 rightFormed.2]
          rw [dumps, dumps, dumpItems_eq_map, dumpItems_eq_map, sameTexts]
      | _ => cases equal
  | obj fields inductionHypothesis =>
      cases right with
      | obj others =>
          rw [same, Bool.and_eq_true, beq_iff_eq, sameFields_iff] at equal
          rw [WellFormed, wellFormedFields_iff] at leftFormed rightFormed
          obtain ⟨sameLength, eachField⟩ := equal
          have sameTexts :
              ∀ field ∈ fields, ∃ other ∈ others,
                field.1 = other.1 ∧ field.2.dumps = other.2.dumps := by
            intro field inFields
            obtain ⟨other, inOthers, sameKey, sameValue⟩ :=
              eachField field inFields
            exact
              ⟨other, inOthers, sameKey,
                inductionHypothesis field inFields (leftFormed.2 field inFields)
                  (rightFormed.2 other inOthers) sameValue⟩
          have nodup : ((dumpFields fields).map Prod.fst).Nodup := by
            rw [map_fst_dumpFields]
            exact leftFormed.1
          rw [dumps, dumps,
            sortFields_eq_of_perm nodup
              (perm_dumpFields leftFormed.1 sameLength sameTexts)]
      | _ => cases equal

/-- Well-formed values have one text exactly if they are equal as JSON values,
whatever the order of their keys at any depth. -/
theorem dumps_eq_iff {left right : Json} (leftFormed : left.WellFormed)
    (rightFormed : right.WellFormed) :
    left.dumps = right.dumps ↔ left.same right = true :=
  ⟨same_of_dumps_eq, dumps_eq_of_same leftFormed rightFormed⟩

end Json

end FableHarness
