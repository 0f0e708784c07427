import Mathlib.Data.List.Basic
import Mathlib.Data.Rat.Defs

/-!
# Python values, exceptions and outside code

The harness only looks at an exception through the classes its `except`
clauses name and through `str(exc)`.  Everything it calls but does not own
(tool handlers, approval callbacks, models, stores) is an arbitrary program
over an arbitrary state `σ`.
-/

namespace FableHarness

/-- An instance of `Exception`: the two classes that some `except` clause below
the flows names, and every other class by its name. -/
inductive PyExc where
  | permissionDenied (message : String)
  | usageLimitExceeded (message : String)
  | other (className message : String)
deriving DecidableEq, Repr

namespace PyExc

/-- `str(exc)` -/
def message : PyExc → String
  | .permissionDenied message => message
  | .usageLimitExceeded message => message
  | .other _ message => message

/-- `isinstance(exc, PermissionDenied)` -/
def isPermissionDenied : PyExc → Bool
  | .permissionDenied _ => true
  | _ => false

end PyExc

/-- Code the harness calls but does not own, over its own state. -/
abbrev Py (σ : Type) := EStateM PyExc σ

/-- The JSON values that reach a tool as arguments. -/
inductive Json where
  | null
  | bool (value : Bool)
  | int (value : Int)
  | str (value : String)
  | arr (items : List Json)
  | obj (fields : List (String × Json))

/-- A `dict[str, Any]` of keyword arguments. -/
abbrev Arguments := List (String × Json)

/-! ## `json.dumps(..., sort_keys=True)` -/

def hexDigit (digit : Nat) : Char :=
  if digit < 10 then
    Char.ofNat ('0'.toNat + digit)
  else
    Char.ofNat ('a'.toNat + (digit - 10))

/-- `\uXXXX` for one UTF-16 code unit. -/
def unicodeEscape (unit : Nat) : List Char :=
  ['\\', 'u', hexDigit (unit / 4096 % 16), hexDigit (unit / 256 % 16),
    hexDigit (unit / 16 % 16), hexDigit (unit % 16)]

/-- The default `ensure_ascii` escape of one character. -/
def escapeChar (char : Char) : List Char :=
  if char = '"' then ['\\', '"']
  else if char = '\\' then ['\\', '\\']
  else if char = '\n' then ['\\', 'n']
  else if char = '\r' then ['\\', 'r']
  else if char = '\t' then ['\\', 't']
  else if char.toNat = 0x08 then ['\\', 'b']
  else if char.toNat = 0x0C then ['\\', 'f']
  else if 0x20 ≤ char.toNat ∧ char.toNat ≤ 0x7E then [char]
  else if char.toNat < 0x10000 then unicodeEscape char.toNat
  else
    -- Characters beyond the basic plane become a surrogate pair.
    unicodeEscape (0xD800 + (char.toNat - 0x10000) / 0x400) ++
      unicodeEscape (0xDC00 + (char.toNat - 0x10000) % 0x400)

def dumpString (text : String) : String :=
  String.ofList (['"'] ++ text.toList.flatMap escapeChar ++ ['"'])

def sortFields (fields : List (String × String)) : List (String × String) :=
  fields.mergeSort (fun left right => decide (left.1 ≤ right.1))

mutual

def Json.dumps : Json → String
  | .null => "null"
  | .bool true => "true"
  | .bool false => "false"
  | .int value => toString value
  | .str value => dumpString value
  | .arr items => "[" ++ String.intercalate ", " (Json.dumpItems items) ++ "]"
  | .obj fields =>
      "\x7b" ++
        String.intercalate ", "
          ((sortFields (Json.dumpFields fields)).map fun field =>
            dumpString field.1 ++ ": " ++ field.2) ++
        "\x7d"

def Json.dumpItems : List Json → List String
  | [] => []
  | item :: rest => item.dumps :: Json.dumpItems rest

def Json.dumpFields : List (String × Json) → List (String × String)
  | [] => []
  | (key, value) :: rest => (key, value.dumps) :: Json.dumpFields rest

end

/-- `text or default`, where `text` is a text or `None`. -/
def textOr (text : Option String) (default : String) : String :=
  match text with
  | none => default
  | some text => if text = "" then default else text

/-- The parts of the Python runtime whose exact text the harness passes on but
never inspects. -/
structure PyRuntime where
  /-- `repr(value)` -/
  repr : Json → String
  /-- `hashlib.sha256(text.encode()).hexdigest()` -/
  sha256 : String → String
  /-- `str(value)` of a float -/
  float : ℚ → String
  /-- `f"{value:.{digits}f}"` -/
  fixed : Nat → ℚ → String

end FableHarness
