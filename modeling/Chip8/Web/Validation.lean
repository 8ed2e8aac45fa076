import Chip8.Text.Blank
import Chip8.Web.Issue
import Chip8.Web.Value

/-!
# Validation

Checks turn values into typed data or into issues. What a single value is read as does not depend on
where it stands; a check adds the path to it.
-/

namespace Chip8.Web

/-! ### Readings of single values -/

namespace Value

/-- Does the character go unnoticed at either end of a number? -/
def isPadding (c : Char) : Bool := Text.isBlank c && !(0x1C ≤ c.toNat && c.toNat ≤ 0x1F)

/-- The characters without the padding at both ends. -/
def trimmed (cs : List Char) : List Char :=
  ((cs.dropWhile isPadding).reverse.dropWhile isPadding).reverse

/-- The number of decimal digits, behind digits of the number `n`. One underscore may stand between two
digits. -/
def digits? (behindDigit : Bool) (n : Nat) : List Char → Option Nat
  | [] => if behindDigit then some n else none
  | c :: cs =>
    if c.isDigit then digits? true (10 * n + (c.toNat - 48)) cs
    else if c = '_' && behindDigit then digits? false n cs
    else none

/-- The number of decimal digits, perhaps with a fraction of zeros. -/
def decimal? (cs : List Char) : Option Nat :=
  match cs.span (· != '.') with
  | (whole, []) => digits? false 0 whole
  | (whole, _ :: fraction) =>
    if fraction.isEmpty || fraction.any (· != '0') then none else digits? false 0 whole

/-- An integer in decimal digits, perhaps with a sign and with padding around it. -/
def integerOfText? (text : String) : Option Int :=
  match trimmed text.toList with
  | '-' :: cs => (decimal? cs).map fun n => -n
  | '+' :: cs => (decimal? cs).map fun n => n
  | cs => (decimal? cs).map fun n => n

/-- Words that stand for truth values, whatever their case. -/
def boolOfText? (text : String) : Option Bool :=
  let word := text.toLower
  if ["1", "on", "t", "true", "y", "yes"].contains word then some true
  else if ["0", "off", "f", "false", "n", "no"].contains word then some false
  else none

/-- An integer: also a number without a fraction, a truth value as 0 or 1, or digits. -/
def readInteger : Value → Except IssueKind Int
  | .number m places =>
    match integer? m places with
    | some v => .ok v
    | none => .error .fraction
  | .bool b => .ok (if b then 1 else 0)
  | .text s =>
    match integerOfText? s with
    | some v => .ok v
    | none => .error .integerText
  | _ => .error .notInteger

/-- A truth value: also the numbers 0 and 1 or one of the words that stand for one. Another integer
of 64 bits is a number that cannot be read as a truth value; a fraction and a larger integer are no
truth values at all. -/
def readBool : Value → Except IssueKind Bool
  | .bool b => .ok b
  | .number m places =>
    match integer? m places with
    | some v =>
      if v = 0 then .ok false
      else if v = 1 then .ok true
      else if fitsInt64 v then .error .boolText
      else .error .notBool
    | none => .error .notBool
  | .text s =>
    match boolOfText? s with
    | some b => .ok b
    | none => .error .boolText
  | _ => .error .notBool

/-- A text, which nothing else is read as. -/
def readText : Value → Except IssueKind String
  | .text s => .ok s
  | _ => .error .notText

theorem readInteger_number (n : Int) : readInteger (.number n 0) = .ok n := by
  simp [readInteger, integer?_zero]

end Value

/-! ### Checks -/

/-- A check of the value at a path. -/
abbrev Check (α : Type) := Path → Value → Checked α

namespace Check

/-- The check that a reading of single values makes. -/
def ofReading {α : Type} (read : Value → Except IssueKind α) : Check α := fun path value =>
  match read value with
  | .ok a => .valid a
  | .error kind => .issue path kind

def integer : Check Int := ofReading Value.readInteger

def bool : Check Bool := ofReading Value.readBool

def text : Check String := ofReading Value.readText

/-- One of the given texts, exactly. -/
def oneOf (choices : List String) : Check String := fun path value =>
  (text path value).andThen fun s =>
    if choices.contains s then .valid s else .issue path .pattern

/-- An integer from 1 to a limit. -/
def upTo (limit : Int) : Check Int := fun path value =>
  (integer path value).andThen fun v =>
    if v < 1 then .issue path .tooSmall
    else if limit < v then .issue path .tooLarge
    else .valid v

/-- Nothing, or a value that passes a check. -/
def optional {α : Type} (check : Check α) : Check (Option α) := fun path value =>
  match value with
  | .null => .valid none
  | v => some <$> check path v

/-- Every item, from a given number on. -/
def items {α : Type} (check : Check α) (path : Path) : Nat → List Value → Checked (List α)
  | _, [] => .valid []
  | i, v :: rest => List.cons <$> check (path ++ [.item i]) v <*> items check path (i + 1) rest

/-- A list whose items all pass a check. -/
def list {α : Type} (check : Check α) : Check (List α) := fun path value =>
  match value with
  | .list vs => items check path 0 vs
  | _ => .issue path .notList

/-- An object whose fields pass a check. -/
def object {α : Type} (check : Path → List (String × Value) → Checked α) : Check α :=
  fun path value =>
    match value with
    | .object fields => check path fields
    | _ => .issue path .notObject

/-- A field that has to be there. -/
def required {α : Type} (check : Check α) (path : Path) (fields : List (String × Value))
    (name : String) : Checked α :=
  let path := path ++ [.field name]
  match Value.field? fields name with
  | some v => check path v
  | none => .issue path .missing

/-- A field with a default. -/
def withDefault {α : Type} (default : α) (check : Check α) (path : Path)
    (fields : List (String × Value)) (name : String) : Checked α :=
  match Value.field? fields name with
  | some v => check (path ++ [.field name]) v
  | none => .valid default

end Check

end Chip8.Web
