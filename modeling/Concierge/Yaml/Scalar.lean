import Concierge.Json.Basic
import Concierge.Text.Decimal

/-!
# Plain scalars

An unquoted scalar is null, a truth value or a number if it is spelled like one, and text otherwise.
Integers are decimal, hexadecimal, octal or binary; digits after a leading zero are text.
-/

namespace Concierge.Yaml

/-- The spellings of null. -/
def nullWords : List String := ["~", "null", "Null", "NULL"]

/-- The spellings of truth values. -/
def boolWords : List (String × Bool) :=
  [("true", true), ("True", true), ("TRUE", true), ("false", false), ("False", false),
    ("FALSE", false)]

/-- The spellings of numbers that are not finite. -/
def specialNumbers : List String :=
  [".inf", ".Inf", ".INF", "+.inf", "+.Inf", "+.INF", "-.inf", "-.Inf", "-.INF",
    ".nan", ".NaN", ".NAN"]

/-- Digits after a leading zero. -/
def isPaddedDigits (cs : List Char) : Bool :=
  match Decimal.unsigned cs with
  | '0' :: c :: rest => (c :: rest).all Char.isDigit
  | _ => false

/-- The number that digits of a base spell. -/
def natIn? (base : Nat) (cs : List Char) : Option Nat :=
  if cs.isEmpty then none
  else
    (cs.mapM fun c => (Digit.hex? c).bind fun d => if d < base then some d else none).map
      (Digit.value base)

/-- The number that a text without a sign spells. -/
def nat? (cs : List Char) : Option Nat :=
  match cs with
  | '0' :: 'x' :: rest => natIn? 16 rest
  | '0' :: 'o' :: rest => natIn? 8 rest
  | '0' :: 'b' :: rest => natIn? 2 rest
  | _ => if isPaddedDigits cs then none else natIn? 10 cs

/-- The integer that a text spells. -/
def int? (cs : List Char) : Option Int :=
  match cs with
  | '-' :: rest => (nat? rest).map fun n => -(n : Int)
  | '+' :: rest => (nat? rest).map fun n => (n : Int)
  | _ => (nat? cs).map fun n => (n : Int)

/-- A text that spells a number which is no integer. -/
def isReal (s : String) : Bool :=
  specialNumbers.contains s ||
    (! isPaddedDigits s.toList &&
      ((Decimal.read? s.toList).map fun (digits, e) => Decimal.isFinite digits e) == some true)

/-- The value of an unquoted scalar. -/
def plainValue (s : String) : Json :=
  if s.isEmpty ∨ s ∈ nullWords then .null
  else match boolWords.lookup s with
    | some b => .bool b
    | none => match int? s.toList with
      | some i => .int i
      | none => if isReal s then .real s else .string s

/-- The tags that fix how a scalar is read. -/
inductive Kind where
  | bool
  | int
  | float
  | null
  deriving DecidableEq, Repr

/-- The value of a scalar that has to be of a kind. -/
def Kind.value? (kind : Kind) (s : String) : Option Json :=
  match kind with
  | .bool => (boolWords.lookup s).map .bool
  | .int => (int? s.toList).map .int
  | .float => if isReal s ∨ (int? s.toList).isSome then some (.real s) else none
  | .null => if s ∈ nullWords then some .null else none

end Concierge.Yaml
