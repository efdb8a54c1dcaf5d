import Concierge.Text.Digit

/-!
# Decimal numbers

Numbers with a point or an exponent are never computed with here; it only matters whether a text
spells one and whether its value is within double precision.
-/

namespace Concierge.Decimal

/-- A double is finite below this: halfway between the greatest double and the next power of two. -/
def finiteLimit : Nat := Nat.pow 2 1024 - Nat.pow 2 970

/-- Whether `digits * 10 ^ exponent` is within double precision.  Huge exponents are decided by the
number of digits alone. -/
def isFinite (digits : List Nat) (exponent : Int) : Bool :=
  let significand := Digit.value 10 digits
  if significand = 0 then true
  else
    let magnitude : Int := (Nat.toDigits 10 significand).length + exponent
    if magnitude > 310 then false
    else if magnitude < 300 then true
    else if exponent < 0 then significand < finiteLimit * Nat.pow 10 exponent.natAbs
    else significand * Nat.pow 10 exponent.natAbs < finiteLimit

/-- A text without a sign in front. -/
def unsigned : List Char → List Char
  | '+' :: rest => rest
  | '-' :: rest => rest
  | cs => cs

/-- The number that the digits of a list spell. -/
def digitValues (cs : List Char) : List Nat := cs.filterMap Digit.decimal?

/-- Read the exponent at the end of a number. -/
def exponent? : List Char → Option Int
  | [] => some 0
  | e :: rest =>
    let digits := unsigned rest
    if (e = 'e' ∨ e = 'E') ∧ digits ≠ [] ∧ digits.all Char.isDigit then
      some (if rest.head? = some '-' then -(Digit.natOf digits) else Digit.natOf digits)
    else none

/-- Read a number with an optional sign, point and exponent and at least one digit before the
exponent; the result is its digits and the power of ten they are multiplied by. -/
def read? (cs : List Char) : Option (List Nat × Int) :=
  let whole := (unsigned cs).takeWhile Char.isDigit
  let (fraction, rest) := match (unsigned cs).dropWhile Char.isDigit with
    | '.' :: rest => (rest.takeWhile Char.isDigit, rest.dropWhile Char.isDigit)
    | rest => ([], rest)
  if whole.isEmpty && fraction.isEmpty then none
  else (exponent? rest).map fun e => (digitValues (whole ++ fraction), e - fraction.length)

end Concierge.Decimal
