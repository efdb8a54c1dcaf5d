/-!
# Digits

Hexadecimal and decimal digits as characters.  Reading accepts both cases of a hexadecimal digit;
the two ways of writing one are the lower-case form of identifiers and the upper-case form of
percent-encoding.
-/

namespace Concierge.Digit

/-- The value of a decimal digit. -/
def decimal? (c : Char) : Option Nat :=
  if '0' ≤ c ∧ c ≤ '9' then some (c.toNat - '0'.toNat) else none

/-- The value of a hexadecimal digit of either case. -/
def hex? (c : Char) : Option Nat :=
  if '0' ≤ c ∧ c ≤ '9' then some (c.toNat - '0'.toNat)
  else if 'a' ≤ c ∧ c ≤ 'f' then some (c.toNat - 'a'.toNat + 10)
  else if 'A' ≤ c ∧ c ≤ 'F' then some (c.toNat - 'A'.toNat + 10)
  else none

/-- A hexadecimal digit in lower case. -/
def hexLower (n : Nat) : Char :=
  if n < 10 then Char.ofNat ('0'.toNat + n) else Char.ofNat ('a'.toNat + n - 10)

/-- A hexadecimal digit in upper case. -/
def hexUpper (n : Nat) : Char :=
  if n < 10 then Char.ofNat ('0'.toNat + n) else Char.ofNat ('A'.toNat + n - 10)

theorem hex?_hexLower : ∀ n < 16, hex? (hexLower n) = some n := by decide

theorem hex?_hexUpper : ∀ n < 16, hex? (hexUpper n) = some n := by decide

/-- The number that a list of digits in the given base spells. -/
def value (base : Nat) (digits : List Nat) : Nat :=
  digits.foldl (fun n d => n * base + d) 0

/-- The number that a list of decimal digit characters spells; anything else counts as zero. -/
def natOf (cs : List Char) : Nat := value 10 (cs.map fun c => (decimal? c).getD 0)

end Concierge.Digit
