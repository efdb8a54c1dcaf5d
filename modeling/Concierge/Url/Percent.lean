import Concierge.Text.Digit
import Concierge.Text.Utf8

/-!
# Percent-encoding

Octets that may not stand in a part of an address are written as a percent sign and two digits.
Which octets these are depends on the part; octets beyond ASCII always are.
-/

namespace Concierge.Percent

/-- An octet as a percent sign and two upper-case digits. -/
def escape (b : UInt8) : List Char :=
  ['%', Digit.hexUpper (b.toNat / 16), Digit.hexUpper (b.toNat % 16)]

/-- Control characters. -/
def isControl (c : Char) : Bool := c.toNat < 0x20 || c == '\x7f'

/-- Characters that are escaped in a fragment. -/
def inFragment (c : Char) : Bool := isControl c || " \"<>\x60".toList.contains c

/-- Characters that are escaped in a path. -/
def inPath (c : Char) : Bool := inFragment c || "#?^\x7b\x7d".toList.contains c

/-- Characters that are escaped in a query. -/
def inQuery (c : Char) : Bool := isControl c || " \"#<>".toList.contains c

/-- Characters that are escaped in a query of the web's own schemes. -/
def inSpecialQuery (c : Char) : Bool := inQuery c || c == '\''

/-- A character, escaped if it has to be. -/
def encodeChar (escaped : Char → Bool) (c : Char) : List Char :=
  if c.toNat < 0x80 && ! escaped c then [c] else (String.utf8EncodeChar c).flatMap escape

/-- A text whose characters are escaped if they have to be. -/
def encode (escaped : Char → Bool) (cs : List Char) : List Char := cs.flatMap (encodeChar escaped)

/-- The octets that escapes and other octets stand for; a percent sign without two digits stands for
itself. -/
def decode : List UInt8 → List UInt8
  | [] => []
  | 0x25 :: a :: b :: rest =>
    match Digit.hex? (Char.ofNat a.toNat), Digit.hex? (Char.ofNat b.toNat) with
    | some high, some low => UInt8.ofNat (high * 16 + low) :: decode rest
    | _, _ => 0x25 :: decode (a :: b :: rest)
  | b :: rest => b :: decode rest

end Concierge.Percent
