import Concierge.Url.Percent

/-!
# Forms

Pairs of names and values travel as one text: names and values are joined by an equals sign, pairs
by an ampersand, and inside them everything but a few characters is escaped, a blank as a plus sign.
-/

namespace Concierge.Form

/-- Octets that stand for themselves. -/
def isPlain (b : UInt8) : Bool :=
  (0x30 ≤ b && b ≤ 0x39) || (0x41 ≤ b && b ≤ 0x5A) || (0x61 ≤ b && b ≤ 0x7A) ||
    b == 0x2A || b == 0x2D || b == 0x2E || b == 0x5F

/-- The written form of an octet. -/
def encodeOctet (b : UInt8) : List Char :=
  if isPlain b then [Char.ofNat b.toNat] else if b = 0x20 then ['+'] else Percent.escape b

/-- The written form of a name or a value. -/
def encodeText (s : String) : List Char := (Utf8.encode s).flatMap encodeOctet

/-- The written form of a pair. -/
def encodePair (pair : String × String) : List Char :=
  encodeText pair.1 ++ '=' :: encodeText pair.2

/-- The written form of pairs. -/
def encode (pairs : List (String × String)) : List Char :=
  ['&'].intercalate (pairs.map encodePair)

/-- The text that a written form stands for. -/
def decodeText (cs : List Char) : String :=
  Utf8.decodeLossy (Percent.decode
    (Utf8.encode (String.ofList (cs.map fun c => if c = '+' then ' ' else c))))

/-- The pair that a written form stands for; without an equals sign the value is empty. -/
def decodePair (cs : List Char) : String × String :=
  (decodeText (cs.takeWhile (· != '=')), decodeText ((cs.dropWhile (· != '=')).drop 1))

/-- The pairs of a text; empty ones are passed over. -/
def decode (cs : List Char) : List (String × String) :=
  ((cs.splitOn '&').filter (! ·.isEmpty)).map decodePair

end Concierge.Form
