/-!
# UTF-8

Text leaves and enters the service as octets.  Writing is total; reading is either strict, where
one ill-formed sequence refuses the whole text, or lenient, where each maximal ill-formed part is
shown as one replacement character.  Both readings are the same scan, so they agree on every
well-formed text.
-/

namespace Concierge.Utf8

/-- The octets of a text. -/
def encode (s : String) : List UInt8 := s.toList.flatMap String.utf8EncodeChar

/-- The character that stands for what could not be read. -/
def replacement : Char := '\uFFFD'

/-- Continuation octets carry six bits of a character. -/
def isTail (b : UInt8) : Bool := 0x80 ≤ b && b ≤ 0xBF

/-- The second octet may not spell an overlong form, a surrogate or a value above the last
character, so its range depends on the first. -/
def isSecond (first second : UInt8) : Bool :=
  if first = 0xE0 then 0xA0 ≤ second && second ≤ 0xBF
  else if first = 0xED then 0x80 ≤ second && second ≤ 0x9F
  else if first = 0xF0 then 0x90 ≤ second && second ≤ 0xBF
  else if first = 0xF4 then 0x80 ≤ second && second ≤ 0x8F
  else isTail second

/-- Append the six bits of a continuation octet. -/
def push (bits : Nat) (tail : UInt8) : Nat := bits * 64 + (tail.toNat - 0x80)

/-- The characters of a sequence of octets, with `none` for each maximal ill-formed part. -/
def scan : List UInt8 → List (Option Char)
  | [] => []
  | a :: rest =>
    if a < 0x80 then some (Char.ofNat a.toNat) :: scan rest
    else if 0xC2 ≤ a && a ≤ 0xDF then
      match rest with
      | b :: rest =>
        if isTail b then some (Char.ofNat (push (a.toNat - 0xC0) b)) :: scan rest
        else none :: scan (b :: rest)
      | [] => [none]
    else if 0xE0 ≤ a && a ≤ 0xEF then
      match rest with
      | b :: rest =>
        if isSecond a b then
          match rest with
          | c :: rest =>
            if isTail c then some (Char.ofNat (push (push (a.toNat - 0xE0) b) c)) :: scan rest
            else none :: scan (c :: rest)
          | [] => [none]
        else none :: scan (b :: rest)
      | [] => [none]
    else if 0xF0 ≤ a && a ≤ 0xF4 then
      match rest with
      | b :: rest =>
        if isSecond a b then
          match rest with
          | c :: rest =>
            if isTail c then
              match rest with
              | d :: rest =>
                if isTail d then
                  some (Char.ofNat (push (push (push (a.toNat - 0xF0) b) c) d)) :: scan rest
                else none :: scan (d :: rest)
              | [] => [none]
            else none :: scan (c :: rest)
          | [] => [none]
        else none :: scan (b :: rest)
      | [] => [none]
    else none :: scan rest

/-- Strict reading. -/
def decode? (bytes : List UInt8) : Option String :=
  ((scan bytes).mapM id).map String.ofList

/-- Lenient reading. -/
def decodeLossy (bytes : List UInt8) : String :=
  String.ofList ((scan bytes).map fun c => c.getD replacement)

end Concierge.Utf8
