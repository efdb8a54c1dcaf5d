import Concierge.Net.Ip
import Concierge.Url.Percent
import Concierge.Url.Punycode

/-!
# Hosts

The host of an address is a name or an internet address.  A name is brought into one form: escapes
are resolved, letters are lower case, and labels beyond ASCII are in their ASCII form.  A name whose
last label is a number has to be an internet address.
-/

namespace Concierge.Url

/-- Why an address was refused. -/
inductive Fault where
  | relative
  | emptyHost
  | port
  | ipv4
  | ipv6
  | domain
  | hostCharacter
  deriving DecidableEq, Repr

/-- The wording of a refusal. -/
def Fault.message : Fault → String
  | .relative => "relative URL without a base"
  | .emptyHost => "empty host"
  | .port => "invalid port number"
  | .ipv4 => "invalid IPv4 address"
  | .ipv6 => "invalid IPv6 address"
  | .domain => "invalid international domain name"
  | .hostCharacter => "invalid domain character"

/-- A host. -/
inductive Host where
  | name (s : String)
  | v4 (ip : Net.Ipv4)
  | v6 (ip : Net.Ipv6)
  deriving DecidableEq, Repr

/-- The written form of a host. -/
def Host.toText : Host → String
  | .name s => s
  | .v4 ip => ip.toText
  | .v6 ip => "[" ++ ip.groupText ++ "]"

/-! ## Names

The mapping of names beyond ASCII has a row for every character; the tables below have the rows of

* ASCII and its full-width forms, U+FF01 to U+FF5E,
* the Latin letters U+00BF to U+012F, U+014A to U+0177, U+1E00 to U+1E99 and U+1E9F to U+1EFF,
* the Greek letters U+0391 to U+03CE and the Cyrillic letters U+0400 to U+045F,
* kana, U+3041 to U+3096 and U+30A0 to U+30FE, ideographs, U+3400 to U+9FFF, and the syllables
  U+AC00 to U+D7A3 of Hangul,
* the full stops U+3002, U+FF0E and U+FF61, and the characters that are listed as passed over or as
  refused.

They are right for a name of these characters.  Any other character stands for itself here, which is
wrong where the mapping has something else for it: a capital of another alphabet, a ligature, a
raised figure.  Neither is a letter put together with a mark that follows it, nor the order checked
in which letters that are written from right to left stand. -/

namespace Domain

/-- Characters that no name has. -/
def isForbidden (c : Char) : Bool :=
  Percent.isControl c || " #/:<>?@[\\]^|%".toList.contains c

/-- Characters that are passed over. -/
def isIgnored (c : Char) : Bool :=
  [0xAD, 0x34F, 0x180B, 0x180C, 0x180D, 0x200B, 0x2060, 0x2064, 0xFEFF].contains c.toNat ||
    (0xFE00 ≤ c.toNat && c.toNat ≤ 0xFE0F)

/-- Characters beyond ASCII that stand for a blank, control something or are reserved. -/
def isRefused (c : Char) : Bool :=
  let n := c.toNat
  (0x80 ≤ n && n ≤ 0xA0) || n == 0x1680 || (0x2000 ≤ n && n ≤ 0x200A) ||
    (0x200E ≤ n && n ≤ 0x200F) || (0x2028 ≤ n && n ≤ 0x202F) || n == 0x205F ||
    (0x2066 ≤ n && n ≤ 0x206F) || n == 0x3000 || (0xE000 ≤ n && n ≤ 0xF8FF) ||
    (0xFFF9 ≤ n && n ≤ 0xFFFF) || 0xE0000 ≤ n

/-- Marks that are written over or under the character before them, so no label starts with one. -/
def isMark (c : Char) : Bool :=
  let n := c.toNat
  (0x300 ≤ n && n ≤ 0x36F) || (0x483 ≤ n && n ≤ 0x489) || (0x591 ≤ n && n ≤ 0x5BD) ||
    (0x64B ≤ n && n ≤ 0x65F) || (0x900 ≤ n && n ≤ 0x903) || (0x1AB0 ≤ n && n ≤ 0x1AFF) ||
    (0x1DC0 ≤ n && n ≤ 0x1DFF) || (0x20D0 ≤ n && n ≤ 0x20F0) || (0x3099 ≤ n && n ≤ 0x309A) ||
    (0xFE20 ≤ n && n ≤ 0xFE2F)

/-- Characters that join their neighbours or keep them apart. -/
def isJoiner (c : Char) : Bool := c == '\u200C' || c == '\u200D'

/-- Signs of Indic scripts after which a joiner has a meaning. -/
def isVirama (c : Char) : Bool :=
  [0x94D, 0x9CD, 0xA4D, 0xACD, 0xB4D, 0xBCD, 0xC4D, 0xCCD, 0xD4D, 0xDCA, 0x1039].contains c.toNat

/-- Every joiner follows a sign that gives it a meaning. -/
def joinersFit (previous : Option Char) : List Char → Bool
  | [] => true
  | c :: rest => (! isJoiner c || previous.any isVirama) && joinersFit (some c) rest

/-- A label whose characters may stand where they do. -/
def isWellFormed (label : List Char) : Bool :=
  ! label.head?.any isMark && joinersFit none label

/-- The lower-case form of a letter of the Latin, Greek and Cyrillic alphabets; full-width
characters and the full stop of ideographic text become ASCII. -/
def fold (c : Char) : Char :=
  let n := c.toNat
  if n < 128 then c.toLower
  else if (0xC0 ≤ n ∧ n ≤ 0xDE ∧ n ≠ 0xD7) ∨ (0x391 ≤ n ∧ n ≤ 0x3AB) ∨ (0x410 ≤ n ∧ n ≤ 0x42F)
  then Char.ofNat (n + 32)
  else if 0x400 ≤ n ∧ n ≤ 0x40F then Char.ofNat (n + 80)
  else if ((0x100 ≤ n ∧ n ≤ 0x137) ∨ (0x14A ≤ n ∧ n ≤ 0x177)) ∧ n % 2 = 0 then Char.ofNat (n + 1)
  else if ((0x139 ≤ n ∧ n ≤ 0x148) ∨ (0x179 ≤ n ∧ n ≤ 0x17E)) ∧ n % 2 = 1 then Char.ofNat (n + 1)
  else if ((0x1E00 ≤ n ∧ n ≤ 0x1E95) ∨ (0x1EA0 ≤ n ∧ n ≤ 0x1EFF)) ∧ n % 2 = 0 then
    Char.ofNat (n + 1)
  else if 0xFF01 ≤ n ∧ n ≤ 0xFF5E then (Char.ofNat (n - 0xFEE0)).toLower
  else if n = 0x3002 ∨ n = 0xFF0E ∨ n = 0xFF61 then '.'
  else c

/-- What the ASCII form of a label starts with. -/
def asciiMark : List Char := ['x', 'n', '-', '-']

/-- The ASCII form of a label.  A label that is in ASCII form already has to stand for a label that
needs it. -/
def labelToAscii? (label : List Char) : Option (List Char) :=
  if asciiMark.isPrefixOf label then
    match Punycode.decode? (label.drop asciiMark.length) with
    | some cs =>
      if cs.any (128 ≤ ·.toNat) ∧ cs.all (fun c => fold c = c ∧ ! isRefused c ∧ ! isIgnored c) ∧
          isWellFormed cs ∧ asciiMark ++ Punycode.encode cs = label then some label
      else none
    | none => none
  else if label.all (·.toNat < 128) then some label
  else if ! isWellFormed label then none
  else some (asciiMark ++ Punycode.encode label)

/-- The ASCII form of a name. -/
def toAscii? (cs : List Char) : Option (List Char) := do
  let folded := (cs.filter (! isIgnored ·)).map fold
  if folded.any isRefused then none
  else
    let ascii := ['.'].intercalate (← (folded.splitOn '.').mapM labelToAscii?)
    if ascii.any isForbidden then none else return ascii

end Domain

/-! ## Numbers as hosts -/

/-- Read a part of a numeric host: decimal, octal after a zero, hexadecimal after `0x`. -/
def hostNumber? (cs : List Char) : Option Nat :=
  let spelled? (base : Nat) (cs : List Char) : Option Nat :=
    (cs.mapM fun c => (Digit.hex? c).bind fun d => if d < base then some d else none).map
      (Digit.value base)
  match cs with
  | [] => none
  | '0' :: 'x' :: rest => spelled? 16 rest
  | '0' :: 'X' :: rest => spelled? 16 rest
  | ['0'] => some 0
  | '0' :: rest => spelled? 8 rest
  | _ => spelled? 10 cs

/-- The parts of a name; a point at its end starts no part. -/
def hostParts (cs : List Char) : List (List Char) :=
  match (cs.splitOn '.').reverse with
  | [] :: rest => rest.reverse
  | parts => parts.reverse

/-- The last part of a name is a number. -/
def endsInNumber (cs : List Char) : Bool :=
  match (hostParts cs).getLast? with
  | some last => (! last.isEmpty && last.all Char.isDigit) || (hostNumber? last).isSome
  | none => false

/-- The address that a numeric host stands for: its last part fills all octets that are left. -/
def numericHost? (cs : List Char) : Option Net.Ipv4 := do
  let numbers ← (hostParts cs).mapM hostNumber?
  match numbers.reverse with
  | [] => none
  | last :: before =>
    if 3 < before.length ∨ before.any (255 < ·) ∨ Nat.pow 256 (4 - before.length) ≤ last then none
    else
      let high := before.reverse.foldl (fun n d => n * 256 + d) 0
      return .ofNat (high * Nat.pow 256 (4 - before.length) + last)

/-! ## Reading hosts -/

/-- Read a host between brackets. -/
def bracketed? (cs : List Char) : Except Fault Host :=
  if cs.getLast? = some ']' then
    match Net.Ipv6.read? (cs.drop 1).dropLast with
    | some (ip, []) => .ok (.v6 ip)
    | _ => .error .ipv6
  else .error .ipv6

/-- Read the host of the web's own schemes. -/
def readHost (cs : List Char) : Except Fault Host :=
  if cs.head? = some '[' then bracketed? cs
  else
    match (Utf8.decode? (Percent.decode (Utf8.encode (String.ofList cs)))).bind
        fun s => Domain.toAscii? s.toList with
    | none => .error .domain
    | some [] => .error .emptyHost
    | some name =>
      if endsInNumber name then
        match numericHost? name with
        | some ip => .ok (.v4 ip)
        | none => .error .ipv4
      else .ok (.name (String.ofList name))

/-- Read the host of any other scheme. -/
def readOpaqueHost (cs : List Char) : Except Fault Host :=
  if cs.head? = some '[' then bracketed? cs
  else if cs.any "\x00\t\n\x0d #/:<>?@[\\]^|".toList.contains then .error .hostCharacter
  else .ok (.name (String.ofList (Percent.encode Percent.isControl cs)))

end Concierge.Url
