import Concierge.Text.Digit

/-!
# Identifiers

Every account, person, door and link is named by a 128-bit identifier.  An identifier is written
in one way, as 32 lower-case digits in hyphenated groups, and read in four: hyphenated, plain,
braced and as a resource name.
-/

namespace Concierge

/-- A 128-bit identifier, as its 32 hexadecimal digits. -/
structure Uuid where
  /-- The digits, most significant first. -/
  digits : List (Fin 16)
  /-- There are 32 of them. -/
  length_digits : digits.length = 32
  deriving DecidableEq, Repr

namespace Uuid

/-- The identifier whose digits are all zero. -/
def nil : Uuid := ⟨List.replicate 32 0, by simp⟩

instance : Inhabited Uuid := ⟨nil⟩

/-- The identifier with the given numeric value, modulo 2^128. -/
def ofNat (n : Nat) : Uuid :=
  ⟨List.ofFn fun i : Fin 32 => Fin.ofNat 16 (n / Nat.pow 16 (31 - i.val)), by simp⟩

/-- Hyphens stand after the 8th, 12th, 16th and 20th digit. -/
def groups : List Nat := [8, 4, 4, 4, 12]

/-- Cut a list into groups and put a hyphen between them. -/
def hyphenate : List Nat → List Char → List Char
  | [], cs => cs
  | [_], cs => cs
  | n :: ns, cs => cs.take n ++ '-' :: hyphenate ns (cs.drop n)

/-- The written form. -/
def toChars (id : Uuid) : List Char :=
  hyphenate groups (id.digits.map fun d => Digit.hexLower d.val)

/-- The written form as text. -/
def toText (id : Uuid) : String := String.ofList id.toChars

instance : ToString Uuid := ⟨toText⟩

/-- Undo `hyphenate`: each group has its length and is followed by a hyphen. -/
def joinGroups? : List Nat → List Char → Option (List Char)
  | [], cs => some cs
  | [_], cs => some cs
  | n :: ns, cs =>
    match cs.drop n with
    | '-' :: rest => (joinGroups? ns rest).map (cs.take n ++ ·)
    | _ => none

/-- Read exactly 32 digits of either case. -/
def ofDigits? (cs : List Char) : Option Uuid :=
  match cs.mapM Digit.hex? with
  | some ns =>
    if h : ns.length = 32 then some ⟨ns.map (Fin.ofNat 16), by simpa using h⟩ else none
  | none => none

/-- Read the hyphenated form. -/
def ofHyphenated? (cs : List Char) : Option Uuid :=
  if cs.length = 36 then (joinGroups? groups cs).bind ofDigits? else none

/-- The spellings of the resource-name scheme that are understood. -/
def schemes : List (List Char) := ["urn:uuid:".toList, "URN:UUID:".toList]

/-- Read any of the accepted forms; the length tells them apart. -/
def ofChars? (cs : List Char) : Option Uuid :=
  if cs.length = 32 then ofDigits? cs
  else if cs.length = 36 then ofHyphenated? cs
  else if cs.length = 38 then
    if cs.head? = some '{' ∧ cs.getLast? = some '}' then ofHyphenated? (cs.drop 1).dropLast
    else none
  else if cs.take 9 ∈ schemes then ofHyphenated? (cs.drop 9)
  else none

/-- Read any of the accepted forms from text. -/
def ofText? (s : String) : Option Uuid := ofChars? s.toList

end Uuid

end Concierge
