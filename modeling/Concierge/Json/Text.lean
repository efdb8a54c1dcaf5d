import Concierge.Json.Tree
import Concierge.Text.Decimal
import Concierge.Text.Digit
import Concierge.Text.Utf8

/-!
# JSON texts

Reading a text gives its tree and what follows it; a text that breaks off or breaks the grammar
gives the tree up to there, ending in `damage`, and no rest.  The recursion is bounded by the length
of the text, which every nested value makes shorter.
-/

namespace Concierge.Json

/-- The octet of an ASCII character. -/
def octet (c : Char) : UInt8 := UInt8.ofNat c.toNat

/-- The white space between tokens. -/
def isGap (b : UInt8) : Bool := b == 0x20 || b == 0x0A || b == 0x0D || b == 0x09

/-- What follows the white space. -/
def skipGap (bytes : List UInt8) : List UInt8 := bytes.dropWhile isGap

/-- An ASCII digit. -/
def isDigit (b : UInt8) : Bool := 0x30 ≤ b && b ≤ 0x39

/-! ## Numbers -/

/-- The value of an ASCII digit. -/
def digitValue (b : UInt8) : Nat := b.toNat - 0x30

/-- A number as it was written. -/
structure NumberLiteral where
  /-- Whether a minus sign stands before it. -/
  negative : Bool
  /-- The digits before the point. -/
  whole : List UInt8
  /-- The digits after the point, if there is one. -/
  fraction : Option (List UInt8)
  /-- Whether the exponent is negative and its digits, if there is one. -/
  exponent : Option (Bool × List UInt8)

/-- The tree of a number.  Minus zero is no integer. -/
def NumberLiteral.tree (n : NumberLiteral) : Tree :=
  let whole := Digit.value 10 (n.whole.map digitValue)
  match n.fraction, n.exponent with
  | none, none =>
    let i : Int := if n.negative then -whole else whole
    if fitsWord i ∧ ¬ (n.negative ∧ whole = 0) then .int i
    else .real (Decimal.isFinite (n.whole.map digitValue) 0)
  | fraction, exponent =>
    let fraction := (fraction.getD []).map digitValue
    let exponent : Int := match exponent with
      | some (true, digits) => -(Digit.value 10 (digits.map digitValue))
      | some (false, digits) => Digit.value 10 (digits.map digitValue)
      | none => 0
    .real (Decimal.isFinite (n.whole.map digitValue ++ fraction) (exponent - fraction.length))

/-- Read at least one digit. -/
def digits? (bytes : List UInt8) : Option (List UInt8 × List UInt8) :=
  match bytes.takeWhile isDigit with
  | [] => none
  | ds => some (ds, bytes.dropWhile isDigit)

/-- Read the digits before the point: a zero stands alone. -/
def whole? (bytes : List UInt8) : Option (List UInt8 × List UInt8) :=
  match bytes with
  | 0x30 :: b :: rest => if isDigit b then none else some ([0x30], b :: rest)
  | [0x30] => some ([0x30], [])
  | _ => digits? bytes

/-- Read the point and the digits after it, if a point follows. -/
def fraction? (bytes : List UInt8) : Option (Option (List UInt8) × List UInt8) :=
  match bytes with
  | 0x2E :: rest => (digits? rest).map fun (ds, rest) => (some ds, rest)
  | _ => some (none, bytes)

/-- Read the exponent, if one follows. -/
def exponent? (bytes : List UInt8) : Option (Option (Bool × List UInt8) × List UInt8) :=
  match bytes with
  | b :: rest =>
    if b = 0x65 ∨ b = 0x45 then
      match rest with
      | 0x2D :: rest => (digits? rest).map fun (ds, rest) => (some (true, ds), rest)
      | 0x2B :: rest => (digits? rest).map fun (ds, rest) => (some (false, ds), rest)
      | _ => (digits? rest).map fun (ds, rest) => (some (false, ds), rest)
    else some (none, bytes)
  | [] => some (none, [])

/-- Read a number. -/
def number? (bytes : List UInt8) : Option (NumberLiteral × List UInt8) := do
  let (negative, bytes) := match bytes with
    | 0x2D :: rest => (true, rest)
    | _ => (false, bytes)
  let (whole, bytes) ← whole? bytes
  let (fraction, bytes) ← fraction? bytes
  let (exponent, bytes) ← exponent? bytes
  return (⟨negative, whole, fraction, exponent⟩, bytes)

/-! ## Text literals -/

/-- A piece of a text literal: octets as they stand, or a UTF-16 unit given by an escape. -/
inductive Piece where
  | octet (b : UInt8)
  | unit (n : Nat)

/-- The value of four hexadecimal digits. -/
def hexUnit? (a b c d : UInt8) : Option Nat := do
  let digit (x : UInt8) : Option Nat := Digit.hex? (Char.ofNat x.toNat)
  return (((← digit a) * 16 + (← digit b)) * 16 + (← digit c)) * 16 + (← digit d)

/-- What a one-letter escape stands for. -/
def simpleEscape? (b : UInt8) : Option UInt8 :=
  if b = octet '"' ∨ b = octet '\\' ∨ b = octet '/' then some b
  else if b = octet 'b' then some 0x08
  else if b = octet 'f' then some 0x0C
  else if b = octet 'n' then some 0x0A
  else if b = octet 'r' then some 0x0D
  else if b = octet 't' then some 0x09
  else none

/-- Read the pieces up to the closing quote, newest first. -/
def pieces? (read : List Piece) : List UInt8 → Option (List Piece × List UInt8)
  | [] => none
  | 0x22 :: rest => some (read, rest)
  | 0x5C :: 0x75 :: a :: b :: c :: d :: rest =>
    match hexUnit? a b c d with
    | some n => pieces? (.unit n :: read) rest
    | none => none
  | 0x5C :: b :: rest =>
    match simpleEscape? b with
    | some b => pieces? (.octet b :: read) rest
    | none => none
  | b :: rest => if b < 0x20 then none else pieces? (.octet b :: read) rest

/-- The octets of a literal, oldest piece first; none at a lone surrogate. -/
def joinPieces? : List Piece → List UInt8 → Option (List UInt8)
  | [], bytes => some bytes.reverse
  | .octet b :: rest, bytes => joinPieces? rest (b :: bytes)
  | .unit high :: rest, bytes =>
    if 0xD800 ≤ high ∧ high < 0xDC00 then
      match rest with
      | .unit low :: rest =>
        if 0xDC00 ≤ low ∧ low < 0xE000 then
          let c := Char.ofNat (0x10000 + (high - 0xD800) * 0x400 + (low - 0xDC00))
          joinPieces? rest ((String.utf8EncodeChar c).reverse ++ bytes)
        else none
      | _ => none
    else if 0xDC00 ≤ high ∧ high < 0xE000 then none
    else joinPieces? rest ((String.utf8EncodeChar (Char.ofNat high)).reverse ++ bytes)

/-- Read a text literal after its opening quote; the literal may denote no text. -/
def literal? (bytes : List UInt8) : Option (Option String × List UInt8) :=
  (pieces? [] bytes).map fun (read, rest) =>
    ((joinPieces? read.reverse []).bind Utf8.decode?, rest)

/-! ## Values -/

/-- A tree and what follows it, if the text did not break inside. -/
abbrev Parsed := Tree × Option (List UInt8)

/-- Read a word of the grammar. -/
def word (spelling : String) (meaning : Tree) (bytes : List UInt8) : Parsed :=
  let letters := spelling.toList.map octet
  if bytes.take letters.length = letters then (meaning, some (bytes.drop letters.length))
  else (.damage, none)

mutual

/-- Read a value. -/
def value : Nat → List UInt8 → Parsed
  | 0, _ => (.damage, none)
  | fuel + 1, bytes =>
    match skipGap bytes with
    | [] => (.damage, none)
    | b :: rest =>
      if b = octet 'n' then word "null" .null (b :: rest)
      else if b = octet 't' then word "true" (.bool true) (b :: rest)
      else if b = octet 'f' then word "false" (.bool false) (b :: rest)
      else if b = octet '"' then
        match literal? rest with
        | some (text, rest) => (.string text, some rest)
        | none => (.damage, none)
      else if b = octet '-' ∨ isDigit b then
        match number? (b :: rest) with
        | some (n, rest) => (n.tree, some rest)
        | none => (.damage, none)
      else if b = octet '[' then
        match skipGap rest with
        | [] => (.array [.damage], none)
        | c :: rest =>
          if c = octet ']' then (.array [], some rest) else items fuel [] (c :: rest)
      else if b = octet '\x7b' then
        match skipGap rest with
        | [] => (.object [(none, .damage)], none)
        | c :: rest =>
          if c = octet '\x7d' then (.object [], some rest) else members fuel [] (c :: rest)
      else (.damage, none)

/-- Read the items of an array up to its end; the items read so far come newest first. -/
def items : Nat → List Tree → List UInt8 → Parsed
  | 0, read, _ => (.array (.damage :: read).reverse, none)
  | fuel + 1, read, bytes =>
    match value fuel bytes with
    | (item, none) => (.array (item :: read).reverse, none)
    | (item, some rest) =>
      match skipGap rest with
      | [] => (.array (.damage :: item :: read).reverse, none)
      | c :: rest =>
        if c = octet ']' then (.array (item :: read).reverse, some rest)
        else if c = octet ',' then items fuel (item :: read) rest
        else (.array (.damage :: item :: read).reverse, none)

/-- Read the members of an object up to its end; the members read so far come newest first. -/
def members : Nat → List (Option String × Tree) → List UInt8 → Parsed
  | 0, read, _ => (.object ((none, .damage) :: read).reverse, none)
  | fuel + 1, read, bytes =>
    match skipGap bytes with
    | [] => (.object ((none, .damage) :: read).reverse, none)
    | q :: rest =>
      if q ≠ octet '"' then (.object ((none, .damage) :: read).reverse, none)
      else
        match literal? rest with
        | none => (.object ((none, .damage) :: read).reverse, none)
        | some (key, rest) =>
          match skipGap rest with
          | [] => (.object ((key, .damage) :: read).reverse, none)
          | c :: rest =>
            if c ≠ octet ':' then (.object ((key, .damage) :: read).reverse, none)
            else
              match value fuel rest with
              | (member, none) => (.object ((key, member) :: read).reverse, none)
              | (member, some rest) =>
                match skipGap rest with
                | [] => (.object ((none, .damage) :: (key, member) :: read).reverse, none)
                | c :: rest =>
                  if c = octet '\x7d' then (.object ((key, member) :: read).reverse, some rest)
                  else if c = octet ',' then members fuel ((key, member) :: read) rest
                  else (.object ((none, .damage) :: (key, member) :: read).reverse, none)

end

/-- Read the value at the start of a text. -/
def parse (bytes : List UInt8) : Parsed := value (bytes.length + 1) bytes

/-! ## Values of clean texts -/

mutual

/-- The value of a tree without faults.  Numbers that are no 64-bit integers lose their spelling. -/
def Tree.toJson? : Tree → Option Json
  | .null => some .null
  | .bool b => some (.bool b)
  | .int i => some (.int i)
  | .real finite => if finite then some (.real "0.0") else none
  | .string text => text.map .string
  | .array items => (toJsonItems? items).map .array
  | .object members => (toJsonMembers? members).map .object
  | .damage => none

/-- The values of the items of an array. -/
def Tree.toJsonItems? : List Tree → Option (List Json)
  | [] => some []
  | item :: rest => do return (← item.toJson?) :: (← toJsonItems? rest)

/-- The values of the members of an object. -/
def Tree.toJsonMembers? : List (Option String × Tree) → Option (List (String × Json))
  | [] => some []
  | (key, value) :: rest => do
    return ((← key), (← value.toJson?)) :: (← toJsonMembers? rest)

end

/-- The value of a text that is JSON from end to end. -/
def ofText? (bytes : List UInt8) : Option Json :=
  match parse bytes with
  | (tree, some rest) => if (skipGap rest).isEmpty then tree.toJson? else none
  | (_, none) => none

end Concierge.Json
