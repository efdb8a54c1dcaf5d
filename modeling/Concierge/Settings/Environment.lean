import Concierge.Json.Basic
import Concierge.Text.Blank
import Concierge.Text.Decimal
import Concierge.Text.Digit
import Concierge.Width

/-!
# Settings from the environment

A variable whose name starts with the reserved letters sets the setting that the rest of its name
leads to, one level for each double underscore.  Its value is a word, a number, a quoted text, a
list or a table; whatever is none of these is taken as text, as it stands.
-/

namespace Concierge.Environment

/-! ## Values -/

/-- The white space between the parts of a value. -/
def isGap (c : Char) : Bool :=
  c == ' ' || c == '\t' || c == '\n' || c == '\x0c' || c == '\r'

/-- What follows the white space. -/
def skipGap (cs : List Char) : List Char := cs.dropWhile isGap

/-- The signs that end an unquoted value. -/
def isSeparator (c : Char) : Bool :=
  c == ',' || c == '[' || c == ']' || c == '\x7b' || c == '\x7d'

/-- The characters of unquoted keys. -/
def isKeyChar (c : Char) : Bool := c.isAlphanum || c == '_' || c == '-'

/-- Characters that a quoted text may not hold as they stand. -/
def isRefused (c : Char) : Bool := (c.toNat < 0x20 && c != '\t') || c == '\x7f'

/-- The character of a numeric escape. -/
def charOfHex? (digits : List Char) : Option Char := do
  let n := Digit.value 16 (← digits.mapM Digit.hex?)
  if n.isValidChar then some (Char.ofNat n) else none

/-- What a one-letter escape stands for. -/
def simpleEscape? : Char → Option Char
  | '"' => some '"'
  | '\\' => some '\\'
  | 'b' => some '\x08'
  | 'f' => some '\x0c'
  | 'n' => some '\n'
  | 'r' => some '\r'
  | 't' => some '\t'
  | _ => none

/-- Read a quoted text after its opening quote. -/
def quoted? (read : List Char) : List Char → Option (List Char × List Char)
  | [] => none
  | '"' :: rest => some (read.reverse, rest)
  | '\\' :: 'u' :: a :: b :: c :: d :: rest =>
    match charOfHex? [a, b, c, d] with
    | some x => quoted? (x :: read) rest
    | none => none
  | '\\' :: 'U' :: a :: b :: c :: d :: e :: f :: g :: h :: rest =>
    match charOfHex? [a, b, c, d, e, f, g, h] with
    | some x => quoted? (x :: read) rest
    | none => none
  | '\\' :: c :: rest =>
    match simpleEscape? c with
    | some x => quoted? (x :: read) rest
    | none => none
  | c :: rest => if isRefused c then none else quoted? (c :: read) rest

/-- Read a key. -/
def key? (cs : List Char) : Option (List Char × List Char) :=
  match cs with
  | '"' :: rest => quoted? [] rest
  | _ =>
    match cs.takeWhile isKeyChar with
    | [] => none
    | key => some (key, cs.dropWhile isKeyChar)

/-- An integer of 64 bits, with or without a sign. -/
def integer? (cs : List Char) : Option Int :=
  let number? (digits : List Char) : Option Nat :=
    if ! digits.isEmpty && digits.all Char.isDigit then some (Digit.natOf digits) else none
  match cs with
  | '-' :: digits => (number? digits).bind fun n =>
    if n ≤ Width.count 63 then some (-(n : Int)) else none
  | '+' :: digits | digits => (number? digits).bind fun n =>
    if n < Width.count 64 then some (n : Int) else none

/-- The value of an unquoted word. -/
def wordValue (word : String) : Json :=
  if word.toList.contains '.' ∧ (Decimal.read? word.toList).isSome then .real word
  else match integer? word.toList with
    | some i => .int i
    | none => .string word

/-- Read an unquoted value up to the next separator; the words for truth values are recognized by
their letters alone. -/
def word? (cs : List Char) : Json × List Char :=
  if "true".toList.isPrefixOf cs then (.bool true, cs.drop 4)
  else if "false".toList.isPrefixOf cs then (.bool false, cs.drop 5)
  else
    (wordValue (Text.trim (String.ofList (cs.takeWhile (! isSeparator ·)))),
      cs.dropWhile (! isSeparator ·))

mutual

/-- Read a value and the white space around it. -/
def value? : Nat → List Char → Option (Json × List Char)
  | 0, _ => none
  | fuel + 1, cs => do
    let (value, rest) ← match skipGap cs with
      | '\x7b' :: rest => members? fuel [] rest
      | '[' :: rest => items? fuel [] rest
      | '"' :: rest => (quoted? [] rest).map fun (s, rest) => (.string (String.ofList s), rest)
      | '\'' :: c :: '\'' :: rest => some (.string (String.ofList [c]), rest)
      | '\'' :: _ => none
      | cs => some (word? cs)
    return (value, skipGap rest)

/-- Read the items of a list up to its end; the items read so far come newest first. -/
def items? : Nat → List Json → List Char → Option (Json × List Char)
  | 0, _, _ => none
  | _ + 1, read, ']' :: rest => some (.array read.reverse, rest)
  | fuel + 1, read, cs => do
    let (item, rest) ← value? fuel cs
    match rest with
    | ',' :: rest => items? fuel (item :: read) rest
    | ']' :: rest => return (.array (item :: read).reverse, rest)
    | _ => none

/-- Read the members of a table up to its end; of two members for a key the later one counts. -/
def members? : Nat → List (String × Json) → List Char → Option (Json × List Char)
  | 0, _, _ => none
  | _ + 1, read, '\x7d' :: rest => some (.object read, rest)
  | fuel + 1, read, cs => do
    let (key, rest) ← key? (skipGap cs)
    match skipGap rest with
    | '=' :: rest =>
      let (value, rest) ← value? fuel rest
      let read := Json.setMember (String.ofList key) value read
      match rest with
      | ',' :: rest => members? fuel read rest
      | '\x7d' :: rest => return (.object read, rest)
      | _ => none
    | _ => none

end

/-- The value of a variable. -/
def value (text : String) : Json :=
  match value? (2 * text.length + 2) text.toList with
  | some (value, []) => value
  | _ => .string text

/-! ## Names -/

/-- The letters that every name starts with, in either case. -/
def reserved : String := "app__"

/-- Split a name into levels, at every separator from left to right and at every point. -/
def levels (level : List Char) : List Char → List (List Char)
  | [] => [level.reverse]
  | '_' :: '_' :: rest => level.reverse :: levels [] rest
  | '.' :: rest => level.reverse :: levels [] rest
  | c :: rest => levels (c :: level) rest

/-- The setting that a name leads to; none if the name is not one of ours or has an empty level. -/
def path? (name : String) : Option (List String) :=
  let name := (Text.trim name).toList.map Char.toLower
  if reserved.toList.isPrefixOf name then
    let path := levels [] (Text.trimBy Text.isSpace (name.drop reserved.length))
    if path.any List.isEmpty then none else some (path.map String.ofList)
  else none

/-- The table with one value, at a path. -/
def nest (value : Json) : List String → Json
  | [] => value
  | key :: rest => .object [(key, nest value rest)]

/-- The table of all variables; a later variable is laid over the earlier ones. -/
def layer (environment : List (String × String)) : Json :=
  environment.foldl
    (fun table (name, text) => match path? name with
      | some path => table.patch (nest (value text) path)
      | none => table)
    (.object [])

end Concierge.Environment
