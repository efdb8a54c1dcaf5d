import Concierge.Json.Basic
import Concierge.Text.Digit

/-!
# Printed JSON

The compact form has no white space.  The indented form puts each item and member on its own line,
two spaces deeper than what holds it, and writes empty arrays and objects on one line.
-/

namespace Concierge.Json

/-- A character of a text literal: the quote, the backslash and control characters are escaped. -/
def escapeChar (c : Char) : List Char :=
  if c = '"' then ['\\', '"']
  else if c = '\\' then ['\\', '\\']
  else if c = '\n' then ['\\', 'n']
  else if c = '\r' then ['\\', 'r']
  else if c = '\t' then ['\\', 't']
  else if c = '\x08' then ['\\', 'b']
  else if c = '\x0c' then ['\\', 'f']
  else if c.toNat < 0x20 then
    ['\\', 'u', '0', '0', Digit.hexLower (c.toNat / 16), Digit.hexLower (c.toNat % 16)]
  else [c]

/-- A text literal. -/
def quoted (s : String) : List Char := '"' :: s.toList.flatMap escapeChar ++ ['"']

mutual

/-- The compact form. -/
def compactChars : Json → List Char
  | .null => "null".toList
  | .bool true => "true".toList
  | .bool false => "false".toList
  | .int i => (toString i).toList
  | .real spelling => spelling.toList
  | .string s => quoted s
  | .array items => '[' :: (compactItems items ++ [']'])
  | .object members => '\x7b' :: (compactMembers members ++ ['\x7d'])

/-- Items with commas between them. -/
def compactItems : List Json → List Char
  | [] => []
  | [item] => compactChars item
  | item :: rest => compactChars item ++ ',' :: compactItems rest

/-- Members with commas between them. -/
def compactMembers : List (String × Json) → List Char
  | [] => []
  | [(key, value)] => quoted key ++ ':' :: compactChars value
  | (key, value) :: rest => quoted key ++ ':' :: compactChars value ++ ',' :: compactMembers rest

end

/-- The start of a line at a depth. -/
def newline (depth : Nat) : List Char := '\n' :: List.replicate (2 * depth) ' '

mutual

/-- The indented form of a value at a depth. -/
def indentedChars (depth : Nat) : Json → List Char
  | .null => "null".toList
  | .bool true => "true".toList
  | .bool false => "false".toList
  | .int i => (toString i).toList
  | .real spelling => spelling.toList
  | .string s => quoted s
  | .array [] => ['[', ']']
  | .array items => '[' :: (indentedItems (depth + 1) items ++ newline depth ++ [']'])
  | .object [] => ['\x7b', '\x7d']
  | .object members =>
    '\x7b' :: (indentedMembers (depth + 1) members ++ newline depth ++ ['\x7d'])

/-- Items, each on its own line. -/
def indentedItems (depth : Nat) : List Json → List Char
  | [] => []
  | [item] => newline depth ++ indentedChars depth item
  | item :: rest => newline depth ++ indentedChars depth item ++ ',' :: indentedItems depth rest

/-- Members, each on its own line. -/
def indentedMembers (depth : Nat) : List (String × Json) → List Char
  | [] => []
  | [(key, value)] => newline depth ++ quoted key ++ ':' :: ' ' :: indentedChars depth value
  | (key, value) :: rest =>
    newline depth ++ quoted key ++ ':' :: ' ' :: indentedChars depth value ++
      ',' :: indentedMembers depth rest

end

/-- The compact text of a value. -/
def compact (value : Json) : String := String.ofList (compactChars value)

/-- The indented text of a value. -/
def indented (value : Json) : String := String.ofList (indentedChars 0 value)

end Concierge.Json
