import Concierge.Yaml.Token

/-!
# Reading tokens

The reader keeps the indentation of the open block collections and, for each level of flow
collections, the place where a key without a mark of its own may have begun.  A colon turns that
place into a key, if it is still on the same line.
-/

namespace Concierge.Yaml

/-- A place where a key may have begun. -/
structure Candidate where
  /-- How many tokens stand before it. -/
  position : Nat
  /-- It must turn out to be a key. -/
  required : Bool
  index : Nat
  line : Nat
  column : Nat

/-- The state of the reader. -/
structure Lexer where
  cursor : Cursor
  /-- The tokens read so far, newest first. -/
  read : List Token
  /-- The indentation of the block collections, innermost first; before the first one it is -1. -/
  indents : List Int
  /-- The possible key of each flow level, innermost first; the last is that of the block level. -/
  keys : List (Option Candidate)
  /-- A key may begin here. -/
  allowed : Bool

namespace Lexer

/-- The start of a text. -/
def start (cs : List Char) : Lexer := ⟨.start cs, [], [-1], [none], true⟩

/-- The indentation of the innermost block collection. -/
def indent (s : Lexer) : Int := s.indents.headD (-1)

/-- Inside a flow collection. -/
def inFlow (s : Lexer) : Bool := s.keys.length > 1

/-- Append a token. -/
def emit (s : Lexer) (t : Token) : Lexer := { s with read := t :: s.read }

/-- Append a token and pass over characters. -/
def take (s : Lexer) (t : Token) (n : Nat) : Lexer := { s.emit t with cursor := s.cursor.skip n }

/-- Put a token before the tokens that came after a position. -/
def insertAt (position : Nat) (t : Token) (read : List Token) : List Token :=
  read.take (read.length - position) ++ t :: read.drop (read.length - position)

/-- Forget the possible key of this level, unless it must be one. -/
def dropKey? (s : Lexer) : Option Lexer :=
  match s.keys with
  | some k :: rest => if k.required then none else some { s with keys := none :: rest }
  | _ => some s

/-- A key may begin at the cursor. -/
def saveKey? (s : Lexer) : Option Lexer :=
  if s.allowed then
    s.dropKey?.map fun s =>
      { s with keys := some ⟨s.read.length, ! s.inFlow && s.indent == s.cursor.column,
        s.cursor.index, s.cursor.line, s.cursor.column⟩ :: s.keys.drop 1 }
  else some s

/-- The length of keys without a mark of their own. -/
def keyLimit : Nat := 1024

/-- Forget possible keys that began on an earlier line or too long ago. -/
def expireKeys? (s : Lexer) : Option Lexer := do
  let keys ← s.keys.mapM fun
    | none => some none
    | some k =>
      if k.line < s.cursor.line ∨ k.index + keyLimit < s.cursor.index then
        if k.required then none else some none
      else some (some k)
  return { s with keys }

/-- Close the block collections that are indented more than a column. -/
def unroll (column : Int) : Nat → Lexer → Lexer
  | 0, s => s
  | fuel + 1, s =>
    if s.indent > column then
      unroll column fuel { s.emit .blockEnd with indents := s.indents.drop 1 }
    else s

/-- Close block collections unless inside a flow collection. -/
def unrollTo (column : Int) (s : Lexer) : Lexer :=
  if s.inFlow then s else unroll column s.indents.length s

/-- Open a block collection at a column, if it is indented more than the innermost one. -/
def roll (column : Nat) (position : Nat) (t : Token) (s : Lexer) : Lexer :=
  if ! s.inFlow && s.indent < column then
    { s with indents := column :: s.indents, read := insertAt position t s.read }
  else s

/-- Pass over blanks, comments and line ends.  Tabs count as blanks only where no indentation is
expected. -/
def skipSpace : Nat → Lexer → Lexer
  | 0, s => s
  | fuel + 1, s =>
    match s.cursor.rest with
    | [] => s
    | c :: _ =>
      if c = ' ' ∨ (c = '\t' ∧ (s.inFlow ∨ ! s.allowed)) then
        skipSpace fuel { s with cursor := s.cursor.skip 1 }
      else if c = '#' then
        skipSpace fuel { s with cursor := s.cursor.skipWhile (! isBreak ·) }
      else match s.cursor.takeBreak? with
        | some (_, cursor) => skipSpace fuel { s with cursor, allowed := s.allowed || ! s.inFlow }
        | none => s

/-- Read an anchor or an alias after its mark. -/
def name? (s : Lexer) (token : String → Token) : Option Lexer := do
  let name := (s.cursor.rest.drop 1).takeWhile isNameChar
  let after := s.cursor.rest.drop (1 + name.length)
  if name.isEmpty ∨ ¬ (atGap after ∨ (after.head?.any "?:,]\x7d%@\x60".toList.contains)) then none
  else return s.take (token (String.ofList name)) (1 + name.length)

/-- The characters of tags. -/
def isTagChar (c : Char) : Bool :=
  isNameChar c || ";/?:@&=+$.%!~*'()".toList.contains c

/-- The characters of tags, including those that only a tag in angle brackets may have. -/
def isUriChar (c : Char) : Bool := isTagChar c || c == ',' || c == '[' || c == ']'

/-- What the names of the standard's own tags start with. -/
def standardTags : List Char := "tag:yaml.org,2002:".toList

/-- The token of a tag that is written out. -/
def tagOf (uri : List Char) : Token :=
  if standardTags.isPrefixOf uri then
    .tag true (String.ofList (uri.drop standardTags.length))
  else .tag false (String.ofList uri)

/-- Read a tag. -/
def tag? (s : Lexer) : Option Lexer := do
  let (token, length) ← match s.cursor.rest with
    | '!' :: '<' :: rest =>
      let uri := rest.takeWhile isUriChar
      if uri.isEmpty ∨ rest[uri.length]? ≠ some '>' then none
      else some (tagOf uri, uri.length + 3)
    | '!' :: '!' :: rest =>
      let suffix := rest.takeWhile isTagChar
      if suffix.isEmpty then none
      else some (Token.tag true (String.ofList suffix), suffix.length + 2)
    | '!' :: rest =>
      let suffix := rest.takeWhile isTagChar
      if suffix.contains '!' then none
      else some (Token.tag false (String.ofList ('!' :: suffix)), suffix.length + 1)
    | _ => none
  let after := s.cursor.rest.drop length
  if atGap after ∨ (s.inFlow ∧ after.head? = some ',') then return s.take token length else none

/-- How the line ends after a block scalar are kept. -/
inductive Chomping where
  | strip
  | clip
  | keep
  deriving DecidableEq

/-- Read the marks of a block scalar: the chomping and the indentation, in either order. -/
def blockMarks? (cs : List Char) : Option (Chomping × Nat × List Char) :=
  let chomping (cs : List Char) : Chomping × List Char := match cs with
    | '+' :: rest => (.keep, rest)
    | '-' :: rest => (.strip, rest)
    | _ => (.clip, cs)
  let indentation (cs : List Char) : Option (Nat × List Char) := match cs with
    | c :: rest =>
      if c = '0' then none else if c.isDigit then some (c.toNat - 48, rest) else some (0, cs)
    | [] => some (0, [])
  match chomping cs with
  | (.clip, _) => (indentation cs).map fun (n, rest) => ((chomping rest).1, n, (chomping rest).2)
  | (mark, rest) => (indentation rest).map fun (n, rest) => (mark, n, rest)

/-- Read the indentation and empty lines before the next line of a block scalar.  As long as the
indentation is unknown, the deepest one seen is kept. -/
def blockLines? (parent : Int) (indent : Nat) :
    Nat → Nat → List Char → Cursor → Option (Nat × List Char × Cursor)
  | 0, _, _, _ => none
  | fuel + 1, deepest, breaks, c =>
    let spaces := (c.rest.takeWhile (· == ' ')).length
    let c := c.skip (if indent = 0 then spaces else min spaces (indent - c.column))
    let deepest := max deepest c.column
    if (indent = 0 ∨ c.column < indent) ∧ c.rest.head? = some '\t' then none
    else match c.takeBreak? with
      | some (b, c) => blockLines? parent indent fuel deepest (breaks ++ [b]) c
      | none =>
        let found := if indent = 0 then max (max deepest (parent + 1).toNat) 1 else indent
        some (found, breaks, c)

/-- Read the lines of a block scalar.  `first` and `breaks` are the line ends since the last line,
`blank` says that the last line started with a blank. -/
def blockText? (literal : Bool) (indent : Nat) (chomping : Chomping) :
    Nat → List Char → List Char → List Char → Bool → Cursor → Option (List Char × Cursor)
  | 0, _, _, _, _, _ => none
  | fuel + 1, text, first, breaks, blank, c =>
    if c.column = indent ∧ ! c.rest.isEmpty then
      let startsBlank := c.rest.head?.any isBlank
      let text := text ++
        (if ! literal ∧ first = ['\n'] ∧ ! blank ∧ ! startsBlank then
          (if breaks.isEmpty then [' '] else [])
        else first) ++ breaks
      let line := c.rest.takeWhile (! isBreak ·)
      let c := c.skip line.length
      match c.takeBreak? with
      | none => blockText? literal indent chomping fuel (text ++ line) [] [] startsBlank c
      | some (b, c) =>
        match blockLines? 0 indent (c.rest.length + 1) 0 [] c with
        | none => none
        | some (_, breaks, c) =>
          blockText? literal indent chomping fuel (text ++ line) [b] breaks startsBlank c
    else
      some (text ++ (if chomping = .strip then [] else first) ++
        (if chomping = .keep then breaks else []), c)

/-- Read a block scalar. -/
def block? (literal : Bool) (s : Lexer) : Option Lexer := do
  let (chomping, increment, rest) ← blockMarks? (s.cursor.rest.drop 1)
  let c := (s.cursor.skip (s.cursor.rest.length - rest.length)).skipWhile isBlank
  let c := if c.rest.head? = some '#' then c.skipWhile (! isBreak ·) else c
  if ! atLineEnd c.rest then none
  else
    let c := match c.takeBreak? with
      | some (_, c) => c
      | none => c
    let given := if increment = 0 then 0 else (max s.indent 0).toNat + increment
    let (indent, breaks, c) ← blockLines? s.indent given (c.rest.length + 1) 0 [] c
    let (text, c) ← blockText? literal indent chomping (c.rest.length + 1) [] [] breaks false c
    return { s.emit (.scalar false (String.ofList text)) with cursor := c }

/-- Read a directive: only that of the version is known. -/
def directive? (s : Lexer) : Option Lexer :=
  let line := s.cursor.rest.takeWhile (! isBreak ·)
  let words := ((line.takeWhile (· != '#')).splitBy fun a b => isBlank a == isBlank b).filter
    fun w => ! w.all isBlank
  match words.map String.ofList with
  | ["%YAML", version] =>
    if version = "1.1" ∨ version = "1.2" then some (s.take .versionDirective line.length) else none
  | _ => none

/-- Read the next token, or several, at a cursor that stands at something. -/
def next? (c : Char) (s : Lexer) : Option Lexer :=
  let after := s.cursor.rest.drop 1
  if s.cursor.column = 0 ∧ c = '%' then do
    let s ← (s.unrollTo (-1)).dropKey?
    directive? { s with allowed := false }
  else if s.cursor.atDocumentMarker then do
    let s ← (s.unrollTo (-1)).dropKey?
    return { s.take (if c = '-' then .documentStart else .documentEnd) 3 with allowed := false }
  else if c = '[' ∨ c = '\x7b' then do
    let s ← s.saveKey?
    return { s.take (if c = '[' then .flowSequenceStart else .flowMappingStart) 1 with
      keys := none :: s.keys, allowed := true }
  else if c = ']' ∨ c = '\x7d' then do
    let s ← s.dropKey?
    return { s.take (if c = ']' then .flowSequenceEnd else .flowMappingEnd) 1 with
      keys := if s.inFlow then s.keys.drop 1 else s.keys, allowed := false }
  else if c = ',' then do
    let s ← s.dropKey?
    return { s.take .flowEntry 1 with allowed := true }
  else if c = '-' ∧ atGap after then
    if ! s.inFlow ∧ ! s.allowed then none
    else do
      let s ← (s.roll s.cursor.column s.read.length .sequenceStart).dropKey?
      return { s.take .entry 1 with allowed := true }
  else if c = '?' ∧ (s.inFlow ∨ atGap after) then
    if ! s.inFlow ∧ ! s.allowed then none
    else do
      let s ← (s.roll s.cursor.column s.read.length .mappingStart).dropKey?
      return { s.take .key 1 with allowed := ! s.inFlow }
  else if c = ':' ∧ (s.inFlow ∨ atGap after) then
    match s.keys with
    | some k :: keys =>
      let s := { s with read := insertAt k.position .key s.read, keys := none :: keys }
      let s := s.roll k.column k.position .mappingStart
      some { s.take .value 1 with allowed := false }
    | _ =>
      if ! s.inFlow ∧ ! s.allowed then none
      else
        let s := s.roll s.cursor.column s.read.length .mappingStart
        some { s.take .value 1 with allowed := ! s.inFlow }
  else if c = '*' then do
    let s ← s.saveKey?
    name? { s with allowed := false } .alias
  else if c = '&' then do
    let s ← s.saveKey?
    name? { s with allowed := false } .anchor
  else if c = '!' then do
    let s ← s.saveKey?
    tag? { s with allowed := false }
  else if (c = '|' ∨ c = '>') ∧ ! s.inFlow then do
    let s ← s.dropKey?
    block? (c = '|') { s with allowed := true }
  else if c = '\'' ∨ c = '"' then do
    let s ← s.saveKey?
    let (text, cursor) ←
      quoted? (s.cursor.rest.length + 1) (c = '\'') [] (s.cursor.skip 1)
    return { s.emit (.scalar false (String.ofList text)) with cursor, allowed := false }
  else if ! (isIndicator c || isBlank c) ∨ (c = '-' ∧ ! (after.head?.any isBlank)) ∨
      (! s.inFlow ∧ (c = '?' ∨ c = ':') ∧ ! atGap after) then do
    let s ← s.saveKey?
    let (text, broken, cursor) ←
      plain? (s.cursor.rest.length + 2) s.inFlow (s.indent + 1).toNat [] .empty s.cursor
    return { s.emit (.scalar true (String.ofList text)) with cursor, allowed := broken }
  else none

/-- Read all tokens. -/
def run? : Nat → Lexer → Option (List Token)
  | 0, _ => none
  | fuel + 1, s => do
    let s ← (skipSpace (s.cursor.rest.length + 1) s).expireKeys?
    match s.cursor.rest with
    | [] =>
      let s ← (s.unrollTo (-1)).dropKey?
      return s.read.reverse
    | c :: _ => run? fuel (← (s.unrollTo s.cursor.column).next? c)

end Lexer

/-- The tokens of a text. -/
def tokens? (cs : List Char) : Option (List Token) :=
  if (Cursor.start cs).rest.all isPrintable then (Lexer.start cs).run? (2 * cs.length + 2) else none

end Concierge.Yaml
