/-!
# Tokens of YAML texts

Indentation and the place of colons decide where collections begin and end.  A token list makes both
explicit: block collections have a start and an end, and a key is announced before it, although it
is known to be a key only when its colon is met.  That is why the place of a possible key is kept
until then.
-/

namespace Concierge.Yaml

/-- A token. -/
inductive Token where
  | versionDirective
  | documentStart
  | documentEnd
  | sequenceStart
  | mappingStart
  | blockEnd
  | flowSequenceStart
  | flowSequenceEnd
  | flowMappingStart
  | flowMappingEnd
  | flowEntry
  | entry
  | key
  | value
  | anchor (name : String)
  | alias (name : String)
  /-- A tag; one of the standard's own tags is given by its name alone. -/
  | tag (standard : Bool) (name : String)
  | scalar (isPlain : Bool) (text : String)
  deriving DecidableEq, Repr

/-! ## Characters -/

/-- The blanks within a line. -/
def isBlank (c : Char) : Bool := c == ' ' || c == '\t'

/-- The characters that end a line. -/
def isBreak (c : Char) : Bool :=
  c == '\n' || c == '\r' || c == '\x85' || c == '\u2028' || c == '\u2029'

/-- The text ends, or a blank or a line end follows. -/
def atGap : List Char → Bool
  | [] => true
  | c :: _ => isBlank c || isBreak c

/-- The text or the line ends. -/
def atLineEnd : List Char → Bool
  | [] => true
  | c :: _ => isBreak c

/-- Characters that may stand in a text at all. -/
def isPrintable (c : Char) : Bool :=
  let n := c.toNat
  n == 9 || n == 10 || n == 13 || (0x20 ≤ n && n ≤ 0x7E) || n == 0x85 ||
    (0xA0 ≤ n && n ≤ 0xD7FF) || (0xE000 ≤ n && n ≤ 0xFFFD && n != 0xFEFF) || 0x10000 ≤ n

/-- The characters of the flow style. -/
def isFlowIndicator (c : Char) : Bool :=
  c == ',' || c == '[' || c == ']' || c == '\x7b' || c == '\x7d'

/-- Characters that start something else than a plain scalar. -/
def isIndicator (c : Char) : Bool :=
  isFlowIndicator c || "-?:#&*!|>'\"%@\x60".toList.contains c

/-- The characters of the names of anchors. -/
def isNameChar (c : Char) : Bool := c.isAlphanum || c == '_' || c == '-'

/-- A place in a text. -/
structure Cursor where
  rest : List Char
  index : Nat
  line : Nat
  column : Nat

namespace Cursor

/-- The start of a text; a byte order mark is no part of it. -/
def start (cs : List Char) : Cursor :=
  ⟨match cs with
    | '\uFEFF' :: rest => rest
    | _ => cs, 0, 0, 0⟩

/-- Pass over characters within a line. -/
def skip (n : Nat) (c : Cursor) : Cursor :=
  ⟨c.rest.drop n, c.index + n, c.line, c.column + n⟩

/-- Pass over the characters for which `p` holds, none of which ends a line. -/
def skipWhile (p : Char → Bool) (c : Cursor) : Cursor := c.skip (c.rest.takeWhile p).length

/-- Pass over a line end; it is read as a line feed unless it is a separator of its own. -/
def takeBreak? (c : Cursor) : Option (Char × Cursor) :=
  match c.rest with
  | '\r' :: '\n' :: rest => some ('\n', ⟨rest, c.index + 2, c.line + 1, 0⟩)
  | b :: rest =>
    if isBreak b then
      some (if b = '\u2028' ∨ b = '\u2029' then b else '\n', ⟨rest, c.index + 1, c.line + 1, 0⟩)
    else none
  | [] => none

/-- A marker of three characters stands at the start of a line. -/
def atMarker (mark : Char) (c : Cursor) : Bool :=
  c.column == 0 && c.rest.take 3 == [mark, mark, mark] && atGap (c.rest.drop 3)

/-- A document starts or ends here. -/
def atDocumentMarker (c : Cursor) : Bool := c.atMarker '-' || c.atMarker '.'

end Cursor

/-! ## Scalars -/

/-- The space between two words of a scalar. -/
structure Gap where
  /-- The blanks, as long as no line has ended. -/
  blanks : List Char
  /-- The first line end, if it is part of the text. -/
  first : List Char
  /-- The other line ends. -/
  others : List Char
  /-- Whether a line has ended. -/
  broken : Bool

namespace Gap

/-- No space. -/
def empty : Gap := ⟨[], [], [], false⟩

/-- What the space stands for: a single line end is folded into a blank. -/
def text (g : Gap) : List Char :=
  if g.broken then
    if g.first = ['\n'] then (if g.others.isEmpty then [' '] else g.others)
    else g.first ++ g.others
  else g.blanks

/-- Read the space from here on; a tab may not stand where indentation is needed. -/
def scan : Nat → Option Nat → Gap → Cursor → Option (Gap × Cursor)
  | 0, _, _, _ => none
  | fuel + 1, indent, g, c =>
    match c.rest with
    | [] => some (g, c)
    | x :: _ =>
      if isBlank x then
        if g.broken && x == '\t' && indent.any (c.column < ·) then none
        else scan fuel indent (if g.broken then g else { g with blanks := g.blanks ++ [x] })
          (c.skip 1)
      else match c.takeBreak? with
        | some (b, c) =>
          if g.broken then scan fuel indent { g with others := g.others ++ [b] } c
          else scan fuel indent ⟨[], [b], [], true⟩ c
        | none => some (g, c)

end Gap

/-- The next word of a plain scalar; none if a colon stands where it may not. -/
def plainWord? (flow : Bool) (read : List Char) : List Char → Option (List Char)
  | [] => some read.reverse
  | c :: rest =>
    if isBlank c || isBreak c then some read.reverse
    else if c = ':' ∧ atGap rest then some read.reverse
    else if flow && c == ':' && rest.head?.any (fun d => d == '?' || isFlowIndicator d) then none
    else if flow ∧ isFlowIndicator c then some read.reverse
    else plainWord? flow (c :: read) rest

/-- Read a plain scalar from a gap on; the last result says whether it ended at a line end. -/
def plain? : Nat → Bool → Nat → List Char → Gap → Cursor → Option (List Char × Bool × Cursor)
  | 0, _, _, _, _, _ => none
  | fuel + 1, flow, indent, text, gap, c =>
    if c.atDocumentMarker ∨ c.rest.head? = some '#' then some (text, gap.broken, c)
    else do
      let word ← plainWord? flow [] c.rest
      let (text, gap) := if word.isEmpty then (text, gap) else (text ++ gap.text ++ word, .empty)
      let c := c.skip word.length
      if c.rest.isEmpty ∨ ! atGap c.rest then return (text, gap.broken, c)
      else
        let (gap, c) ← gap.scan (c.rest.length + 1) (some indent) c
        if ! flow ∧ c.column < indent then return (text, gap.broken, c)
        else plain? fuel flow indent text gap c

/-- What a one-letter escape of a double-quoted scalar stands for. -/
def escape? (c : Char) : Option Char :=
  [('0', '\x00'), ('a', '\x07'), ('b', '\x08'), ('t', '\t'), ('\t', '\t'), ('n', '\n'),
    ('v', '\x0b'), ('f', '\x0c'), ('r', '\r'), ('e', '\x1b'), (' ', ' '), ('"', '"'), ('/', '/'),
    ('\\', '\\'), ('N', '\x85'), ('_', '\xa0'), ('L', '\u2028'), ('P', '\u2029')].lookup c

/-- The number of digits of a numeric escape. -/
def escapeLength? (c : Char) : Option Nat := [('x', 2), ('u', 4), ('U', 8)].lookup c

/-- The value of a hexadecimal digit. -/
def hexDigit? (c : Char) : Option Nat :=
  if c.isDigit then some (c.toNat - 48)
  else if 'a' ≤ c ∧ c ≤ 'f' then some (c.toNat - 87)
  else if 'A' ≤ c ∧ c ≤ 'F' then some (c.toNat - 55)
  else none

/-- The character of a numeric escape. -/
def charOfHex? (length : Nat) (cs : List Char) : Option Char := do
  let digits ← (cs.take length).mapM hexDigit?
  let n := digits.foldl (fun n d => n * 16 + d) 0
  if digits.length = length ∧ n.isValidChar then some (Char.ofNat n) else none

/-- The next word of a quoted scalar: its text, its length in the source, and whether it ends with
an escaped line end. -/
def quotedWord? (single : Bool) (read : List Char) (length : Nat) :
    List Char → Option (List Char × Nat × Bool)
  | [] => none
  | c :: rest =>
    if isBlank c || isBreak c then some (read.reverse, length, false)
    else if single then
      if c = '\'' then
        match rest with
        | '\'' :: rest => quotedWord? single ('\'' :: read) (length + 2) rest
        | _ => some (read.reverse, length, false)
      else quotedWord? single (c :: read) (length + 1) rest
    else if c = '"' then some (read.reverse, length, false)
    else if c = '\\' then
      match rest with
      | [] => none
      | e :: rest =>
        if isBreak e then some (read.reverse, length + 1, true)
        else match escape? e with
          | some x => quotedWord? single (x :: read) (length + 2) rest
          | none => match escapeLength? e with
            | some n => match charOfHex? n rest with
              | some x => skipping single (x :: read) (length + 2 + n) n rest
              | none => none
            | none => none
    else quotedWord? single (c :: read) (length + 1) rest
where
  /-- Pass over the digits of an escape. -/
  skipping (single : Bool) (read : List Char) (length : Nat) (n : Nat) :
      List Char → Option (List Char × Nat × Bool)
    | [] => none
    | c :: rest => match n with
      | 0 => quotedWord? single read length (c :: rest)
      | n + 1 => skipping single read length n rest

/-- Read a quoted scalar after its opening quote. -/
def quoted? : Nat → Bool → List Char → Cursor → Option (List Char × Cursor)
  | 0, _, _, _ => none
  | fuel + 1, single, text, c =>
    if c.atDocumentMarker then none
    else do
      let (word, length, continued) ← quotedWord? single [] 0 c.rest
      let text := text ++ word
      let c := c.skip length
      let (gap, c) ← if continued then do
          let (_, c) ← c.takeBreak?
          Gap.scan (c.rest.length + 1) none ⟨[], [], [], true⟩ c
        else if c.rest.head? = some (if single then '\'' else '"') then some (.empty, c)
        else Gap.scan (c.rest.length + 1) none .empty c
      if ! continued ∧ gap.blanks.isEmpty ∧ ! gap.broken then return (text, c.skip 1)
      else quoted? fuel single (text ++ gap.text) c

end Concierge.Yaml
