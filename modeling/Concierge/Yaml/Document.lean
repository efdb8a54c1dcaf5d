import Concierge.Yaml.Scalar
import Concierge.Yaml.Token.Lexer

/-!
# YAML documents

A document is one node; its value is a JSON value.  Anchored nodes may be named again by an alias,
which stands for a copy of the node.  A text holds at most one document, and settings are read only
from a mapping, where an empty document counts as an empty one.
-/

namespace Concierge.Yaml

/-- A tag of a node. -/
structure Tag where
  /-- It is one of the standard's own. -/
  standard : Bool
  name : String
  deriving DecidableEq, Repr

/-- A node. -/
inductive Node where
  | scalar (tag : Option Tag) (isPlain : Bool) (text : String)
  | sequence (tag : Option Tag) (items : List Node)
  | mapping (tag : Option Tag) (entries : List (Node × Node))
  deriving Inhabited

/-- What a part of the token list was read to: the rest of the tokens and the anchored nodes. -/
structure Progress (α : Type) where
  result : α
  rest : List Token
  anchors : List (String × Node)

/-- A node that is not there. -/
def Node.missing : Node := .scalar none true ""

namespace Node

/-- The anchor and the tag before a node, in either order. -/
def properties : List Token → Option String × Option Tag × List Token
  | .anchor a :: .tag s t :: rest => (some a, some ⟨s, t⟩, rest)
  | .tag s t :: .anchor a :: rest => (some a, some ⟨s, t⟩, rest)
  | .anchor a :: rest => (some a, none, rest)
  | .tag s t :: rest => (none, some ⟨s, t⟩, rest)
  | rest => (none, none, rest)

/-- A collection whose end was met. -/
def closed (node : Node) (rest : List Token) (anchors : List (String × Node)) :
    Option (Progress Node) :=
  some ⟨node, rest, anchors⟩

/-- Tokens before which a block entry is empty. -/
def endsEntry (indentless : Bool) : List Token → Bool
  | .entry :: _ => true
  | .blockEnd :: _ => true
  | .key :: _ => indentless
  | .value :: _ => indentless
  | _ => false

/-- Tokens before which a key or a value of a block mapping is empty. -/
def endsMember : List Token → Bool
  | .key :: _ => true
  | .value :: _ => true
  | .blockEnd :: _ => true
  | _ => false

/-- Tokens before which a key or a value of a flow collection is empty. -/
def endsFlowMember (closing : Token) : List Token → Bool
  | .value :: _ => true
  | .flowEntry :: _ => true
  | t :: _ => t == closing
  | [] => false

mutual

/-- Read a node.  `block` admits block collections, `indentless` a sequence that is not indented
more than the mapping around it. -/
def read? (block indentless : Bool) :
    Nat → List Token → List (String × Node) → Option (Progress Node)
  | 0, _, _ => none
  | _ + 1, .alias name :: rest, anchors =>
    (anchors.lookup name).map fun node => ⟨node, rest, anchors⟩
  | fuel + 1, tokens, anchors => do
    let (anchor, tag, tokens) := properties tokens
    let p ← match tokens with
      | .entry :: rest =>
        if indentless then entries? true tag fuel [] (.entry :: rest) anchors
        else empty? anchor tag tokens anchors
      | .scalar isPlain text :: rest => some ⟨.scalar tag isPlain text, rest, anchors⟩
      | .flowSequenceStart :: rest => flowItems? tag fuel [] rest anchors
      | .flowMappingStart :: rest => flowMembers? tag fuel [] rest anchors
      | .sequenceStart :: rest =>
        if block then entries? false tag fuel [] rest anchors
        else empty? anchor tag tokens anchors
      | .mappingStart :: rest =>
        if block then members? tag fuel [] rest anchors else empty? anchor tag tokens anchors
      | _ => empty? anchor tag tokens anchors
    return match anchor with
      | some a => { p with anchors := (a, p.result) :: p.anchors }
      | none => p

/-- A node of which only the anchor or the tag is there. -/
def empty? (anchor : Option String) (tag : Option Tag) (tokens : List Token)
    (anchors : List (String × Node)) : Option (Progress Node) :=
  if anchor.isSome ∨ tag.isSome then some ⟨.scalar tag true "", tokens, anchors⟩ else none

/-- Read the entries of a block sequence; those read so far come newest first. -/
def entries? (indentless : Bool) (tag : Option Tag) :
    Nat → List Node → List Token → List (String × Node) → Option (Progress Node)
  | 0, _, _, _ => none
  | fuel + 1, items, .entry :: rest, anchors =>
    if endsEntry indentless rest then
      entries? indentless tag fuel (missing :: items) rest anchors
    else do
      let p ← read? true false fuel rest anchors
      entries? indentless tag fuel (p.result :: items) p.rest p.anchors
  | _ + 1, items, tokens, anchors =>
    if indentless then closed (.sequence tag items.reverse) tokens anchors
    else match tokens with
      | .blockEnd :: rest => closed (.sequence tag items.reverse) rest anchors
      | _ => none

/-- Read the members of a block mapping. -/
def members? (tag : Option Tag) :
    Nat → List (Node × Node) → List Token → List (String × Node) → Option (Progress Node)
  | 0, _, _, _ => none
  | _ + 1, read, .blockEnd :: rest, anchors => closed (.mapping tag read.reverse) rest anchors
  | fuel + 1, read, .key :: rest, anchors => do
    let key ← if endsMember rest then some ⟨missing, rest, anchors⟩
      else read? true true fuel rest anchors
    let value ← match key.rest with
      | .value :: rest =>
        if endsMember rest then some ⟨missing, rest, key.anchors⟩
        else read? true true fuel rest key.anchors
      | rest => some ⟨missing, rest, key.anchors⟩
    members? tag fuel ((key.result, value.result) :: read) value.rest value.anchors
  | _ + 1, _, _, _ => none

/-- Read the items of a flow sequence; a key makes a mapping of one member. -/
def flowItems? (tag : Option Tag) :
    Nat → List Node → List Token → List (String × Node) → Option (Progress Node)
  | 0, _, _, _ => none
  | _ + 1, items, .flowSequenceEnd :: rest, anchors =>
    closed (.sequence tag items.reverse) rest anchors
  | fuel + 1, items, tokens, anchors => do
    let item : Progress Node ← match tokens with
      | .key :: rest => do
        let member ← flowMember? .flowSequenceEnd fuel rest anchors
        some ⟨.mapping none [member.result], member.rest, member.anchors⟩
      | _ => read? false false fuel tokens anchors
    match item.rest with
    | .flowEntry :: rest => flowItems? tag fuel (item.result :: items) rest item.anchors
    | .flowSequenceEnd :: rest =>
      closed (.sequence tag (item.result :: items).reverse) rest item.anchors
    | _ => none

/-- Read the members of a flow mapping. -/
def flowMembers? (tag : Option Tag) :
    Nat → List (Node × Node) → List Token → List (String × Node) → Option (Progress Node)
  | 0, _, _, _ => none
  | _ + 1, read, .flowMappingEnd :: rest, anchors =>
    closed (.mapping tag read.reverse) rest anchors
  | fuel + 1, read, tokens, anchors => do
    let member : Progress (Node × Node) ← match tokens with
      | .key :: rest => flowMember? .flowMappingEnd fuel rest anchors
      | _ => do
        let key ← read? false false fuel tokens anchors
        some ⟨(key.result, missing), key.rest, key.anchors⟩
    match member.rest with
    | .flowEntry :: rest => flowMembers? tag fuel (member.result :: read) rest member.anchors
    | .flowMappingEnd :: rest =>
      closed (.mapping tag (member.result :: read).reverse) rest member.anchors
    | _ => none

/-- Read a key and its value inside a flow collection that ends with `closing`. -/
def flowMember? (closing : Token) :
    Nat → List Token → List (String × Node) → Option (Progress (Node × Node))
  | 0, _, _ => none
  | fuel + 1, tokens, anchors => do
    let key ← if endsFlowMember closing tokens then some ⟨missing, tokens, anchors⟩
      else read? false false fuel tokens anchors
    match key.rest with
    | .value :: rest =>
      let value ← if endsFlowMember closing rest ∧ rest.head? ≠ some .value then
          some ⟨missing, rest, key.anchors⟩
        else read? false false fuel rest key.anchors
      return ⟨(key.result, value.result), value.rest, value.anchors⟩
    | rest => return ⟨(key.result, missing), rest, key.anchors⟩

end

mutual

/-- How deeply collections are nested. -/
def depth : Node → Nat
  | .scalar _ _ _ => 0
  | .sequence _ items => depthItems items + 1
  | .mapping _ entries => depthEntries entries + 1

/-- The depth of the deepest item. -/
def depthItems : List Node → Nat
  | [] => 0
  | item :: rest => max (depth item) (depthItems rest)

/-- The depth of the deepest value. -/
def depthEntries : List (Node × Node) → Nat
  | [] => 0
  | (_, value) :: rest => max (depth value) (depthEntries rest)

end

/-- The value of a scalar: a tag of the standard fixes the kind, and a tag of the text's own is not
understood. -/
def scalarValue? (tag : Option Tag) (isPlain : Bool) (text : String) : Option Json :=
  match tag with
  | none => some (if isPlain then plainValue text else .string text)
  | some ⟨true, "bool"⟩ => Kind.bool.value? text
  | some ⟨true, "int"⟩ => Kind.int.value? text
  | some ⟨true, "float"⟩ => Kind.float.value? text
  | some ⟨true, "null"⟩ => Kind.null.value? text
  | some ⟨true, _⟩ => some (.string text)
  | some ⟨false, name⟩ => if name.startsWith "!" then none else some (.string text)

/-- A collection may only bear a tag of the standard. -/
def hasOwnTag : Option Tag → Bool
  | some ⟨false, name⟩ => name.startsWith "!"
  | _ => false

/-- The text of a key. -/
def keyText? : Node → Option String
  | .scalar _ _ text => some text
  | _ => none

mutual

/-- The value of a node. -/
def value? : Node → Option Json
  | .scalar tag isPlain text => scalarValue? tag isPlain text
  | .sequence tag items =>
    if hasOwnTag tag then none else (valueItems? items).map .array
  | .mapping tag entries =>
    if hasOwnTag tag then none else (valueEntries? [] entries).map .object

/-- The values of items. -/
def valueItems? : List Node → Option (List Json)
  | [] => some []
  | item :: rest => do return (← item.value?) :: (← valueItems? rest)

/-- The values of members; of two members for a key the later one counts. -/
def valueEntries? (members : List (String × Json)) :
    List (Node × Node) → Option (List (String × Json))
  | [] => some members
  | (key, node) :: rest => do
    valueEntries? (Json.setMember (← key.keyText?) (← node.value?) members) rest

end

end Node

/-- The node of a text; a text without a document has none. -/
def node? (tokens : List Token) : Option (Option Node) := do
  let begins := tokens.dropWhile (· == .documentEnd)
  if begins.isEmpty then return none
  else
    let versions := begins.takeWhile (· == .versionDirective)
    let (marked, content) ← match begins.dropWhile (· == .versionDirective) with
      | .documentStart :: rest => some (true, rest)
      | rest => if versions.isEmpty then some (false, rest) else none
    if versions.length > 1 then none
    else
      let p ← match content with
        | [] | .documentStart :: _ | .documentEnd :: _ | .versionDirective :: _ =>
          if marked then some ⟨.missing, content, []⟩ else none
        | _ => Node.read? true false (4 * content.length + 4) content []
      if (p.rest.dropWhile (· == .documentEnd)).isEmpty then return some p.result else none

/-- How deeply collections may be nested. -/
def depthLimit : Nat := 128

/-- The table of settings that a text holds. -/
def settings? (text : String) : Option Json := do
  match ← node? (← tokens? text.toList) with
  | none => return .object []
  | some (.scalar _ isPlain text) => if isPlain ∧ text.isEmpty then return .object [] else none
  | some (.sequence _ _) => none
  | some (.mapping tag entries) =>
    if depthLimit < (Node.mapping tag entries).depth then none
    else (Node.valueEntries? [] entries).map .object

end Concierge.Yaml
