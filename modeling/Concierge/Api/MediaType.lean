/-!
# Media types

The type of a request's body: a kind, a name with an optional suffix, and parameters.  Bodies are
read only if the type is that of JSON or of a format built on it.
-/

namespace Concierge.Api

/-- The type of a body; parameters are checked and dropped. -/
structure MediaType where
  kind : List Char
  name : List Char
  suffix : Option (List Char)
  deriving DecidableEq, Repr

namespace MediaType

/-- The characters of names. -/
def isTokenChar (c : Char) : Bool := c.isAlphanum || "!#$%&'*+-.^_\x60|~".toList.contains c

/-- The characters of quoted values of parameters. -/
def isQuotedChar (c : Char) : Bool := 0x20 ≤ c.toNat && c != '\x7f' && c != '"'

/-- The parameters are well-formed.  Blanks may stand after a semicolon and after a quoted value. -/
def parametersFit : Nat → List Char → Bool
  | 0, _ => false
  | fuel + 1, cs =>
    let cs := cs.dropWhile (· == ' ')
    if cs.isEmpty then true
    else
      let name := cs.takeWhile isTokenChar
      match name.isEmpty, cs.drop name.length with
      | false, '=' :: '"' :: rest =>
        let value := rest.takeWhile isQuotedChar
        match value.isEmpty, rest.drop value.length with
        | false, '"' :: rest =>
          match rest.dropWhile (· == ' ') with
          | [] => true
          | ';' :: rest => parametersFit fuel rest
          | _ => false
        | _, _ => false
      | false, '=' :: rest =>
        let value := rest.takeWhile isTokenChar
        match rest.drop value.length with
        | [] => true
        | ';' :: rest => ! value.isEmpty && parametersFit fuel rest
        | _ => false
      | _, _ => false

/-- Read a media type; its letters become lower case. -/
def ofText? (s : String) : Option MediaType :=
  let cs := s.toList.map Char.toLower
  let kind := cs.takeWhile isTokenChar
  match kind.isEmpty, cs.drop kind.length with
  | false, '/' :: rest =>
    let whole := rest.takeWhile isTokenChar
    let fits := match rest.drop whole.length with
      | [] => true
      | ';' :: parameters => parametersFit (parameters.length + 1) parameters
      | _ => false
    if whole.isEmpty ∨ ! fits then none
    else
      match (whole.drop 1).reverse.dropWhile (· != '+') with
      | [] => some ⟨kind, whole, none⟩
      | _ :: name => some ⟨kind, whole.take 1 ++ name.reverse,
          some ((whole.drop 1).reverse.takeWhile (· != '+')).reverse⟩
  | _, _ => none

/-- The type is that of JSON or of a format built on it. -/
def isJson (t : MediaType) : Bool :=
  t.kind == "application".toList && (t.name == "json".toList || t.suffix == some "json".toList)

end MediaType

end Concierge.Api
