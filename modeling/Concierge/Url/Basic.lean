import Concierge.Url.Form
import Concierge.Url.Host

/-!
# Addresses

An address has a scheme, a host and port, a path of segments, a query and a fragment.  Reading one
brings it into a single form: blanks around it and line ends inside it are dropped, backslashes of
the web's own schemes are slashes, `.` and `..` are resolved, and what may not stand in a part is
escaped.  A user's name before the host is read over; it is no part of the address.
-/

namespace Concierge

/-- The place that an address names below its scheme. -/
inductive Url.Place where
  /-- A host and the segments of the path. -/
  | hosted (host : Url.Host) (port : Option Nat) (path : List String)
  /-- The segments of a path without a host. -/
  | rooted (path : List String)
  /-- Anything else. -/
  | bare (text : String)
  deriving DecidableEq, Repr

/-- An address. -/
structure Url where
  scheme : String
  place : Url.Place
  query : Option String
  fragment : Option String
  deriving DecidableEq, Repr

namespace Url

/-! ## Schemes -/

/-- The schemes of the web other than files, with their ports. -/
def webPorts : List (String × Nat) :=
  [("http", 80), ("https", 443), ("ws", 80), ("wss", 443), ("ftp", 21)]

/-- The port of a scheme. -/
def defaultPort? (scheme : String) : Option Nat := webPorts.lookup scheme

/-- One of the web's own schemes. -/
def isSpecial (scheme : String) : Bool := (defaultPort? scheme).isSome || scheme == "file"

/-- The characters of a scheme after its first. -/
def isSchemeChar (c : Char) : Bool := c.isAlphanum || c == '+' || c == '-' || c == '.'

/-- Read the scheme: its lower-case form and what follows the colon. -/
def scheme? (cs : List Char) : Option (String × List Char) :=
  let letters := cs.takeWhile isSchemeChar
  match letters.head?.map Char.isAlpha, cs.dropWhile isSchemeChar with
  | some true, ':' :: rest => some (String.ofList (letters.map Char.toLower), rest)
  | _, _ => none

/-! ## The authority -/

/-- A slash, or a backslash that counts as one. -/
def isSlash (special : Bool) (c : Char) : Bool := c == '/' || (special && c == '\\')

/-- Split the user off at the last `@`, if there is one. -/
def splitUser (authority : List Char) : Option (List Char) × List Char :=
  match authority.reverse.dropWhile (· != '@') with
  | [] => (none, authority)
  | _ :: user => (some user.reverse, (authority.reverse.takeWhile (· != '@')).reverse)

/-- Split a host from its port at the first colon outside brackets. -/
def splitHost (inside : Bool) (read : List Char) : List Char → List Char × Option (List Char)
  | [] => (read.reverse, none)
  | c :: rest =>
    if c = ':' ∧ ¬ inside then (read.reverse, some rest)
    else splitHost (if c = '[' then true else if c = ']' then false else inside) (c :: read) rest

/-- Read a port; that of the scheme is left out. -/
def readPort (scheme : String) (cs : List Char) : Except Fault (Option Nat) :=
  if cs.all Char.isDigit then
    let port := Digit.natOf cs
    if 65535 < port then .error .port
    else .ok (if cs.isEmpty ∨ defaultPort? scheme = some port then none else some port)
  else .error .port

/-- Read the host and the port after the user. -/
def readAuthority (scheme : String) (authority : List Char) (nothingFollows : Bool) :
    Except Fault (Host × Option Nat) := do
  let special := isSpecial scheme
  let (user, cs) := splitUser authority
  let (host, port) := splitHost false [] cs
  if user = some [] ∧ cs.isEmpty ∧ ! nothingFollows then .error .emptyHost
  else if special then
    if host.isEmpty then .error .emptyHost
    else
      let host ← readHost host
      return (host, ← readPort scheme (port.getD []))
  else
    let named ← readOpaqueHost host
    if host.isEmpty ∧ (port.isSome ∨ user.any fun u => ! (u.isEmpty || u == [':'])) then
      .error .emptyHost
    else return (named, ← readPort scheme (port.getD []))

/-! ## Paths -/

/-- Split a path at its slashes. -/
def splitPath (special : Bool) (segment : List Char) : List Char → List (List Char)
  | [] => [segment.reverse]
  | c :: rest =>
    if isSlash special c then segment.reverse :: splitPath special [] rest
    else splitPath special (c :: segment) rest

/-- A point, plain or escaped, at the start of a segment: what follows it. -/
def afterPoint? : List Char → Option (List Char)
  | '.' :: rest => some rest
  | '%' :: '2' :: c :: rest => if c = 'e' ∨ c = 'E' then some rest else none
  | _ => none

/-- The segment that names the place itself. -/
def isHere (segment : List Char) : Bool := afterPoint? segment == some []

/-- The segment that names the place above. -/
def isAbove (segment : List Char) : Bool := (afterPoint? segment).bind afterPoint? == some []

/-- Resolve the segments of a path; those resolved so far come last first. -/
def resolve (above : List (List Char)) : List (List Char) → List (List Char)
  | [] => above.reverse
  | [segment] =>
    if isAbove segment then ([] :: above.drop 1).reverse
    else if isHere segment then ([] :: above).reverse
    else (segment :: above).reverse
  | segment :: rest =>
    if isAbove segment then resolve (above.drop 1) rest
    else if isHere segment then resolve above rest
    else resolve (segment :: above) rest

/-- The segments of a path, after its first slash. -/
def readPath (special : Bool) (cs : List Char) : List String :=
  (resolve [] (splitPath special [] cs)).map fun segment =>
    String.ofList (Percent.encode Percent.inPath segment)

/-- The path without its first slash, if it has one. -/
def afterSlash (special : Bool) : List Char → List Char
  | [] => []
  | c :: rest => if isSlash special c then rest else c :: rest

/-! ## Reading -/

/-- Split off the fragment. -/
def splitFragment (cs : List Char) : List Char × Option (List Char) :=
  (cs.takeWhile (· != '#'), (cs.dropWhile (· != '#')).head?.map fun _ =>
    (cs.dropWhile (· != '#')).drop 1)

/-- Split off the query. -/
def splitQuery (cs : List Char) : List Char × Option (List Char) :=
  (cs.takeWhile (· != '?'), (cs.dropWhile (· != '?')).head?.map fun _ =>
    (cs.dropWhile (· != '?')).drop 1)

/-- A letter and a colon or a bar, as the host of a file. -/
def isDrive : List Char → Bool
  | [a, b] => a.isAlpha && (b == ':' || b == '|')
  | _ => false

/-- Read the place of a file; without a host it is a path alone. -/
def readFilePlace (cs : List Char) : Except Fault Place :=
  match cs.takeWhile (isSlash true) with
  | _ :: _ :: _ =>
    let authority := (cs.drop 2).takeWhile (! isSlash true ·)
    let path := (cs.drop 2).drop authority.length
    if authority.isEmpty ∨ isDrive authority then
      .ok (.rooted (readPath true (afterSlash true (cs.drop 2))))
    else (readHost authority).map fun host =>
      .hosted host none (readPath true (afterSlash true path))
  | _ => .ok (.rooted (readPath true (afterSlash true cs)))

/-- Read the place below a scheme; `nothingFollows` says that the address ends with it. -/
def readPlace (scheme : String) (cs : List Char) (nothingFollows : Bool) : Except Fault Place :=
  let special := isSpecial scheme
  if scheme = "file" then readFilePlace cs
  else if special ∨ ['/', '/'].isPrefixOf cs then
    let cs := if special then cs.dropWhile (isSlash true) else cs.drop 2
    let authority := cs.takeWhile (! isSlash special ·)
    let path := cs.drop authority.length
    (readAuthority scheme authority (path.isEmpty && nothingFollows)).map fun (host, port) =>
      .hosted host port
        (if path.isEmpty ∧ ! special then [] else readPath special (afterSlash special path))
  else
    match cs with
    | '/' :: path => .ok (.rooted (readPath special path))
    | _ => .ok (.bare (String.ofList (Percent.encode Percent.isControl cs)))

/-- Read an address. -/
def ofText (s : String) : Except Fault Url :=
  let trimmed := ((s.toList.dropWhile (·.toNat ≤ 0x20)).reverse.dropWhile (·.toNat ≤ 0x20)).reverse
  let cs := trimmed.filter fun c => c != '\t' && c != '\n' && c != '\r'
  match scheme? cs with
  | none => .error .relative
  | some (scheme, rest) =>
    let (rest, fragment) := splitFragment rest
    let (rest, query) := splitQuery rest
    let inQuery := if isSpecial scheme then Percent.inSpecialQuery else Percent.inQuery
    (readPlace scheme rest (query.isNone && fragment.isNone)).map fun place =>
      ⟨scheme, place, query.map fun q => String.ofList (Percent.encode inQuery q),
        fragment.map fun f => String.ofList (Percent.encode Percent.inFragment f)⟩

/-! ## Writing -/

/-- A path with a slash before each segment. -/
def pathText (path : List String) : String := String.join (path.map ("/" ++ ·))

/-- The written form of a place. -/
def Place.toText : Place → String
  | .hosted host port path =>
    "//" ++ host.toText ++ (match port with
      | some p => ":" ++ toString p
      | none => "") ++ pathText path
  | .rooted path => pathText path
  | .bare text => text

/-- The written form without the fragment. -/
def toTextWithoutFragment (u : Url) : String :=
  u.scheme ++ ":" ++ u.place.toText ++ (match u.query with
    | some q => "?" ++ q
    | none => "")

/-- The written form. -/
def toText (u : Url) : String :=
  u.toTextWithoutFragment ++ (match u.fragment with
    | some f => "#" ++ f
    | none => "")

/-- Append pairs to the query. -/
def withPairs (u : Url) (pairs : List (String × String)) : Url :=
  let added := String.ofList (Form.encode pairs)
  { u with query := some (match u.query with
    | some q => if q.isEmpty then added else q ++ "&" ++ added
    | none => added) }

/-- The server that an address names: the host and the port, unless it is that of the scheme. -/
def server? (u : Url) : Option (Host × Option Nat) :=
  match u.place with
  | .hosted host port _ => some (host, port)
  | _ => none

/-- The path of a hosted address. -/
def path (u : Url) : List String :=
  match u.place with
  | .hosted _ _ path => path
  | .rooted path => path
  | .bare _ => []

end Url

/-- A base address and a path joined as texts, with exactly one slash between them. -/
def Url.endpoint (base path : String) : String :=
  String.ofList ((base.toList.reverse.dropWhile (· == '/')).reverse ++
    '/' :: path.toList.dropWhile (· == '/'))

end Concierge
