import Concierge.Api.MediaType
import Concierge.Json.Records
import Concierge.Tenant

/-!
# Requests over HTTP

What the service looks at in a request: its method, the path and host of its target, a few headers
and the body.  If requests are traced, each has a name in the log.
-/

namespace Concierge.Api

/-- A request. -/
structure Request where
  method : String
  /-- A path with an optional query, or a whole address. -/
  target : String
  /-- Header fields in order. -/
  headers : List (String × String)
  body : List UInt8
  /-- What names the request in the log, if it is traced. -/
  trace : Option String := none

namespace Request

/-- The first value of a header field. -/
def header? (r : Request) (name : String) : Option String :=
  (r.headers.find? fun (n, _) => n.toLower == name).map (·.2)

/-- What follows the scheme of a target that is a whole address. -/
def afterScheme? : List Char → Option (List Char)
  | ':' :: '/' :: '/' :: rest => some rest
  | c :: rest => if c = '/' ∨ c = '?' then none else afterScheme? rest
  | [] => none

/-- The target, split into the authority, if it has one, and the rest. -/
def parts (r : Request) : Option (List Char) × List Char :=
  match afterScheme? r.target.toList with
  | some rest =>
    let authority := rest.takeWhile fun c => c != '/' && c != '?' && c != '#'
    (some authority, rest.drop authority.length)
  | none => (none, r.target.toList)

/-- The path of the target. -/
def path (r : Request) : String :=
  match r.parts.2.takeWhile fun c => c != '?' && c != '#' with
  | [] => "/"
  | cs => String.ofList cs

/-- The host of an authority, without user and port. -/
def hostOf (authority : List Char) : List Char :=
  let cs := match authority.reverse.takeWhile (· != '@') with
    | reversed => reversed.reverse
  match cs with
  | '[' :: rest => '[' :: rest.takeWhile (· != ']') ++ [']']
  | _ => cs.takeWhile (· != ':')

/-- Characters that a host name in a header may have. -/
def isVisible (c : Char) : Bool := (0x20 ≤ c.toNat && c.toNat < 0x7F) || c == '\t'

/-- The host that a request is for: that of its header, else that of its target. -/
def host (r : Request) : String :=
  match (r.header? "host").filter fun s => s.toList.all isVisible with
  | some s => s
  | none => (r.parts.1.map fun a => String.ofList (hostOf a)).getD ""

/-- The body is declared to be JSON. -/
def isJson (r : Request) : Bool :=
  match (r.header? "content-type").filter fun s => s.toList.all isVisible with
  | some s => (MediaType.ofText? s).any MediaType.isJson
  | none => false

end Request

/-- Why a body was not read. -/
inductive BodyFault where
  /-- It is not declared to be JSON. -/
  | mediaType
  | tooLarge
  /-- It is not JSON. -/
  | malformed
  /-- It is JSON of the wrong shape. -/
  | unsuitable
  deriving DecidableEq, Repr

namespace BodyFault

/-- The status of the answer. -/
def status : BodyFault → Nat
  | .mediaType => 415
  | .tooLarge => 413
  | .malformed => 400
  | .unsuitable => 422

/-- The fault of a text. -/
def ofReadError : Json.ReadError → BodyFault
  | .malformed => .malformed
  | .unsuitable => .unsuitable

end BodyFault

/-- Longer bodies are not read. -/
def bodyLimit : Nat := 2097152

/-- Read the body of a request for a knock. -/
def Request.knock (r : Request) : Except BodyFault KnockRequest :=
  if ! r.isJson then .error .mediaType
  else if bodyLimit < r.body.length then .error .tooLarge
  else (Json.readText KnockRequest.reader r.body).mapError .ofReadError

end Concierge.Api
