import Concierge.Error
import Concierge.Json.Printer
import Concierge.Text.Base64
import Concierge.Url.Basic

/-!
# Outgoing requests

A request is drafted from texts: a base address, a path, credentials.  The draft becomes a request
only if its address is one of the web that a request can name and its header fields can be sent;
otherwise nothing is sent.
-/

namespace Concierge.Http

/-- The methods that are used. -/
inductive Method where
  | get
  | post
  deriving DecidableEq, Repr

/-- The name of a method. -/
def Method.name : Method → String
  | .get => "GET"
  | .post => "POST"

/-- The body of a request. -/
inductive Body where
  | empty
  | form (pairs : List (String × String))
  | json (value : Json)
  deriving Repr

/-- How a request proves who sends it. -/
inductive Credentials where
  | bearer (token : String)
  | basic (user password : String)
  /-- The value of the header field as it is. -/
  | verbatim (value : String)
  deriving DecidableEq, Repr

/-- The value of the header field for credentials. -/
def Credentials.value : Credentials → String
  | .bearer token => "Bearer " ++ token
  | .basic user password =>
    "Basic " ++ String.ofList (Base64.encode (Utf8.encode (user ++ ":" ++ password)))
  | .verbatim value => value

/-- The media type of JSON. -/
def jsonType : String := "application/json"

/-- A request as it was put together. -/
structure Draft where
  method : Method
  /-- The address as text. -/
  address : String
  /-- Pairs that are appended to the query. -/
  query : List (String × String)
  credentials : Option Credentials
  /-- Header fields of the provider's own. -/
  headers : List (String × String)
  body : Body

/-- A request that can be sent. -/
structure Request where
  method : Method
  url : Url
  /-- The header fields that a provider looks at. -/
  headers : List (String × String)
  body : Body

/-- The media type of a body. -/
def Body.mediaType? : Body → Option String
  | .empty => none
  | .form _ => some "application/x-www-form-urlencoded"
  | .json _ => some jsonType

/-- The text of a body. -/
def Body.text : Body → String
  | .empty => ""
  | .form pairs => String.ofList (Form.encode pairs)
  | .json value => value.compact

/-- Characters that a header field may hold. -/
def isFieldChar (c : Char) : Bool := c == '\t' || ! Percent.isControl c

/-- Characters that the host of a request may have.  A name that is an address may have a few more. -/
def isHostChar (c : Char) : Bool := c.isAlphanum || "!$&'()*+,-.:;=[]_~".toList.contains c

/-- How many bytes the address of a request has at most. -/
def longestAddress : Nat := 65534

/-- Requests can name the host. -/
def canNameHost (host : Url.Host) : Bool := host.toText.toList.all isHostChar

/-- Requests can name the address: its host, and all of it in length.  In the path and the query,
whatever a request may not hold is escaped. -/
def canName (u : Url) : Bool :=
  (u.server?.any fun (host, _) => canNameHost host) && u.toText.utf8ByteSize ≤ longestAddress

/-- The sender that requests name. -/
def userAgent : String := "doorbot/0.1.0"

namespace Draft

/-- The header fields that depend on what is sent. -/
def ownHeaders (d : Draft) : List (String × String) :=
  (match d.credentials with
    | some c => [("authorization", c.value)]
    | none => []) ++ d.headers

/-- The header fields: those of the draft and those of every request. -/
def allHeaders (d : Draft) : List (String × String) :=
  (if (d.ownHeaders.lookup "accept").isSome then [] else [("accept", "*/*")]) ++ d.ownHeaders ++
    (match d.body.mediaType? with
      | some t => [("content-type", t)]
      | none => []) ++ [("user-agent", userAgent)]

/-- The address with the pairs of the query. -/
def url (d : Draft) : Except Url.Fault Url :=
  (Url.ofText d.address).map fun u => if d.query.isEmpty then u else u.withPairs d.query

/-- The schemes that requests are sent to. -/
def schemes : List String := ["http", "https"]

/-- The reason why no request was made of a draft. -/
def refused : ProviderError := .request "builder error"

/-- The reason why a request is not sent to an address. -/
def refusedAt (u : Url) : ProviderError := .request ("builder error for url (" ++ u.toText ++ ")")

/-- The request of a draft. -/
def build (d : Draft) : Except ProviderError Request :=
  match d.url with
  | .error _ => .error refused
  | .ok u =>
    if d.ownHeaders.any fun (_, value) => ! value.toList.all isFieldChar then .error refused
    else if ! (schemes.contains u.scheme && canName u) then .error (refusedAt u)
    else .ok ⟨d.method, u, d.allHeaders, d.body⟩

end Draft

end Concierge.Http
