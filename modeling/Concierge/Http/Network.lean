import Concierge.Http.Request
import Concierge.Json.Reader
import Concierge.Outside

/-!
# The network

A network that answers by a script: each request takes the next reply.  The connection for it may not
come about, and a reply may be missing, may never come, and may break off or stall inside its body.
A network may be down or without encrypted connections; then nothing that needs them is connected,
and the script is left to other requests.  Every request is kept with what came of it.

A request is one call of the client that sends it.  Where an answer of the fourth hundred sends the client
to another address, it goes there by itself: a reply is what it has in the end, and what it asks for on
the way is its own and is not kept.  Header fields of answers are therefore left out.
-/

namespace Concierge.Http

/-- How the body of an answer ends. -/
inductive Ending where
  | complete
  /-- The connection is closed before the end. -/
  | cut
  /-- The rest never comes. -/
  | stalled
  deriving DecidableEq, Repr

/-- An answer; of a body that does not end, what came of it counts for nothing. -/
structure Answer where
  status : Nat
  body : List UInt8
  ending : Ending
  deriving DecidableEq, Repr

/-- What comes back for a request. -/
inductive Reply where
  | answer (a : Answer)
  /-- The connection is closed without an answer. -/
  | closed
  /-- Nothing ever comes. -/
  | silence
  /-- There is no connection to send the request on. -/
  | unconnected
  /-- The client was sent elsewhere and failed there, with or without a connection. -/
  | astray (connected : Bool) (report : String)
  deriving DecidableEq, Repr

/-- A request and what came of it. -/
structure Turn where
  request : Request
  reply : Reply

/-- What is seen of a turn from outside. -/
inductive Contact where
  | request (r : Request)
  /-- A connection was asked for, to a host and a port. -/
  | connection (host : String)

/-- A network. -/
structure Network where
  /-- Whether anything can be sent at all. -/
  up : Bool
  /-- Whether there are encrypted connections. -/
  secure : Bool
  /-- The replies to the next requests. -/
  script : List Reply
  /-- The requests and what came of them, oldest first. -/
  turns : List Turn

/-- The host and port of an encrypted connection. -/
def tunnel (u : Url) : String :=
  match u.server? with
  | some (host, port) => host.toText ++ ":" ++ toString (port.getD 443)
  | none => ""

namespace Network

/-- A network that gives replies in order. -/
def scripted (script : List Reply) : Network := ⟨true, true, script, []⟩

/-- A network that is down. -/
def down (script : List Reply) : Network := ⟨false, false, script, []⟩

/-- The reply when the script has ended. -/
def unscripted : Reply := .answer ⟨500, Utf8.encode "no scripted response", .complete⟩

/-- Requests to an address get their replies from the script. -/
def carries (n : Network) (u : Url) : Bool := n.up && (n.secure || u.scheme != "https")

/-- The next reply and those after it. -/
def next (n : Network) : Reply × List Reply :=
  match n.script with
  | [] => (unscripted, [])
  | reply :: later => (reply, later)

/-- Send a request and take its reply. -/
def exchange (n : Network) (r : Request) : Reply × Network :=
  let taken := if n.carries r.url then n.next else (.unconnected, n.script)
  (taken.1, { n with script := taken.2, turns := n.turns ++ [⟨r, taken.1⟩] })

/-- What is seen of a turn: nothing where the network is down, and without encrypted connections only
that one was asked for. -/
def seen? (n : Network) (t : Turn) : Option Contact :=
  if ! n.up then none
  else if n.carries t.request.url then some (.request t.request)
  else some (.connection (tunnel t.request.url))

/-- What was sent, oldest first. -/
def sent (n : Network) : List Contact := n.turns.filterMap n.seen?

end Network

/-- What is said about an address that could not be reached. -/
def sendingFailed (u : Url) : String := "error sending request for url (" ++ u.toText ++ ")"

/-- Succeeding answers have a status of the third hundred. -/
def isSuccess (status : Nat) : Bool := 200 ≤ status && status < 300

/-- The failure that an answer reports. -/
def Answer.failure (a : Answer) : Stop :=
  match a.ending with
  | .complete => .failed (.http a.status (Utf8.decodeLossy a.body))
  | .cut => .failed (.http a.status "")
  | .stalled => .stalled (.http a.status "") []

/-- What is said about a body that could not be read. -/
def unreadable : ProviderError := .decode "error decoding response body"

/-- Send a request and wait for the start of a succeeding answer. -/
def send (d : Draft) : Attempt Network Answer := do
  match d.build with
  | .error e => Attempt.fail e
  | .ok r =>
    let (reply, network) := (← get).state.exchange r
    Attempt.onState fun _ => network
    match reply with
    | .answer a => if isSuccess a.status then return a else throw a.failure
    | .closed => Attempt.fail (.request (sendingFailed r.url))
    | .silence => throw (.stalled .timeout [])
    | .unconnected => Attempt.fail (.connection (sendingFailed r.url))
    | .astray connected report =>
      Attempt.fail (if connected then .request report else .connection report)

/-- The value of the body of an answer. -/
def Answer.read {α : Type} (reader : Json.Reader α) (a : Answer) : Except Stop α :=
  match a.ending with
  | .complete =>
    match Json.readText reader a.body with
    | .ok value => .ok value
    | .error _ => .error (.failed unreadable)
  | .cut => .error (.failed unreadable)
  | .stalled => .error (.stalled unreadable [])

/-- Send a request and read the body of its answer. -/
def sendFor {α : Type} (reader : Json.Reader α) (d : Draft) : Attempt Network α := do
  match (← send d).read reader with
  | .ok value => return value
  | .error stop => throw stop

end Concierge.Http
