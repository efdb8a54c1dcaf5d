import Concierge.Api.Problem
import Concierge.Api.Request
import Concierge.Service

/-!
# Requests and answers

Three paths are served.  The health of the service may be asked for on any host; everything else
belongs to the tenant on whose host the request arrives, and the tenant is looked up before the
method is.  A successful knock answers with the request it came with.  The report of a failure names
the request as the log does, if it is traced.
-/

namespace Concierge.Api

/-- The content of an answer. -/
inductive Content where
  | empty
  | json (mediaType : String) (value : Json)
  /-- Words of no fixed wording. -/
  | text
  /-- Only the media type of a content, which was not asked for. -/
  | withheld (mediaType : String)
  deriving Repr

/-- An answer. -/
structure Response where
  status : Nat
  content : Content
  /-- The methods that the path allows, if another one was asked for. -/
  allow : Option String
  deriving Repr

namespace Response

/-- The media type of plain text. -/
def textType : String := "text/plain; charset=utf-8"

/-- The media type of the content. -/
def mediaType? (r : Response) : Option String :=
  match r.content with
  | .empty => none
  | .json mediaType _ => some mediaType
  | .text => some textType
  | .withheld mediaType => some mediaType

/-- The answer without its content. -/
def withoutContent (r : Response) : Response :=
  { r with content := match r.mediaType? with
    | some mediaType => .withheld mediaType
    | none => .empty }

/-- An answer without content. -/
def plain (status : Nat) : Response := ⟨status, .empty, none⟩

/-- An answer with a value. -/
def ofJson (status : Nat) (value : Json) : Response :=
  ⟨status, .json "application/json" value, none⟩

/-- A problem report. -/
def ofProblem (p : Problem) : Response := ⟨p.status, .json Problem.mediaType p.toJson, none⟩

/-- A body could not be read. -/
def ofBodyFault (f : BodyFault) : Response := ⟨f.status, .text, none⟩

end Response

/-- What is served for a tenant. -/
inductive Endpoint where
  | sync
  | knock
  deriving DecidableEq, Repr

/-- What is served on a path. -/
inductive Route where
  | health
  | tenant (endpoint : Endpoint)
  deriving DecidableEq, Repr

namespace Route

/-- The routes by path. -/
def routes : List (String × Route) :=
  [("/health", .health), ("/api/people/sync", .tenant .sync),
    ("/api/notifications", .tenant .knock)]

/-- The methods that a route allows. -/
def methods : Route → List String
  | .health => ["GET", "HEAD"]
  | .tenant _ => ["POST"]

end Route

variable {σ : Type} (service : Service σ)

/-- Report a failure, in the answer and in the log. -/
def refused (r : Request) (e : ServiceError) (w : World σ) : Response × World σ :=
  (.ofProblem ((Problem.ofError e).withTrace r.trace), (Problem.events e).foldl World.report w)

/-- Answer a request with the result of an action, or report its failure. -/
def answering {α : Type} (r : Request) (a : Action σ α) (respond : α → Response) (w : World σ) :
    Response × World σ :=
  match a w with
  | (.ok x, w) => (respond x, w)
  | (.error e, w) => refused r e w

/-- Serve a tenant. -/
def serve (endpoint : Endpoint) (account : Account) (r : Request) (w : World σ) :
    Response × World σ :=
  match endpoint with
  | .sync => answering r (service.syncPeople account) (fun _ => .plain 204) w
  | .knock =>
    match r.knock with
    | .error fault => (.ofBodyFault fault, w)
    | .ok knock =>
      answering r (service.knock account knock.doorId knock.personId)
        (fun _ => .ofJson 202 knock.toJson) w

/-- Find the tenant that a request is for. -/
def tenantOf (r : Request) (w : World σ) : Except Response Account × World σ :=
  match Tenant.label? r.host with
  | none => (.error (.ofProblem .unknownHost), w)
  | some label =>
    match Service.accountByHost label w with
    | (.ok account, w) => (.ok account, w)
    | (.error e, w) =>
      let (response, w) := refused r e w
      (.error response, w)

/-- Serve a route with an allowed method. -/
def respondOn (route : Route) (r : Request) (allowed : Bool) (w : World σ) :
    Response × World σ :=
  match route with
  | .health =>
    (if allowed then .ofJson 200 (.object [("status", .string "ok")]) else .plain 405, w)
  | .tenant endpoint =>
    match tenantOf r w with
    | (.error response, w) => (response, w)
    | (.ok account, w) => if allowed then serve service endpoint account r w else (.plain 405, w)

/-- Answer a request. -/
def respond (r : Request) (w : World σ) : Response × World σ :=
  match Route.routes.lookup r.path with
  | none => (.plain 404, w)
  | some route =>
    let allowed := route.methods.contains r.method
    let (response, w) := respondOn service route r allowed w
    let response := if r.method = "HEAD" then response.withoutContent else response
    ({ response with allow := if allowed then none else some (",".intercalate route.methods) }, w)

end Concierge.Api
