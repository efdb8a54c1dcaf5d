import Concierge.Event
import Concierge.Json.Basic

/-!
# Problem reports

A refused request is answered with a small JSON document that says what went wrong.  It names what
was not found and why something is forbidden, and keeps the storage's words to the log.
-/

namespace Concierge.Api

/-- A problem report. -/
structure Problem where
  status : Nat
  title : String
  detail : String
  /-- Names the request in the log, if anything does. -/
  traceId : Option String
  deriving DecidableEq, Repr

namespace Problem

/-- The media type of a report. -/
def mediaType : String := "application/problem+json"

/-- The host name is no tenant's. -/
def unknownHost : Problem := ⟨403, "Forbidden", "Unknown host", none⟩

/-- The report of a failure. -/
def ofError : ServiceError → Problem
  | .notFound resource _ => ⟨404, "Not Found", resource.name ++ " not found", none⟩
  | .unknownHost _ => ⟨404, "Not Found", "Account not found", none⟩
  | .forbidden reason => ⟨403, "Forbidden", reason, none⟩
  | .invalid field message =>
    ⟨422, "Validation Failed", "Validation error on '" ++ field ++ "': " ++ message, none⟩
  | .database _ => ⟨500, "Internal Server Error", "An internal error occurred", none⟩

/-- What is logged when a failure is reported. -/
def events : ServiceError → List Event
  | .forbidden reason => [.requestForbidden reason]
  | .database reason => [.internalError reason]
  | _ => []

/-- A report that names the request. -/
def withTrace (p : Problem) (id : Option String) : Problem := { p with traceId := id }

/-- The written form. -/
def toJson (p : Problem) : Json :=
  .object ([("type", .string "about:blank"), ("title", .string p.title), ("status", .nat p.status),
    ("detail", .string p.detail)] ++
    (match p.traceId with
      | some id => [("trace_id", .string id)]
      | none => []))

end Problem

end Concierge.Api
