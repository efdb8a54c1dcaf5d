import Concierge.Uuid

/-!
# Errors

Three kinds of failure are kept apart.  A `ServiceError` is what a request or a storage call ends
in.  A `ProviderError` is what an outside provider did; it is logged and never reaches a caller.  A
`ClientError` is what a caller inside the process is told, with the storage's own words removed.
-/

namespace Concierge

/-- What a caller can ask for by identifier. -/
inductive Resource where
  | account
  | person
  | door
  deriving DecidableEq, Repr

/-- The name of a kind of resource. -/
def Resource.name : Resource → String
  | .account => "Account"
  | .person => "Person"
  | .door => "Door"

/-- How a request or a storage call fails. -/
inductive ServiceError where
  | notFound (resource : Resource) (id : Uuid)
  | unknownHost (host : String)
  | forbidden (reason : String)
  | invalid (field message : String)
  /-- The storage failed, in its own words. -/
  | database (reason : String)
  deriving DecidableEq, Repr

/-- The wording of a failure. -/
def ServiceError.message : ServiceError → String
  | .notFound resource id => resource.name ++ " not found: " ++ id.toText
  | .unknownHost host => "No account is served on host '" ++ host ++ "'"
  | .forbidden reason => "Forbidden: " ++ reason
  | .invalid field message => "Validation failed: " ++ field ++ ": " ++ message
  | .database reason => "Database error: " ++ reason

/-- What callers inside the process are told. -/
inductive ClientError where
  | notFound (resource : Resource) (id : Uuid)
  | invalid (message : String)
  | forbidden (reason : String)
  | internal
  deriving DecidableEq, Repr

/-- The wording of what callers are told. -/
def ClientError.message : ClientError → String
  | .notFound resource id => resource.name ++ " not found: " ++ id.toText
  | .invalid message => "Validation error: " ++ message
  | .forbidden reason => "Forbidden: " ++ reason
  | .internal => "Internal error"

/-- Storage failures are reported without their reason. -/
def ServiceError.toClient : ServiceError → ClientError
  | .notFound resource id => .notFound resource id
  | .unknownHost host => .invalid ("unknown host: " ++ host)
  | .forbidden reason => .forbidden reason
  | .invalid field message => .invalid (field ++ ": " ++ message)
  | .database _ => .internal

/-- How a call to an outside provider fails. -/
inductive ProviderError where
  | missingCredentials (provider : String)
  | disabled (provider : String)
  | unsupported (provider : String)
  | timeout
  | connection (text : String)
  | http (status : Nat) (body : String)
  | decode (text : String)
  | rejected (text : String)
  | request (text : String)
  deriving DecidableEq, Repr

/-- The wording of a provider's failure. -/
def ProviderError.message : ProviderError → String
  | .missingCredentials provider => provider ++ " credentials are not configured"
  | .disabled provider => provider ++ " is disabled for this account"
  | .unsupported provider => provider ++ " does not support this operation"
  | .timeout => "request timed out"
  | .connection text => "connection failed: " ++ text
  | .http status body => "HTTP " ++ toString status ++ ": " ++ body
  | .decode text => "invalid response: " ++ text
  | .rejected text => "rejected by provider: " ++ text
  | .request text => "request failed: " ++ text

end Concierge
