import Concierge.Bridge
import Concierge.Http.Network

/-!
# The hub's directory

A hub answers with all its people at once.  Its people have numbers for identifiers.
-/

namespace Concierge.Hub

open Http (Network Draft)
open Json (Reader Fields record)
open Json.Fields (requiredAs defaultedAs)

/-- A person of a hub. -/
structure Entry where
  id : Nat
  displayName : Option String
  email : String

/-- Read a person. -/
def Entry.reader : Reader Entry :=
  record .lenient (Entry.mk
    <$> requiredAs "ID" ["id"] .word64
    <*> defaultedAs "DisplayName" ["display_name"] none (.option .text)
    <*> defaultedAs "Email" ["email"] "" .text)

/-- The user that a person is. -/
def Entry.toUser (e : Entry) : RemoteUser :=
  ⟨.hub, toString e.id, e.displayName.getD "", e.email, "", ""⟩

/-- The question for all people. -/
def draft (url token : String) : Draft where
  method := .get
  address := Url.endpoint url "/api/v1/people"
  query := []
  credentials := some (.verbatim ("token " ++ token))
  headers := [("accept", Http.jsonType)]
  body := .empty

/-- The users of a hub. -/
def users (url token : String) : Attempt Network (List RemoteUser) := do
  let entries ← Http.sendFor (.list Entry.reader) (draft url token)
  Attempt.report (.usersFetched .hub entries.length)
  return entries.map Entry.toUser

end Concierge.Hub
