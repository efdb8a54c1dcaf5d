import Concierge.Bridge
import Concierge.Http.Network

/-!
# The directory of HipChat

The list of users names them by number only, so each is then asked for on its own.  One question
that fails fails the whole fetch.
-/

namespace Concierge.HipChat.Directory

open Http (Network Draft)
open Json (Reader Fields record)
open Json.Fields (required defaulted)

/-- How many users the list holds at most. -/
def maxResults : Nat := 1000

/-- Read the list of users. -/
def listReader : Reader (List Nat) :=
  record .lenient (defaulted "items" [] (.list (record .lenient (required "id" .word64))))

/-- What is known about a user. -/
structure Details where
  id : Nat
  name : String
  email : String
  title : String

/-- Read what is known about a user. -/
def Details.reader : Reader Details :=
  record .lenient (Details.mk
    <$> required "id" .word64
    <*> defaulted "name" "" .text
    <*> defaulted "email" "" .text
    <*> defaulted "title" "" .text)

/-- The user. -/
def Details.toUser (d : Details) : RemoteUser :=
  ⟨.hipchat, toString d.id, d.name, d.email, "", d.title⟩

/-- The question for the list. -/
def listDraft (baseUrl token : String) : Draft where
  method := .get
  address := Url.endpoint baseUrl "/v2/user"
  query := [("start-index", "0"), ("max-results", toString maxResults)]
  credentials := some (.bearer token)
  headers := []
  body := .empty

/-- The question for a user. -/
def userDraft (baseUrl token : String) (id : Nat) : Draft where
  method := .get
  address := Url.endpoint baseUrl ("/v2/user/" ++ toString id)
  query := []
  credentials := some (.bearer token)
  headers := []
  body := .empty

/-- Ask for users one after the other. -/
def details (baseUrl token : String) : List Nat → Attempt Network (List RemoteUser)
  | [] => return []
  | id :: rest => do
    let d ← Http.sendFor Details.reader (userDraft baseUrl token id)
    return d.toUser :: (← details baseUrl token rest)

/-- The users of HipChat. -/
def users (baseUrl token : String) : Attempt Network (List RemoteUser) := do
  let ids ← Http.sendFor listReader (listDraft baseUrl token)
  let users ← details baseUrl token ids
  Attempt.report (.usersFetched .hipchat users.length)
  return users

end Concierge.HipChat.Directory
