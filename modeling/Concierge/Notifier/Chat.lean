import Concierge.Http.Network
import Concierge.Message

/-!
# Chat messages

HipChat takes a message for a person named by email address.  Slack is asked first which of its
users has the address, and takes a message for that user.
-/

namespace Concierge

open Http (Network Draft)
open Json (Reader Fields record)
open Json.Fields (required optional)

/-- Only email channels carry the message for a new account. -/
def unsupportedWelcome (channel : Channel) : Person → String → Attempt Network Unit :=
  fun _ _ => Attempt.fail (.unsupported channel.name)

namespace HipChat

/-- The message to a person. -/
def draft (baseUrl token : String) (account : Account) (door : Door) (person : Person) : Draft where
  method := .post
  address := Url.endpoint baseUrl ("/v2/user/" ++ person.email ++ "/message")
  query := []
  credentials := some (.bearer token)
  headers := []
  body := .json (.object [
    ("message", .string (KnockMessage.compose account door person).text),
    ("message_format", .string "text"),
    ("notify", .bool true)])

/-- Messages through HipChat. -/
def notifier (baseUrl token : String) (account : Account) : Notifier Network where
  channel := .hipchat
  knock door person := do
    let _ ← Http.send (draft baseUrl token account door person)
  welcome := unsupportedWelcome .hipchat

end HipChat

namespace Slack

/-- The answer about an email address. -/
structure Lookup where
  ok : Bool
  error : Option String
  userId : Option String

/-- Read the answer about an email address. -/
def Lookup.reader : Reader Lookup :=
  record .lenient (Lookup.mk
    <$> required "ok" .bool
    <*> optional "error" .text
    <*> optional "user" (record .lenient (required "id" .text)))

/-- The answer to a message. -/
structure Posted where
  ok : Bool
  error : Option String

/-- Read the answer to a message. -/
def Posted.reader : Reader Posted :=
  record .lenient (Posted.mk <$> required "ok" .bool <*> optional "error" .text)

/-- The failure that an answer names. -/
def rejection (error : Option String) : ProviderError := .rejected (error.getD "unknown_error")

/-- The question who has an email address. -/
def lookupDraft (baseUrl token email : String) : Draft where
  method := .get
  address := Url.endpoint baseUrl "/api/users.lookupByEmail"
  query := [("email", email)]
  credentials := some (.bearer token)
  headers := []
  body := .empty

/-- The message to a user. -/
def postDraft (baseUrl token userId text : String) : Draft where
  method := .post
  address := Url.endpoint baseUrl "/api/chat.postMessage"
  query := []
  credentials := some (.bearer token)
  headers := []
  body := .json (.object [("channel", .string userId), ("text", .string text)])

/-- The user who has an email address. -/
def userId (baseUrl token email : String) : Attempt Network String := do
  let answer ← Http.sendFor Lookup.reader (lookupDraft baseUrl token email)
  if ! answer.ok then Attempt.fail (rejection answer.error)
  else match answer.userId with
    | some id => return id
    | none => Attempt.fail (.decode "users.lookupByEmail returned no user")

/-- Messages through Slack. -/
def notifier (baseUrl token : String) (account : Account) : Notifier Network where
  channel := .slack
  knock door person := do
    let id ← userId baseUrl token person.email
    let answer ← Http.sendFor Posted.reader
      (postDraft baseUrl token id (KnockMessage.compose account door person).text)
    if answer.ok then return () else Attempt.fail (rejection answer.error)
  welcome := unsupportedWelcome .slack

end Slack

end Concierge
