import Concierge.Http.Network
import Concierge.Message

/-!
# Emails

Mailgun accepts an email by the status of its answer alone, Postmark by a code in the answer.  Both
carry knocks and the message for a new account.
-/

namespace Concierge

open Http (Network Draft)
open Json (Reader Fields record)
open Json.Fields (required defaulted)

/-- An email. -/
structure Email where
  sender : String
  recipient : String
  subject : String
  text : String
  deriving DecidableEq, Repr

namespace Email

/-- The email for a knock. -/
def knock (sender : String) (account : Account) (door : Door) (person : Person) : Email :=
  let message := KnockMessage.compose account door person
  ⟨sender, person.email, message.subject, message.text⟩

/-- The email for a new account. -/
def welcome (sender : String) (account : Account) (person : Person) (password : String) : Email :=
  ⟨sender, person.email, Welcome.subject, Welcome.text account person password⟩

end Email

namespace Mailgun

/-- The request for an email. -/
def draft (baseUrl domain apiKey : String) (email : Email) : Draft where
  method := .post
  address := Url.endpoint baseUrl ("/v3/" ++ domain ++ "/messages")
  query := []
  credentials := some (.basic "api" apiKey)
  headers := []
  body := .form [("from", email.sender), ("to", email.recipient), ("subject", email.subject),
    ("text", email.text)]

/-- Send an email. -/
def mail (baseUrl domain apiKey : String) (email : Email) : Attempt Network Unit := do
  let _ ← Http.send (draft baseUrl domain apiKey email)

/-- Emails through Mailgun. -/
def notifier (baseUrl domain apiKey sender : String) (account : Account) : Notifier Network where
  channel := .mailgun
  knock door person := mail baseUrl domain apiKey (.knock sender account door person)
  welcome person password := mail baseUrl domain apiKey (.welcome sender account person password)

end Mailgun

namespace Postmark

/-- The answer to an email. -/
structure Receipt where
  errorCode : Int
  message : String

/-- Read the answer to an email. -/
def Receipt.reader : Reader Receipt :=
  record .lenient (Receipt.mk
    <$> required "ErrorCode" (.intIn (Width.least 64) (Width.greatest 64))
    <*> defaulted "Message" "" .text)

/-- The request for an email. -/
def draft (baseUrl serverToken : String) (email : Email) : Draft where
  method := .post
  address := Url.endpoint baseUrl "/email"
  query := []
  credentials := none
  headers := [("x-postmark-server-token", serverToken), ("accept", Http.jsonType)]
  body := .json (.object [
    ("From", .string email.sender),
    ("To", .string email.recipient),
    ("Subject", .string email.subject),
    ("TextBody", .string email.text)])

/-- Send an email. -/
def mail (baseUrl serverToken : String) (email : Email) : Attempt Network Unit := do
  let receipt ← Http.sendFor Receipt.reader (draft baseUrl serverToken email)
  if receipt.errorCode = 0 then return ()
  else Attempt.fail (.rejected
    ("error code " ++ toString receipt.errorCode ++ ": " ++ receipt.message))

/-- Emails through Postmark. -/
def notifier (baseUrl serverToken sender : String) (account : Account) : Notifier Network where
  channel := .postmark
  knock door person := mail baseUrl serverToken (.knock sender account door person)
  welcome person password := mail baseUrl serverToken (.welcome sender account person password)

end Postmark

end Concierge
