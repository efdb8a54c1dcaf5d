import Concierge.Notifier.Chat

/-!
# Short messages

Nexmo reports a status for each part of a message, all of which have to be accepted.  Twilio
accepts a message by the status of its answer alone; its refusals are logged on their own.
-/

namespace Concierge

open Http (Network Draft)
open Json (Reader Fields record)
open Json.Fields (required optional defaulted)

namespace Nexmo

/-- What became of a part of a message. -/
structure Part where
  status : String
  error : Option String

/-- Read the answer: the parts of the message. -/
def reader : Reader (List Part) :=
  record .lenient (defaulted "messages" [] (.list
    (record .lenient (Part.mk <$> required "status" .text <*> optional "error-text" .text))))

/-- The part was accepted. -/
def Part.isAccepted (p : Part) : Bool := p.status == "0"

/-- The failure that a part reports. -/
def Part.failure (p : Part) : ProviderError :=
  .rejected ("status " ++ p.status ++ ": " ++ p.error.getD "")

/-- What an answer means: the first part that was not accepted counts. -/
def verdict (parts : List Part) : Option ProviderError :=
  if parts.isEmpty then some (.decode "no message status")
  else (parts.find? fun p => ! p.isAccepted).map Part.failure

/-- The message to a person. -/
def draft (baseUrl apiKey apiSecret sender : String) (account : Account) (door : Door)
    (person : Person) : Draft where
  method := .post
  address := Url.endpoint baseUrl "/sms/json"
  query := []
  credentials := none
  headers := []
  body := .form [("api_key", apiKey), ("api_secret", apiSecret), ("from", sender),
    ("to", person.phoneNumber), ("text", (KnockMessage.compose account door person).sms)]

/-- Messages through Nexmo. -/
def notifier (baseUrl apiKey apiSecret sender : String) (account : Account) :
    Notifier Network where
  channel := .nexmo
  knock door person := do
    let parts ← Http.sendFor reader (draft baseUrl apiKey apiSecret sender account door person)
    match verdict parts with
    | none => return ()
    | some e => Attempt.fail e
  welcome := unsupportedWelcome .nexmo

end Nexmo

namespace Twilio

/-- The message to a person. -/
def draft (baseUrl accountSid authToken sender : String) (account : Account) (door : Door)
    (person : Person) : Draft where
  method := .post
  address := Url.endpoint baseUrl ("/2010-04-01/Accounts/" ++ accountSid ++ "/Messages.json")
  query := []
  credentials := some (.basic accountSid authToken)
  headers := []
  body := .form [("From", sender), ("To", person.phoneNumber),
    ("Body", (KnockMessage.compose account door person).sms)]

/-- Messages through Twilio. -/
def notifier (baseUrl accountSid authToken sender : String) (account : Account) :
    Notifier Network where
  channel := .twilio
  knock door person := do
    try
      let _ ← Http.send (draft baseUrl accountSid authToken sender account door person)
    catch
      | .failed e =>
        Attempt.report (.textRefused e)
        throw (.failed e)
      | .stalled e last afterMs => throw (.stalled e (last ++ [.textRefused e]) afterMs)
  welcome := unsupportedWelcome .twilio

end Twilio

end Concierge
