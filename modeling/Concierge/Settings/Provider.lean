import Concierge.Json.Reader

/-!
# Provider settings

What an installation knows about the outside providers: where they are and with which credentials
they are used.  Every field has a default, so a section that sets one field leaves the others alone.
Secrets are read like any text and are never written.
-/

namespace Concierge

open Json (Reader Fields Tolerance record)
open Json.Fields (defaulted)

/-- A credential of the installation. -/
structure Secret where
  reveal : String
  deriving DecidableEq, Repr

/-- Read a secret. -/
def Secret.reader : Reader Secret := Json.Reader.text.refine fun s => some ⟨s⟩

/-- Read a field that may be missing or `null`. -/
def Json.Fields.defaultedOption {α : Type} (name : String) (default : Option α) (r : Reader α) :
    Fields (Option α) :=
  defaulted name default (Json.Reader.option r)

/-! ## Chat -/

/-- A chat provider. -/
structure ChatSettings where
  baseUrl : String
  /-- Used for accounts without a token of their own. -/
  token : Option Secret
  deriving DecidableEq, Repr

namespace ChatSettings

/-- HipChat, as long as nothing is set. -/
def hipchat : ChatSettings := ⟨"https://api.hipchat.com", none⟩

/-- Slack, as long as nothing is set. -/
def slack : ChatSettings := ⟨"https://slack.com", none⟩

/-- The written form. -/
def toJson (s : ChatSettings) : Json := .object [("base_url", .string s.baseUrl)]

/-- Read the settings over defaults. -/
def reader (tolerance : Tolerance) (d : ChatSettings) : Reader ChatSettings :=
  record tolerance (ChatSettings.mk
    <$> defaulted "base_url" d.baseUrl .text
    <*> .defaultedOption "token" d.token Secret.reader)

end ChatSettings

/-! ## Short messages -/

/-- The provider Nexmo. -/
structure NexmoSettings where
  baseUrl : String
  apiKey : Option String
  /-- Used for accounts without a token of their own. -/
  apiSecret : Option Secret
  /-- The name that short messages are sent from. -/
  sender : String
  deriving DecidableEq, Repr

namespace NexmoSettings

/-- Nexmo, as long as nothing is set. -/
def standard : NexmoSettings := ⟨"https://rest.nexmo.com", none, none, "Doorbot"⟩

/-- The written form. -/
def toJson (s : NexmoSettings) : Json :=
  .object [
    ("base_url", .string s.baseUrl),
    ("api_key", .optional s.apiKey),
    ("from", .string s.sender)]

/-- Read the settings. -/
def reader (tolerance : Tolerance) : Reader NexmoSettings :=
  record tolerance (NexmoSettings.mk
    <$> defaulted "base_url" standard.baseUrl .text
    <*> .defaultedOption "api_key" standard.apiKey .text
    <*> .defaultedOption "api_secret" standard.apiSecret Secret.reader
    <*> defaulted "from" standard.sender .text)

end NexmoSettings

/-- The provider Twilio. -/
structure TwilioSettings where
  baseUrl : String
  accountSid : Option String
  /-- Used for accounts without a token of their own. -/
  authToken : Option Secret
  /-- Used for accounts without a source number of their own. -/
  phoneNumber : Option String
  deriving DecidableEq, Repr

namespace TwilioSettings

/-- Twilio, as long as nothing is set. -/
def standard : TwilioSettings := ⟨"https://api.twilio.com", none, none, none⟩

/-- The written form. -/
def toJson (s : TwilioSettings) : Json :=
  .object [
    ("base_url", .string s.baseUrl),
    ("account_sid", .optional s.accountSid),
    ("phone_number", .optional s.phoneNumber)]

/-- Read the settings. -/
def reader (tolerance : Tolerance) : Reader TwilioSettings :=
  record tolerance (TwilioSettings.mk
    <$> defaulted "base_url" standard.baseUrl .text
    <*> .defaultedOption "account_sid" standard.accountSid .text
    <*> .defaultedOption "auth_token" standard.authToken Secret.reader
    <*> .defaultedOption "phone_number" standard.phoneNumber .text)

end TwilioSettings

/-! ## Email -/

/-- The provider Mailgun. -/
structure MailgunSettings where
  baseUrl : String
  /-- The domain from which emails are sent. -/
  domain : Option String
  /-- Used for accounts without a token of their own. -/
  apiKey : Option Secret
  deriving DecidableEq, Repr

namespace MailgunSettings

/-- Mailgun, as long as nothing is set. -/
def standard : MailgunSettings := ⟨"https://api.mailgun.net", none, none⟩

/-- The written form. -/
def toJson (s : MailgunSettings) : Json :=
  .object [("base_url", .string s.baseUrl), ("domain", .optional s.domain)]

/-- Read the settings. -/
def reader (tolerance : Tolerance) : Reader MailgunSettings :=
  record tolerance (MailgunSettings.mk
    <$> defaulted "base_url" standard.baseUrl .text
    <*> .defaultedOption "domain" standard.domain .text
    <*> .defaultedOption "api_key" standard.apiKey Secret.reader)

end MailgunSettings

/-- The provider Postmark. -/
structure PostmarkSettings where
  baseUrl : String
  /-- Used for accounts without a token of their own. -/
  serverToken : Option Secret
  deriving DecidableEq, Repr

namespace PostmarkSettings

/-- Postmark, as long as nothing is set. -/
def standard : PostmarkSettings := ⟨"https://api.postmarkapp.com", none⟩

/-- The written form. -/
def toJson (s : PostmarkSettings) : Json := .object [("base_url", .string s.baseUrl)]

/-- Read the settings. -/
def reader (tolerance : Tolerance) : Reader PostmarkSettings :=
  record tolerance (PostmarkSettings.mk
    <$> defaulted "base_url" standard.baseUrl .text
    <*> .defaultedOption "server_token" standard.serverToken Secret.reader)

end PostmarkSettings

/-! ## Directories -/

/-- The directory of Google. -/
structure GoogleSettings where
  baseUrl : String
  /-- The customer whose users are listed. -/
  customer : String
  deriving DecidableEq, Repr

namespace GoogleSettings

/-- The directory of Google, as long as nothing is set. -/
def standard : GoogleSettings := ⟨"https://admin.googleapis.com", "my_customer"⟩

/-- The written form. -/
def toJson (s : GoogleSettings) : Json :=
  .object [("base_url", .string s.baseUrl), ("customer", .string s.customer)]

/-- Read the settings. -/
def reader (tolerance : Tolerance) : Reader GoogleSettings :=
  record tolerance (GoogleSettings.mk
    <$> defaulted "base_url" standard.baseUrl .text
    <*> defaulted "customer" standard.customer .text)

end GoogleSettings

/-! ## All providers -/

/-- Every provider. -/
structure ProviderSettings where
  /-- The sender of emails. -/
  emailFrom : String
  hipchat : ChatSettings
  slack : ChatSettings
  nexmo : NexmoSettings
  twilio : TwilioSettings
  mailgun : MailgunSettings
  postmark : PostmarkSettings
  googleDirectory : GoogleSettings
  deriving DecidableEq, Repr

namespace ProviderSettings

/-- The providers, as long as nothing is set. -/
def standard : ProviderSettings where
  emailFrom := "doorbot@doorbot.co"
  hipchat := .hipchat
  slack := .slack
  nexmo := .standard
  twilio := .standard
  mailgun := .standard
  postmark := .standard
  googleDirectory := .standard

instance : Inhabited ProviderSettings := ⟨standard⟩

/-- The written form. -/
def toJson (s : ProviderSettings) : Json :=
  .object [
    ("email_from", .string s.emailFrom),
    ("hipchat", s.hipchat.toJson),
    ("slack", s.slack.toJson),
    ("nexmo", s.nexmo.toJson),
    ("twilio", s.twilio.toJson),
    ("mailgun", s.mailgun.toJson),
    ("postmark", s.postmark.toJson),
    ("google_directory", s.googleDirectory.toJson)]

/-- Read the settings. -/
def reader (tolerance : Tolerance) : Reader ProviderSettings :=
  record tolerance (ProviderSettings.mk
    <$> defaulted "email_from" standard.emailFrom .text
    <*> defaulted "hipchat" standard.hipchat (ChatSettings.reader tolerance .hipchat)
    <*> defaulted "slack" standard.slack (ChatSettings.reader tolerance .slack)
    <*> defaulted "nexmo" standard.nexmo (NexmoSettings.reader tolerance)
    <*> defaulted "twilio" standard.twilio (TwilioSettings.reader tolerance)
    <*> defaulted "mailgun" standard.mailgun (MailgunSettings.reader tolerance)
    <*> defaulted "postmark" standard.postmark (PostmarkSettings.reader tolerance)
    <*> defaulted "google_directory" standard.googleDirectory (GoogleSettings.reader tolerance))

/-- The address of every provider, by its name, in the order in which they are checked. -/
def baseUrls (s : ProviderSettings) : List (String × String) :=
  [("hipchat", s.hipchat.baseUrl), ("slack", s.slack.baseUrl), ("nexmo", s.nexmo.baseUrl),
    ("twilio", s.twilio.baseUrl), ("mailgun", s.mailgun.baseUrl),
    ("postmark", s.postmark.baseUrl), ("google_directory", s.googleDirectory.baseUrl)]

/-- The secrets, by their place in the settings. -/
def secrets (s : ProviderSettings) : List (String × Option Secret) :=
  [("hipchat.token", s.hipchat.token), ("slack.token", s.slack.token),
    ("nexmo.api_secret", s.nexmo.apiSecret), ("twilio.auth_token", s.twilio.authToken),
    ("mailgun.api_key", s.mailgun.apiKey), ("postmark.server_token", s.postmark.serverToken)]

end ProviderSettings

end Concierge
