import Concierge.Account
import Concierge.Json.Reader
import Concierge.Person
import Concierge.Report

/-!
# Records as JSON

Every record has one written form and a reader for it.  Identifiers and names of channels and
bridges are texts; fields that may be missing are written as `null`; unknown members are skipped.
-/

namespace Concierge

open Json (Reader Fields record)
open Json.Fields (required optional)

/-! ## Identifiers and names -/

/-- The written form of an identifier. -/
def Uuid.toJson (id : Uuid) : Json := .string id.toText

/-- Read an identifier in any of its forms. -/
def Uuid.reader : Reader Uuid := Json.Reader.text.refine Uuid.ofText?

/-- The written form of a channel. -/
def Channel.toJson (c : Channel) : Json := .string c.name

/-- Read a channel. -/
def Channel.reader : Reader Channel := .variant Channel.names

/-- The written form of a bridge. -/
def Bridge.toJson (b : Bridge) : Json := .string b.name

/-- Read a bridge. -/
def Bridge.reader : Reader Bridge := .variant Bridge.names

/-! ## Accounts -/

/-- The written form of a switch. -/
def ChannelSwitch.toJson (s : ChannelSwitch) : Json :=
  .object [("enabled", .bool s.enabled), ("token", .optional s.token)]

/-- Read a switch. -/
def ChannelSwitch.reader : Reader ChannelSwitch :=
  record .lenient (ChannelSwitch.mk <$> required "enabled" .bool <*> optional "token" .text)

/-- The written form of notification settings. -/
def NotificationSettings.toJson (s : NotificationSettings) : Json :=
  .object [
    ("enabled", .bool s.enabled),
    ("hipchat", s.hipchat.toJson),
    ("slack", s.slack.toJson),
    ("nexmo", s.nexmo.toJson),
    ("twilio", s.twilio.toJson),
    ("mailgun", s.mailgun.toJson),
    ("postmark", s.postmark.toJson),
    ("sms_template", .optional s.smsTemplate),
    ("email_template", .optional s.emailTemplate),
    ("twilio_source_phone_number", .optional s.twilioSourcePhoneNumber)]

/-- Read notification settings. -/
def NotificationSettings.reader : Reader NotificationSettings :=
  record .lenient (NotificationSettings.mk
    <$> required "enabled" .bool
    <*> required "hipchat" ChannelSwitch.reader
    <*> required "slack" ChannelSwitch.reader
    <*> required "nexmo" ChannelSwitch.reader
    <*> required "twilio" ChannelSwitch.reader
    <*> required "mailgun" ChannelSwitch.reader
    <*> required "postmark" ChannelSwitch.reader
    <*> optional "sms_template" .text
    <*> optional "email_template" .text
    <*> optional "twilio_source_phone_number" .text)

/-- The written form of hub settings. -/
def HubSettings.toJson (s : HubSettings) : Json :=
  .object [("enabled", .bool s.enabled), ("url", .optional s.url), ("token", .optional s.token)]

/-- Read hub settings. -/
def HubSettings.reader : Reader HubSettings :=
  record .lenient (HubSettings.mk
    <$> required "enabled" .bool <*> optional "url" .text <*> optional "token" .text)

/-- The written form of bridge settings. -/
def BridgeSettings.toJson (s : BridgeSettings) : Json :=
  .object [
    ("hub", s.hub.toJson),
    ("google_directory", s.googleDirectory.toJson),
    ("hipchat", s.hipchat.toJson),
    ("slack", s.slack.toJson)]

/-- Read bridge settings. -/
def BridgeSettings.reader : Reader BridgeSettings :=
  record .lenient (BridgeSettings.mk
    <$> required "hub" HubSettings.reader
    <*> required "google_directory" ChannelSwitch.reader
    <*> required "hipchat" ChannelSwitch.reader
    <*> required "slack" ChannelSwitch.reader)

/-- The written form of an account. -/
def Account.toJson (a : Account) : Json :=
  .object [
    ("id", a.id.toJson),
    ("name", .string a.name),
    ("host", .string a.host),
    ("contact_name", .string a.contactName),
    ("contact_email", .string a.contactEmail),
    ("notifications", a.notifications.toJson),
    ("bridges", a.bridges.toJson)]

/-- Read an account. -/
def Account.reader : Reader Account :=
  record .lenient (Account.mk
    <$> required "id" Uuid.reader
    <*> required "name" .text
    <*> required "host" .text
    <*> required "contact_name" .text
    <*> required "contact_email" .text
    <*> required "notifications" NotificationSettings.reader
    <*> required "bridges" BridgeSettings.reader)

/-! ## People and doors -/

/-- The written form of preferences. -/
def NotificationPreferences.toJson (p : NotificationPreferences) : Json :=
  .object [
    ("enabled", .bool p.enabled),
    ("app", .bool p.app),
    ("chat", .bool p.chat),
    ("sms", .bool p.sms),
    ("email", .bool p.email)]

/-- Read preferences. -/
def NotificationPreferences.reader : Reader NotificationPreferences :=
  record .lenient (NotificationPreferences.mk
    <$> required "enabled" .bool
    <*> required "app" .bool
    <*> required "chat" .bool
    <*> required "sms" .bool
    <*> required "email" .bool)

/-- The written form of a person. -/
def Person.toJson (p : Person) : Json :=
  .object [
    ("id", p.id.toJson),
    ("account_id", p.accountId.toJson),
    ("name", .string p.name),
    ("title", .string p.title),
    ("email", .string p.email),
    ("phone_number", .string p.phoneNumber),
    ("is_visible", .bool p.isVisible),
    ("is_available", .bool p.isAvailable),
    ("notifications", p.notifications.toJson)]

/-- Read a person. -/
def Person.reader : Reader Person :=
  record .lenient (Person.mk
    <$> required "id" Uuid.reader
    <*> required "account_id" Uuid.reader
    <*> required "name" .text
    <*> required "title" .text
    <*> required "email" .text
    <*> required "phone_number" .text
    <*> required "is_visible" .bool
    <*> required "is_available" .bool
    <*> required "notifications" NotificationPreferences.reader)

/-- The written form of a door. -/
def Door.toJson (d : Door) : Json :=
  .object [("id", d.id.toJson), ("account_id", d.accountId.toJson), ("name", .string d.name)]

/-- Read a door. -/
def Door.reader : Reader Door :=
  record .lenient (Door.mk
    <$> required "id" Uuid.reader <*> required "account_id" Uuid.reader <*> required "name" .text)

/-! ## Remote users and links -/

/-- The written form of a remote user. -/
def RemoteUser.toJson (u : RemoteUser) : Json :=
  .object [
    ("bridge", u.bridge.toJson),
    ("external_id", .string u.externalId),
    ("name", .string u.name),
    ("email", .string u.email),
    ("phone_number", .string u.phoneNumber),
    ("title", .string u.title)]

/-- Read a remote user. -/
def RemoteUser.reader : Reader RemoteUser :=
  record .lenient (RemoteUser.mk
    <$> required "bridge" Bridge.reader
    <*> required "external_id" .text
    <*> required "name" .text
    <*> required "email" .text
    <*> required "phone_number" .text
    <*> required "title" .text)

/-- The written form of a link. -/
def BridgeLink.toJson (l : BridgeLink) : Json :=
  .object [
    ("id", l.id.toJson),
    ("account_id", l.accountId.toJson),
    ("person_id", l.personId.toJson),
    ("bridge", l.bridge.toJson),
    ("external_id", .string l.externalId)]

/-- Read a link. -/
def BridgeLink.reader : Reader BridgeLink :=
  record .lenient (BridgeLink.mk
    <$> required "id" Uuid.reader
    <*> required "account_id" Uuid.reader
    <*> required "person_id" Uuid.reader
    <*> required "bridge" Bridge.reader
    <*> required "external_id" .text)

/-! ## Answers and requests -/

/-- The written form of an outcome names its kind in the member `outcome`. -/
def KnockOutcome.toJson : KnockOutcome → Json
  | .noChannel => .object [("outcome", .string "no_channel")]
  | .accepted channels =>
    .object [("outcome", .string "accepted"), ("channels", .array (channels.map Channel.toJson))]

namespace KnockOutcome

/-- Read a value that stands for nothing: `null` or an empty object. -/
def payload : Reader Unit
  | .null => .ok ()
  | .object [] => .ok ()
  | t => .error t.mismatch

/-- Read the channels of an accepted knock. -/
def channels : Reader (List Channel) := .list (.variantWith payload false Channel.names)

/-- Read the rest of an outcome whose kind is known. -/
def rest (kind : String) (content : Json.Tree) : Except Json.ReadError KnockOutcome :=
  if kind = "accepted" then
    record .lenient (KnockOutcome.accepted <$> required "channels" channels) content
  else if kind = "no_channel" then
    match content with
    | .array (_ :: _) => .error .unsuitable
    | _ => .ok .noChannel
  else .error .unsuitable

/-- The kind of an outcome and its other members, in order; the kind is named once. -/
def split (kind : Option String) (others : List (Option String × Json.Tree)) :
    List (Option String × Json.Tree) → Option (String × List (Option String × Json.Tree))
  | [] => kind.map fun kind => (kind, others.reverse)
  | (some "outcome", .string (some s)) :: members =>
    if kind.isSome then none else split (some s) others members
  | (some "outcome", _) :: _ => none
  | member :: members => split kind (member :: others) members

/-- Outcomes are read whole before their kind is known, so every part of them must be readable,
and the nesting is limited. -/
def depthLimit : Nat := 127

/-- Read an outcome from an object, or from an array that starts with the kind. -/
def reader : Reader KnockOutcome := fun t =>
  if ! t.clean ∨ depthLimit < t.depth then .error .malformed
  else
    match t with
    | .object members =>
      match split none [] members with
      | some (kind, others) => rest kind (.object others)
      | none => .error .unsuitable
    | .array (.string (some kind) :: items) => rest kind (.array items)
    | t => .error t.mismatch

end KnockOutcome

/-- The written form of a report. -/
def SyncReport.toJson (r : SyncReport) : Json :=
  .object [
    ("created", .nat r.created),
    ("updated", .nat r.updated),
    ("skipped_bridges", .array (r.skippedBridges.map Bridge.toJson))]

/-- Read a report. -/
def SyncReport.reader : Reader SyncReport :=
  record .lenient (SyncReport.mk
    <$> required "created" .word64
    <*> required "updated" .word64
    <*> required "skipped_bridges" (.list Bridge.reader))

/-- The written form of a request for a knock. -/
def KnockRequest.toJson (r : KnockRequest) : Json :=
  .object [("notification",
    .object [("door_id", r.doorId.toJson), ("person_id", r.personId.toJson)])]

/-- Read a request for a knock. -/
def KnockRequest.reader : Reader KnockRequest :=
  record .lenient (required "notification"
    (record .lenient (KnockRequest.mk
      <$> required "door_id" Uuid.reader <*> required "person_id" Uuid.reader)))

end Concierge
