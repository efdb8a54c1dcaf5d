import Concierge.Channel
import Concierge.Uuid

/-!
# Accounts

An account is a tenant: one host name, its contact, a switch for every notification channel and for
every bridge.  A switch may carry the account's own credential; without one the credential of the
whole installation is used.
-/

namespace Concierge

/-- Whether an account uses a provider, and with which credential of its own. -/
structure ChannelSwitch where
  enabled : Bool
  token : Option String
  deriving DecidableEq, Repr

namespace ChannelSwitch

/-- A provider that is not used. -/
def off : ChannelSwitch := ⟨false, none⟩

instance : Inhabited ChannelSwitch := ⟨off⟩

/-- A provider used with the credential of the installation. -/
def on : ChannelSwitch := ⟨true, none⟩

/-- A provider used with the account's own credential. -/
def withToken (token : String) : ChannelSwitch := ⟨true, some token⟩

end ChannelSwitch

/-- How an account notifies its people. -/
structure NotificationSettings where
  enabled : Bool
  hipchat : ChannelSwitch
  slack : ChannelSwitch
  nexmo : ChannelSwitch
  twilio : ChannelSwitch
  mailgun : ChannelSwitch
  postmark : ChannelSwitch
  /-- The text of short messages, with placeholders. -/
  smsTemplate : Option String
  /-- The text of emails and chat messages, with placeholders. -/
  emailTemplate : Option String
  /-- The number from which short messages are sent through Twilio. -/
  twilioSourcePhoneNumber : Option String
  deriving DecidableEq, Repr

namespace NotificationSettings

/-- Nothing is used. -/
def off : NotificationSettings :=
  ⟨false, .off, .off, .off, .off, .off, .off, none, none, none⟩

instance : Inhabited NotificationSettings := ⟨off⟩

/-- The switch of a channel. -/
def switch (settings : NotificationSettings) : Channel → ChannelSwitch
  | .hipchat => settings.hipchat
  | .slack => settings.slack
  | .nexmo => settings.nexmo
  | .twilio => settings.twilio
  | .mailgun => settings.mailgun
  | .postmark => settings.postmark

end NotificationSettings

/-- A hub is reached at the account's own address. -/
structure HubSettings where
  enabled : Bool
  url : Option String
  token : Option String
  deriving DecidableEq, Repr, Inhabited

/-- The directories that an account's people are taken from. -/
structure BridgeSettings where
  hub : HubSettings
  googleDirectory : ChannelSwitch
  hipchat : ChannelSwitch
  slack : ChannelSwitch
  deriving DecidableEq, Repr, Inhabited

/-- A tenant. -/
structure Account where
  id : Uuid
  name : String
  /-- The first label of the host names on which the account is served. -/
  host : String
  contactName : String
  contactEmail : String
  notifications : NotificationSettings
  bridges : BridgeSettings
  deriving DecidableEq, Repr, Inhabited

end Concierge
