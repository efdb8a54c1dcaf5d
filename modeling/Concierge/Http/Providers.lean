import Concierge.Credential
import Concierge.Directory.Google
import Concierge.Directory.HipChat
import Concierge.Directory.Hub
import Concierge.Directory.Slack
import Concierge.Notifier.Email
import Concierge.Notifier.ShortMessage
import Concierge.Settings.Service

/-!
# Providers on the network

Which credentials, addresses and senders the providers of an account are used with.  What is missing
is found out before anything is sent.  Whether the account switched a channel on is not asked here;
whether it switched a directory on is.
-/

namespace Concierge

open Http (Network)

namespace ProviderSettings

variable (p : ProviderSettings)

/-- The notifier for a channel of an account; none without credentials. -/
def notifier? (channel : Channel) (account : Account) : Option (Notifier Network) := do
  let own := (account.notifications.switch channel).token
  match channel with
  | .hipchat =>
    return HipChat.notifier p.hipchat.baseUrl (← credential? own p.hipchat.token) account
  | .slack => return Slack.notifier p.slack.baseUrl (← credential? own p.slack.token) account
  | .nexmo =>
    let secret ← credential? own p.nexmo.apiSecret
    return Nexmo.notifier p.nexmo.baseUrl (← given? p.nexmo.apiKey) secret p.nexmo.sender account
  | .twilio =>
    let token ← credential? own p.twilio.authToken
    let sid ← given? p.twilio.accountSid
    let sender ← (given? account.notifications.twilioSourcePhoneNumber).or
      (given? p.twilio.phoneNumber)
    return Twilio.notifier p.twilio.baseUrl sid token sender account
  | .mailgun =>
    let key ← credential? own p.mailgun.apiKey
    return Mailgun.notifier p.mailgun.baseUrl (← given? p.mailgun.domain) key p.emailFrom account
  | .postmark =>
    let token ← credential? own p.postmark.serverToken
    return Postmark.notifier p.postmark.baseUrl token p.emailFrom account

/-- The failure of a directory that is switched off or lacks what it needs. -/
def directory (bridge : Bridge) (enabled : Bool)
    (source : Option (Attempt Network (List RemoteUser))) : Attempt Network (List RemoteUser) :=
  if ! enabled then Attempt.fail (.disabled bridge.name)
  else match source with
    | some users => users
    | none => Attempt.fail (.missingCredentials bridge.name)

/-- The users of a directory of an account. -/
def users (account : Account) (bridge : Bridge) : Attempt Network (List RemoteUser) :=
  let b := account.bridges
  match bridge with
  | .hub => directory bridge b.hub.enabled do
    return Hub.users (← given? b.hub.url) (← given? b.hub.token)
  | .googleDirectory => directory bridge b.googleDirectory.enabled do
    return Google.users p.googleDirectory.baseUrl p.googleDirectory.customer
      (← given? b.googleDirectory.token)
  | .hipchat => directory bridge b.hipchat.enabled do
    return HipChat.Directory.users p.hipchat.baseUrl
      (← credential? b.hipchat.token p.hipchat.token)
  | .slack => directory bridge b.slack.enabled do
    return Slack.Directory.users p.slack.baseUrl (← credential? b.slack.token p.slack.token)

/-- The providers on the network. -/
def providers : Providers Network := ⟨p.notifier?, p.users⟩

/-- The address that is none, the provider it is of and the reason. -/
structure InvalidAddress where
  provider : String
  address : String
  fault : Url.Fault
  deriving DecidableEq, Repr

/-- The wording of an invalid address. -/
def InvalidAddress.message (e : InvalidAddress) : String :=
  "invalid " ++ e.provider ++ " base_url '" ++ e.address ++ "': " ++ e.fault.message

/-- The first address that is none. -/
def invalidAddress? : Option InvalidAddress :=
  p.baseUrls.findSome? fun (provider, address) =>
    match Url.ofText address with
    | .ok _ => none
    | .error fault => some ⟨provider, address, fault⟩

end ProviderSettings


end Concierge
