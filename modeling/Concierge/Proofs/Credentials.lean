import Concierge.Proofs.Delivery.Candidates
import Concierge.Proofs.Http.Requests
import Concierge.Proofs.Notifier.Acceptance

/-!
# Credentials stay where they belong

Six channels and four directories read their credentials from one account and from one installation.
Here two accounts and two installations are compared that agree on what one provider is configured
by, and on nothing else: neither the requests to this provider nor what comes of them can be told
apart.  So no credential goes to a provider that it is not for, and none of another account's.

What is missing is found out before anything is sent; and where an account has a credential of its
own, the installation's makes no difference, and every request bears the account's.
-/

namespace Concierge

open Http (Network Request Credentials Sends sends_bind sends_pure sends_fail sends_of_asksOnce)

/-! ## What a provider is configured by -/

/-- What an account sets for a directory. -/
def Bridge.Own : Bridge → Type
  | .hub => HubSettings
  | .googleDirectory | .hipchat | .slack => ChannelSwitch

/-- What an installation sets for a directory; for hubs it sets nothing. -/
def Bridge.Part : Bridge → Type
  | .hub => Unit
  | .googleDirectory => GoogleSettings
  | .hipchat | .slack => ChatSettings

/-- What an installation sets for a channel. -/
def Channel.Part : Channel → Type
  | .hipchat | .slack => ChatSettings
  | .nexmo => NexmoSettings
  | .twilio => TwilioSettings
  | .mailgun => MailgunSettings
  | .postmark => PostmarkSettings

namespace BridgeSettings

/-- The account's settings for a directory. -/
def own (s : BridgeSettings) : (b : Bridge) → b.Own
  | .hub => s.hub
  | .googleDirectory => s.googleDirectory
  | .hipchat => s.hipchat
  | .slack => s.slack

/-- The directory is switched on. -/
def enabled (s : BridgeSettings) : Bridge → Bool
  | .hub => s.hub.enabled
  | .googleDirectory => s.googleDirectory.enabled
  | .hipchat => s.hipchat.enabled
  | .slack => s.slack.enabled

/-- The account's credential for a directory. -/
def token (s : BridgeSettings) : Bridge → Option String
  | .hub => s.hub.token
  | .googleDirectory => s.googleDirectory.token
  | .hipchat => s.hipchat.token
  | .slack => s.slack.token

end BridgeSettings

namespace ProviderSettings

variable (p : ProviderSettings)

/-- The installation's settings for a directory. -/
def bridgePart : (b : Bridge) → b.Part
  | .hub => ()
  | .googleDirectory => p.googleDirectory
  | .hipchat => p.hipchat
  | .slack => p.slack

/-- The installation's settings for a channel. -/
def channelPart : (c : Channel) → c.Part
  | .hipchat => p.hipchat
  | .slack => p.slack
  | .nexmo => p.nexmo
  | .twilio => p.twilio
  | .mailgun => p.mailgun
  | .postmark => p.postmark

/-- The settings with another credential for a channel. -/
def withSecret (secret : Option Secret) : Channel → ProviderSettings
  | .hipchat => { p with hipchat := { p.hipchat with token := secret } }
  | .slack => { p with slack := { p.slack with token := secret } }
  | .nexmo => { p with nexmo := { p.nexmo with apiSecret := secret } }
  | .twilio => { p with twilio := { p.twilio with authToken := secret } }
  | .mailgun => { p with mailgun := { p.mailgun with apiKey := secret } }
  | .postmark => { p with postmark := { p.postmark with serverToken := secret } }

/-- Everything is there that a directory asks for: an address for hubs, which are the account's own,
and a credential, for which HipChat and Slack fall back on the installation's. -/
def Supplies (account : Account) : Bridge → Prop
  | .hub => HasText account.bridges.hub.url ∧ HasText account.bridges.hub.token
  | .googleDirectory => HasText account.bridges.googleDirectory.token
  | .hipchat => HasText account.bridges.hipchat.token ∨ HasText (p.hipchat.token.map Secret.reveal)
  | .slack => HasText account.bridges.slack.token ∨ HasText (p.slack.token.map Secret.reveal)

/-- A knock over a channel, if there is a notifier for it. -/
def knock? (c : Channel) (account : Account) (door : Door) (person : Person) :
    Option (Attempt Network Unit) :=
  (p.notifier? c account).map fun n => n.knock door person

end ProviderSettings

/-! ## Nothing is sent without what is needed -/

theorem given?_eq_none {s : Option String} (h : ¬ HasText s) : given? s = none :=
  Option.not_isSome_iff_eq_none.1 (mt (given?_isSome s).1 h)

theorem credential?_eq_none {own : Option String} {installation : Option Secret}
    (h : ¬ (HasText own ∨ HasText (installation.map Secret.reveal))) :
    credential? own installation = none :=
  Option.not_isSome_iff_eq_none.1 (mt (credential?_isSome own installation).1 h)

namespace ProviderSettings

variable {p : ProviderSettings} {account : Account} {bridge : Bridge}

/-- Being switched off comes before everything else. -/
theorem users_of_disabled (h : account.bridges.enabled bridge = false) (o : Outside Network) :
    p.users account bridge o = (.error (.failed (.disabled bridge.name)), o) := by
  cases bridge <;>
  · simp only [BridgeSettings.enabled] at h
    simp only [users, directory, h]
    rfl

theorem users_of_not_supplied (henabled : account.bridges.enabled bridge = true)
    (h : ¬ p.Supplies account bridge) (o : Outside Network) :
    p.users account bridge o = (.error (.failed (.missingCredentials bridge.name)), o) := by
  cases bridge with
  | hub =>
    obtain hurl | htoken := not_and_or.1 h
    · simp only [users, directory, show account.bridges.hub.enabled = true from henabled,
        given?_eq_none hurl]
      rfl
    · simp only [users, directory, show account.bridges.hub.enabled = true from henabled,
        given?_eq_none htoken]
      cases given? account.bridges.hub.url <;> rfl
  | googleDirectory =>
    simp only [users, directory, show account.bridges.googleDirectory.enabled = true from henabled,
      given?_eq_none h]
    rfl
  | hipchat =>
    simp only [users, directory, show account.bridges.hipchat.enabled = true from henabled,
      credential?_eq_none h]
    rfl
  | slack =>
    simp only [users, directory, show account.bridges.slack.enabled = true from henabled,
      credential?_eq_none h]
    rfl

/-! ## Two accounts, two installations -/

variable {p' : ProviderSettings} {account' : Account}

/-- Fetching from a directory depends on the settings for it alone. -/
theorem users_eq_of_agree (hown : account.bridges.own bridge = account'.bridges.own bridge)
    (hpart : p.bridgePart bridge = p'.bridgePart bridge) :
    p.users account bridge = p'.users account' bridge := by
  cases bridge with
  | hub => simp only [users, show account.bridges.hub = account'.bridges.hub from hown]
  | googleDirectory =>
    have hown : account.bridges.googleDirectory = account'.bridges.googleDirectory := hown
    simp only [users, hown, show p.googleDirectory = p'.googleDirectory from hpart]
  | hipchat =>
    simp only [users, show account.bridges.hipchat = account'.bridges.hipchat from hown,
      show p.hipchat = p'.hipchat from hpart]
  | slack =>
    simp only [users, show account.bridges.slack = account'.bridges.slack from hown,
      show p.slack = p'.slack from hpart]

end ProviderSettings

/-- The settings of two accounts are the same as far as knocks over a channel go. -/
structure NotificationSettings.SameKnocks (c : Channel) (s s' : NotificationSettings) : Prop where
  token : (s.switch c).token = (s'.switch c).token
  sms : s.smsTemplate = s'.smsTemplate
  email : s.emailTemplate = s'.emailTemplate
  source : c = .twilio → s.twilioSourcePhoneNumber = s'.twilioSourcePhoneNumber

/-- The settings of two installations are the same as far as a channel goes. -/
structure ProviderSettings.SameFor (c : Channel) (p p' : ProviderSettings) : Prop where
  part : p.channelPart c = p'.channelPart c
  sender : c = .mailgun ∨ c = .postmark → p.emailFrom = p'.emailFrom

theorem KnockMessage.compose_congr {c : Channel} {account account' : Account}
    (h : account.notifications.SameKnocks c account'.notifications) (door : Door) (person : Person) :
    compose account door person = compose account' door person := by
  simp only [compose, h.sms, h.email]

namespace ProviderSettings

variable {p p' : ProviderSettings} {c : Channel} {account account' : Account}

/-- A knock depends on the settings for its channel alone. -/
theorem knock?_eq_of_agree (h : account.notifications.SameKnocks c account'.notifications)
    (hp : p.SameFor c p') (door : Door) (person : Person) :
    p.knock? c account door person = p'.knock? c account' door person := by
  have hmessage := KnockMessage.compose_congr h door person
  unfold knock? notifier?
  cases c <;> simp only [h.token, Option.bind_eq_bind, Option.map_bind, Function.comp_def,
    Option.pure_def, Option.map_some]
  case hipchat =>
    simp only [show p.hipchat = p'.hipchat from hp.part, HipChat.notifier, HipChat.draft, hmessage]
  case slack => simp only [show p.slack = p'.slack from hp.part, Slack.notifier, hmessage]
  case nexmo =>
    simp only [show p.nexmo = p'.nexmo from hp.part, Nexmo.notifier, Nexmo.draft, hmessage]
  case twilio =>
    simp only [show p.twilio = p'.twilio from hp.part, h.source rfl, Twilio.notifier, Twilio.draft,
      hmessage]
  case mailgun =>
    simp only [show p.mailgun = p'.mailgun from hp.part, hp.sender (.inl rfl), Mailgun.notifier,
      Email.knock, hmessage]
  case postmark =>
    simp only [show p.postmark = p'.postmark from hp.part, hp.sender (.inr rfl), Postmark.notifier,
      Email.knock, hmessage]

end ProviderSettings

/-! ## An account's own credential -/

/-- An account's own credential is used as it is, whatever the installation's. -/
theorem credential?_of_own {token : String} (h : Text.isBlank token = false)
    (installation : Option Secret) : credential? (some token) installation = some token := by
  simp only [credential?, Option.bind_some, Text.unlessBlank?, h, Bool.false_eq_true, if_false,
    Option.some_or]

namespace ProviderSettings

variable {p : ProviderSettings} {c : Channel} {account : Account} {bridge : Bridge} {token : String}

theorem notifier?_withSecret (h : (account.notifications.switch c).token = some token)
    (hblank : Text.isBlank token = false) (secret : Option Secret) :
    (p.withSecret secret c).notifier? c account = p.notifier? c account := by
  cases c <;> simp only [notifier?, withSecret, h, credential?_of_own hblank]

theorem knock?_withSecret (h : (account.notifications.switch c).token = some token)
    (hblank : Text.isBlank token = false) (secret : Option Secret) (door : Door) (person : Person) :
    (p.withSecret secret c).knock? c account door person = p.knock? c account door person := by
  rw [knock?, notifier?_withSecret h hblank, knock?]

theorem users_withSecret (h : account.bridges.token bridge = some token)
    (hblank : Text.isBlank token = false) (secret : Option Secret) (c : Channel) :
    (p.withSecret secret c).users account bridge = p.users account bridge := by
  cases bridge with
  | hub => rfl
  | googleDirectory => cases c <;> rfl
  | hipchat =>
    have htoken : account.bridges.hipchat.token = some token := h
    cases c <;> simp only [users, withSecret, htoken, credential?_of_own hblank]
  | slack =>
    have htoken : account.bridges.slack.token = some token := h
    cases c <;> simp only [users, withSecret, htoken, credential?_of_own hblank]

end ProviderSettings

/-- The request proves with credentials who sends it. -/
def Http.Request.Shows (c : Credentials) (r : Request) : Prop := ("authorization", c.value) ∈ r.headers

/-- The request bears a credential, in the way that a channel's provider asks for. -/
def Channel.Bears (token : String) (r : Request) : Channel → Prop
  | .hipchat | .slack => r.Shows (.bearer token)
  | .nexmo => ∃ pairs, r.body = .form pairs ∧ ("api_secret", token) ∈ pairs
  | .twilio => ∃ sid, r.Shows (.basic sid token)
  | .mailgun => r.Shows (.basic "api" token)
  | .postmark => ("x-postmark-server-token", token) ∈ r.headers

/-- The request bears a credential, in the way that a directory asks for.  HipChat and Slack get it
as it is, the others without the white space around it. -/
def Bridge.Bears (token : String) (r : Request) : Bridge → Prop
  | .hub => r.Shows (.verbatim ("token " ++ Text.trim token))
  | .googleDirectory => r.Shows (.bearer (Text.trim token))
  | .hipchat | .slack => r.Shows (.bearer token)

theorem Http.sendFor_shows {α : Type} {reader : Json.Reader α} {d : Http.Draft} {c : Credentials}
    (h : d.credentials = some c) : Sends (Request.Shows c) (sendFor reader d) :=
  sends_of_asksOnce (sendFor_asksOnce reader d) fun _ hr => Draft.authorization_of_build hr h

open Http (sendFor_shows)

theorem Hub.users_shows (url token : String) :
    Sends (Request.Shows (.verbatim ("token " ++ token))) (Hub.users url token) :=
  sends_bind (sendFor_shows rfl) fun _ => sends_bind (Http.sends_report _) fun _ => sends_pure _

theorem Slack.Directory.users_shows (baseUrl token : String) :
    Sends (Request.Shows (.bearer token)) (Slack.Directory.users baseUrl token) := by
  refine sends_bind (sendFor_shows rfl) fun listing => ?_
  cases listing.ok with
  | false => exact sends_fail _
  | true => exact sends_bind (Http.sends_report _) fun _ => sends_pure _

theorem HipChat.Directory.details_shows (baseUrl token : String) (ids : List Nat) :
    Sends (Request.Shows (.bearer token)) (HipChat.Directory.details baseUrl token ids) := by
  induction ids with
  | nil => exact sends_pure _
  | cons id rest ih =>
    exact sends_bind (sendFor_shows rfl) fun _ => sends_bind ih fun _ => sends_pure _

theorem HipChat.Directory.users_shows (baseUrl token : String) :
    Sends (Request.Shows (.bearer token)) (HipChat.Directory.users baseUrl token) :=
  sends_bind (sendFor_shows rfl) fun ids => sends_bind (details_shows baseUrl token ids) fun _ =>
    sends_bind (Http.sends_report _) fun _ => sends_pure _

theorem Google.pages_shows (baseUrl customer token : String) (fuel : Nat) (page : Option String) :
    Sends (Request.Shows (.bearer token)) (Google.pages baseUrl customer token fuel page) := by
  induction fuel generalizing page with
  | zero => exact sends_fail _
  | succ fuel ih =>
    refine sends_bind (sendFor_shows rfl) fun answer => ?_
    cases answer.users? with
    | none => exact sends_fail _
    | some users =>
      cases answer.next? with
      | none => exact sends_pure _
      | some next => exact sends_bind (ih (some next)) fun _ => sends_pure _

theorem Google.users_shows (baseUrl customer token : String) :
    Sends (Request.Shows (.bearer token)) (Google.users baseUrl customer token) :=
  sends_bind Http.sends_get fun _ => sends_bind (pages_shows baseUrl customer token _ none) fun _ =>
    sends_bind (Http.sends_report _) fun _ => sends_pure _

namespace ProviderSettings

variable {p : ProviderSettings} {c : Channel} {account : Account} {bridge : Bridge} {token : String}

/-- Where nothing is asked, nothing has to be shown. -/
theorem directory_sends {P : Request → Prop} (enabled : Bool)
    {source : Option (Attempt Network (List RemoteUser))} (h : ∀ users ∈ source, Sends P users) :
    Sends P (directory bridge enabled source) := by
  cases enabled with
  | false => exact sends_fail _
  | true =>
    cases source with
    | none => exact sends_fail _
    | some users => exact h users rfl

theorem given?_of_own (hblank : Text.isBlank token = false) :
    given? (some token) = some (Text.trim token) := by
  simp only [given?, Option.bind_some, Text.nonBlank?, hblank, Bool.false_eq_true, if_false]

/-- Whatever a directory is asked bears the account's own credential, if it has one. -/
theorem users_bears (h : account.bridges.token bridge = some token)
    (hblank : Text.isBlank token = false) :
    Sends (bridge.Bears token ·) (p.users account bridge) := by
  cases bridge with
  | hub =>
    have htoken : account.bridges.hub.token = some token := h
    refine directory_sends _ fun users husers => ?_
    rw [htoken, given?_of_own hblank] at husers
    obtain ⟨url, -, hrest⟩ := Option.bind_eq_some_iff.1 husers
    rw [← Option.some.inj hrest]
    exact Hub.users_shows url (Text.trim token)
  | googleDirectory =>
    have htoken : account.bridges.googleDirectory.token = some token := h
    refine directory_sends _ fun users husers => ?_
    rw [htoken, given?_of_own hblank] at husers
    rw [← Option.some.inj husers]
    exact Google.users_shows _ _ (Text.trim token)
  | hipchat =>
    have htoken : account.bridges.hipchat.token = some token := h
    refine directory_sends _ fun users husers => ?_
    rw [htoken, credential?_of_own hblank] at husers
    rw [← Option.some.inj husers]
    exact HipChat.Directory.users_shows _ token
  | slack =>
    have htoken : account.bridges.slack.token = some token := h
    refine directory_sends _ fun users husers => ?_
    rw [htoken, credential?_of_own hblank] at husers
    rw [← Option.some.inj husers]
    exact Slack.Directory.users_shows _ token

/-- Whatever a provider is asked for a knock bears the account's own credential, if it has one. -/
theorem knock?_bears (h : (account.notifications.switch c).token = some token)
    (hblank : Text.isBlank token = false) {door : Door} {person : Person}
    {knock : Attempt Network Unit} (hknock : p.knock? c account door person = some knock) :
    Sends (c.Bears token ·) knock := by
  obtain ⟨n, hn, rfl⟩ := Option.map_eq_some_iff.1 hknock
  unfold notifier? at hn
  cases c <;> simp only [h, credential?_of_own hblank, Option.bind_eq_bind, Option.bind_eq_some_iff,
    Option.pure_def, Option.some.injEq] at hn
  case hipchat =>
    obtain ⟨_, rfl, rfl⟩ := hn
    exact sends_of_asksOnce (HipChat.knock_asksOnce _ _ _ _ _) fun _ hr =>
      Http.Draft.authorization_of_build hr rfl
  case slack =>
    obtain ⟨_, rfl, rfl⟩ := hn
    rw [Slack.knock_eq]
    refine sends_bind (sends_of_asksOnce (Slack.userId_asksOnce _ _ _) fun _ hr =>
      Http.Draft.authorization_of_build hr rfl) fun id => ?_
    exact sends_of_asksOnce (Slack.post_asksOnce _ _ _ _) fun _ hr =>
      Http.Draft.authorization_of_build hr rfl
  case nexmo =>
    obtain ⟨_, rfl, key, -, rfl⟩ := hn
    exact sends_of_asksOnce (Nexmo.knock_asksOnce _ _ _ _ _ _ _) fun _ hr =>
      ⟨_, Http.Draft.body_of_build hr, by simp⟩
  case twilio =>
    obtain ⟨_, rfl, sid, -, sender, -, rfl⟩ := hn
    exact sends_of_asksOnce (Twilio.knock_asksOnce _ _ _ _ _ _ _) fun _ hr =>
      ⟨sid, Http.Draft.authorization_of_build hr rfl⟩
  case mailgun =>
    obtain ⟨_, rfl, domain, -, rfl⟩ := hn
    exact sends_of_asksOnce (Mailgun.mail_asksOnce _ _ _ _) fun _ hr =>
      Http.Draft.authorization_of_build hr rfl
  case postmark =>
    obtain ⟨_, rfl, rfl⟩ := hn
    exact sends_of_asksOnce (Postmark.mail_asksOnce _ _ _) fun _ hr =>
      Http.Draft.mem_headers_of_build hr List.mem_cons_self

/-- A directory that is switched off is not asked, nor one for which something is missing.
Otherwise what it is asked, and what comes of that, depends on nothing but the settings of the
account and of the installation for this directory, and on the network; and so does a knock over a
channel, but for the templates of its text and the numbers and addresses that it is sent from.  An
account's own credential is used whatever the installation's is, and every request bears it. -/
theorem credentials_gated_and_kept_apart (p : ProviderSettings) (account : Account) :
    (∀ bridge o,
      (account.bridges.enabled bridge = false →
        p.users account bridge o = (.error (.failed (.disabled bridge.name)), o)) ∧
      (account.bridges.enabled bridge = true → ¬ p.Supplies account bridge →
        p.users account bridge o = (.error (.failed (.missingCredentials bridge.name)), o))) ∧
    (∀ (p' : ProviderSettings) (account' : Account) bridge,
      account.bridges.own bridge = account'.bridges.own bridge →
        p.bridgePart bridge = p'.bridgePart bridge →
          p.users account bridge = p'.users account' bridge) ∧
    (∀ (p' : ProviderSettings) (account' : Account) c,
      account.notifications.SameKnocks c account'.notifications → p.SameFor c p' → ∀ door person,
        p.knock? c account door person = p'.knock? c account' door person) ∧
    ∀ token, Text.isBlank token = false → ∀ secret,
      (∀ c, (account.notifications.switch c).token = some token → ∀ door person,
        (p.withSecret secret c).knock? c account door person = p.knock? c account door person ∧
          ∀ knock ∈ p.knock? c account door person, Sends (c.Bears token ·) knock) ∧
      ∀ bridge, account.bridges.token bridge = some token →
        (∀ c, (p.withSecret secret c).users account bridge = p.users account bridge) ∧
          Sends (bridge.Bears token ·) (p.users account bridge) := by
  refine ⟨fun bridge o => ⟨fun h => users_of_disabled h o,
      fun h hsupplies => users_of_not_supplied h hsupplies o⟩,
    fun p' account' bridge => users_eq_of_agree, fun p' account' c => knock?_eq_of_agree,
    fun token hblank secret => ⟨fun c h door person => ⟨?_, fun knock hknock => ?_⟩,
      fun bridge h => ⟨fun c => ?_, ?_⟩⟩⟩
  · exact knock?_withSecret h hblank secret door person
  · exact knock?_bears h hblank hknock
  · exact users_withSecret h hblank secret c
  · exact users_bears h hblank

end ProviderSettings

end Concierge
