import Concierge.Proofs.Delivery.Notes
import Mathlib.Tactic.MkIffOfInductiveProp

/-!
# The channels of a knock

A knock is tried on those channels, in a fixed order, that the person opted into, that the account
switched on and for which everything is there that the provider asks for: a credential, of the account or
of the installation, and what only some providers want besides.  Blank texts count as missing throughout.
The master switches of the account and of the person are not consulted.
-/

namespace Concierge

/-- A text that is there and not blank. -/
def HasText (s : Option String) : Prop := ∃ text ∈ s, Text.isBlank text = false

theorem given?_isSome (s : Option String) : (given? s).isSome ↔ HasText s := by
  cases s with
  | none => simp [given?, HasText]
  | some text => cases hblank : Text.isBlank text <;> simp [given?, Text.nonBlank?, HasText, hblank]

theorem credential?_isSome (own : Option String) (installation : Option Secret) :
    (credential? own installation).isSome ↔
      HasText own ∨ HasText (installation.map Secret.reveal) := by
  have hunlessBlank (s : Option String) : (s.bind Text.unlessBlank?).isSome ↔ HasText s := by
    cases s with
    | none => simp [HasText]
    | some text => cases hblank : Text.isBlank text <;> simp [Text.unlessBlank?, HasText, hblank]
  rw [credential?, Option.isSome_or, Bool.or_eq_true, hunlessBlank, ← hunlessBlank (installation.map _)]
  cases installation <;> rfl

instance (s : Option String) : Decidable (HasText s) := decidable_of_iff _ (given?_isSome s)

/-- The person wants to be told on a channel, and the account lets them be. -/
@[mk_iff] structure NotificationSettings.Allows (s : NotificationSettings) (person : Person) (c : Channel) :
    Prop where
  enabled : (s.switch c).enabled = true
  chat : c = .hipchat ∨ c = .slack → person.notifications.chat = true
  sms : c = .nexmo ∨ c = .twilio →
    person.notifications.sms = true ∧ 6 < person.phoneNumber.utf8ByteSize
  email : c = .mailgun ∨ c = .postmark → person.notifications.email = true

theorem NotificationSettings.isEligible_iff (s : NotificationSettings) (person : Person)
    (c : Channel) : s.isEligible person c = true ↔ s.Allows person c := by
  rw [allows_iff]
  cases c <;>
    simp [isEligible, Channel.family, NotificationPreferences.optsInto, Person.isDialable,
      Person.shortNumberLimit, and_comm, and_left_comm, and_assoc]

instance (s : NotificationSettings) (person : Person) (c : Channel) :
    Decidable (s.Allows person c) := decidable_of_iff _ (s.isEligible_iff person c)

theorem any_const {α : Type} (o : Option α) (b : Bool) : (o.any fun _ => b) = (o.isSome && b) := by
  cases o <;> simp

namespace ProviderSettings

variable (p : ProviderSettings)

/-- The installation's credential for a channel. -/
def secret? : Channel → Option Secret
  | .hipchat => p.hipchat.token
  | .slack => p.slack.token
  | .nexmo => p.nexmo.apiSecret
  | .twilio => p.twilio.authToken
  | .mailgun => p.mailgun.apiKey
  | .postmark => p.postmark.serverToken

/-- Everything is there that the provider of a channel asks for. -/
@[mk_iff] structure Equips (account : Account) (c : Channel) : Prop where
  credential : HasText (account.notifications.switch c).token ∨
    HasText ((p.secret? c).map Secret.reveal)
  nexmo : c = .nexmo → HasText p.nexmo.apiKey
  twilio : c = .twilio → HasText p.twilio.accountSid ∧
    (HasText account.notifications.twilioSourcePhoneNumber ∨ HasText p.twilio.phoneNumber)
  mailgun : c = .mailgun → HasText p.mailgun.domain

/-- There is a notifier if nothing is missing. -/
theorem notifier?_isSome (account : Account) (c : Channel) :
    (p.notifier? c account).isSome ↔ p.Equips account c := by
  rw [equips_iff, ← credential?_isSome]
  unfold notifier?
  cases c with
  | hipchat => simp [secret?, Option.isSome_bind]
  | slack => simp [secret?, Option.isSome_bind]
  | nexmo => simp [secret?, ← given?_isSome, Option.isSome_bind, any_const]
  | twilio => simp [secret?, ← given?_isSome, Option.isSome_bind, any_const]
  | mailgun => simp [secret?, ← given?_isSome, Option.isSome_bind, any_const]
  | postmark => simp [secret?, Option.isSome_bind]

instance (account : Account) (c : Channel) : Decidable (p.Equips account c) :=
  decidable_of_iff _ (p.notifier?_isSome account c)

/-- The channels on which a person can be told of a knock, in the order in which they are tried. -/
def usableChannels (account : Account) (person : Person) : List Channel :=
  [.hipchat, .slack, .nexmo, .twilio, .mailgun, .postmark].filter fun c =>
    account.notifications.Allows person c ∧ p.Equips account c

theorem channels_eq_usable (account : Account) (person : Person) :
    Delivery.channels p.providers account person = p.usableChannels account person := by
  rw [Delivery.channels_eq_filter p.providers_labelled, NotificationSettings.eligible,
    List.filter_filter]
  refine List.filter_congr fun c _ => ?_
  rw [Bool.eq_iff_iff, Bool.and_eq_true, decide_eq_true_iff, NotificationSettings.isEligible_iff,
    and_comm]
  exact and_congr_right' (p.notifier?_isSome account c)

end ProviderSettings

/-! ## Master switches -/

/-- The account with its master switch set. -/
def Account.withMaster (account : Account) (enabled : Bool) : Account :=
  { account with notifications := { account.notifications with enabled } }

/-- The person with the master switch and the switch for the app set. -/
def Person.withMaster (person : Person) (enabled app : Bool) : Person :=
  { person with notifications := { person.notifications with enabled, app } }

theorem ProviderSettings.notifier?_withMaster (p : ProviderSettings) (account : Account)
    (enabled : Bool) (c : Channel) :
    p.notifier? c (account.withMaster enabled) = p.notifier? c account := by
  cases c <;> rfl

theorem NotificationSettings.eligible_withMaster (account : Account) (person : Person)
    (master enabled app : Bool) :
    (account.withMaster master).notifications.eligible (person.withMaster enabled app) =
      account.notifications.eligible person := by
  refine List.filter_congr fun c _ => ?_
  cases c <;> rfl

theorem Delivery.candidates_withMaster (p : ProviderSettings) (account : Account) (person : Person)
    (master enabled app : Bool) :
    candidates p.providers (account.withMaster master) (person.withMaster enabled app) =
      candidates p.providers account person := by
  rw [candidates, candidates, NotificationSettings.eligible_withMaster]
  exact List.filterMap_congr fun c _ => p.notifier?_withMaster account master c

/-- A knock is answered with the channels on which it is tried, if there are any. -/
theorem Service.dispatch_answer {σ : Type} (service : Service σ) (account : Account) (door : Door)
    (person : Person) (w : World σ) :
    (service.dispatch account door person w).1 =
      if Delivery.channels service.providers account person = [] then .ok .noChannel
      else .ok (.accepted (Delivery.channels service.providers account person)) := by
  by_cases hnone : Delivery.channels service.providers account person = []
  · rw [service.dispatch_of_nil hnone, if_pos hnone]
  · rw [service.dispatch_of_ne_nil hnone, if_neg hnone]

/-- The candidates of a knock are for exactly the channels that can be used, in order; the knock is
answered with these, or with none; and the master switches make no difference to either. -/
theorem candidates_are_usable (p : ProviderSettings) (settings : ServiceSettings) (account : Account)
    (door : Door) (person : Person) (w : World Http.Network) :
    let service : Service Http.Network := ⟨p.providers, settings⟩
    (Delivery.candidates p.providers account person).map (·.channel) =
        p.usableChannels account person ∧
      (service.dispatch account door person w).1 =
        (if p.usableChannels account person = [] then .ok .noChannel
          else .ok (.accepted (p.usableChannels account person))) ∧
      ∀ master enabled app,
        Delivery.candidates p.providers (account.withMaster master) (person.withMaster enabled app) =
            Delivery.candidates p.providers account person ∧
          (service.dispatch (account.withMaster master) door (person.withMaster enabled app) w).1 =
            (service.dispatch account door person w).1 := by
  intro service
  have hchannels := p.channels_eq_usable account person
  refine ⟨hchannels, ?_, fun master enabled app => ?_⟩
  · rw [service.dispatch_answer, hchannels]
  · have hcandidates := Delivery.candidates_withMaster p account person master enabled app
    refine ⟨hcandidates, ?_⟩
    rw [service.dispatch_answer, service.dispatch_answer, Delivery.channels, hcandidates]
    rfl

end Concierge
