import Concierge.Account
import Concierge.Person

/-!
# Eligible channels

A channel is eligible for a person if the person opted into its family and the account switched it
on; a short message also needs a number that can be dialled.  Neither the account's nor the person's
master switch is consulted.
-/

namespace Concierge

/-- Numbers of this many octets or fewer are never texted. -/
def Person.shortNumberLimit : Nat := 6

/-- The person's number is long enough to be dialled. -/
def Person.isDialable (p : Person) : Bool := p.phoneNumber.utf8ByteSize > shortNumberLimit

/-- The person opted into a family of channels. -/
def NotificationPreferences.optsInto (p : NotificationPreferences) : Channel.Family → Bool
  | .chat => p.chat
  | .sms => p.sms
  | .email => p.email

/-- Whether a channel may be used for a person. -/
def NotificationSettings.isEligible (s : NotificationSettings) (p : Person) (c : Channel) : Bool :=
  p.notifications.optsInto c.family && (s.switch c).enabled &&
    (c.family != .sms || p.isDialable)

/-- The channels that may be used for a person, in the order in which they are tried. -/
def NotificationSettings.eligible (s : NotificationSettings) (p : Person) : List Channel :=
  Channel.all.filter (s.isEligible p)

theorem NotificationSettings.mem_eligible {s : NotificationSettings} {p : Person} {c : Channel} :
    c ∈ s.eligible p ↔ s.isEligible p c = true := by
  simp [eligible, Channel.mem_all]

end Concierge
