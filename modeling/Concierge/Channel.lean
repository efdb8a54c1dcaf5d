/-!
# Notification channels

A channel is one provider through which a person can be told that somebody stands at a door.  The
channels fall into three families, and a person opts into families, not into channels.
-/

namespace Concierge

/-- A delivery provider. -/
inductive Channel where
  | hipchat
  | slack
  | nexmo
  | twilio
  | mailgun
  | postmark
  deriving DecidableEq, Repr, Inhabited

namespace Channel

/-- Every channel, in the order in which they are tried. -/
def all : List Channel := [.hipchat, .slack, .nexmo, .twilio, .mailgun, .postmark]

/-- The name of a channel in records, settings and logs. -/
def name : Channel → String
  | .hipchat => "hipchat"
  | .slack => "slack"
  | .nexmo => "nexmo"
  | .twilio => "twilio"
  | .mailgun => "mailgun"
  | .postmark => "postmark"

/-- The channels by name. -/
def names : List (String × Channel) := all.map fun c => (c.name, c)

/-- The channel of a name. -/
def ofName? (s : String) : Option Channel := names.lookup s

theorem mem_all (c : Channel) : c ∈ all := by cases c <;> decide

@[simp] theorem ofName?_name (c : Channel) : ofName? c.name = some c := by cases c <;> decide

/-- What a person opts into. -/
inductive Family where
  | chat
  | sms
  | email
  deriving DecidableEq, Repr

/-- The family of a channel. -/
def family : Channel → Family
  | .hipchat | .slack => .chat
  | .nexmo | .twilio => .sms
  | .mailgun | .postmark => .email

end Channel

end Concierge
