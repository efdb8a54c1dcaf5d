import Concierge.Bridge
import Concierge.Channel
import Concierge.Error

/-!
# Log events

What the service tells its operators.  An event is a value of its own, so a run's log can be
compared; its level, wording and fields are read off it.
-/

namespace Concierge

/-- How urgent an event is. -/
inductive Level where
  | info
  | warn
  | error
  deriving DecidableEq, Repr

/-- The name of a level. -/
def Level.name : Level → String
  | .info => "INFO"
  | .warn => "WARN"
  | .error => "ERROR"

/-- Something that happened. -/
inductive Event where
  /-- A knock found no eligible channel. -/
  | noChannels
  | knockDelivered (channel : Channel)
  | attemptFailed (channel : Channel) (error : ProviderError)
  | attemptTimedOut (channel : Channel) (timeoutMs : Nat)
  | knockUndelivered (attempts : Nat)
  /-- No channel can carry the message for a new account. -/
  | noWelcomeChannel
  | welcomeDelivered (channel : Channel)
  | welcomeFailed (channel : Channel) (error : ProviderError)
  /-- A short message was not taken. -/
  | textRefused (error : ProviderError)
  | usersFetched (bridge : Bridge) (count : Nat)
  | fetchFailed (bridge : Bridge) (error : ProviderError)
  | fetchTimedOut (bridge : Bridge)
  | linksUnreadable (bridge : Bridge) (error : ServiceError)
  | syncRolledBack (error : ServiceError)
  | syncCommitted (created updated skipped : Nat)
  | requestForbidden (reason : String)
  | internalError (reason : String)
  | draining (inFlight : Nat)
  | stopped
  | migrating
  | migrated
  deriving DecidableEq, Repr

namespace Event

/-- The level of an event. -/
def level : Event → Level
  | .noChannels | .knockDelivered _ | .welcomeDelivered _ | .usersFetched _ _
  | .syncCommitted _ _ _ | .draining _ | .stopped | .migrating | .migrated => .info
  | .attemptFailed _ _ | .attemptTimedOut _ _ | .noWelcomeChannel | .fetchFailed _ _
  | .fetchTimedOut _ | .linksUnreadable _ _ | .requestForbidden _ => .warn
  | .knockUndelivered _ | .welcomeFailed _ _ | .textRefused _ | .syncRolledBack _
  | .internalError _ => .error

/-- The directory's name in the event of a fetch. -/
def directoryLabel : Bridge → String
  | .hub => "hub"
  | .googleDirectory => "google directory"
  | .hipchat => "hipchat"
  | .slack => "slack"

/-- The wording of an event. -/
def message : Event → String
  | .noChannels => "no channels"
  | .knockDelivered _ => "knock delivered"
  | .attemptFailed _ _ => "delivery attempt failed"
  | .attemptTimedOut _ _ => "delivery attempt timed out"
  | .knockUndelivered _ => "knock was not delivered on any channel"
  | .noWelcomeChannel => "no email provider configured for account created message"
  | .welcomeDelivered _ => "account created message delivered"
  | .welcomeFailed _ _ => "account created message failed"
  | .textRefused _ => "twilio refused the message"
  | .usersFetched bridge _ => directoryLabel bridge ++ " users fetched"
  | .fetchFailed _ _ => "bridge fetch failed, skipping"
  | .fetchTimedOut _ => "bridge fetch timed out, skipping"
  | .linksUnreadable _ _ => "loading bridge links failed, skipping"
  | .syncRolledBack _ => "directory sync rolled back"
  | .syncCommitted _ _ _ => "directory sync committed"
  | .requestForbidden _ => "request forbidden"
  | .internalError _ => "internal error"
  | .draining _ => "draining notification deliveries"
  | .stopped => "Doorbot module stopped"
  | .migrating => "Running doorbot database migrations"
  | .migrated => "Doorbot database migrations completed successfully"

/-- The value of a field. -/
inductive Value where
  | text (s : String)
  | number (n : Nat)
  deriving DecidableEq, Repr

/-- The fields of an event. -/
def fields : Event → List (String × Value)
  | .knockDelivered channel | .welcomeDelivered channel => [("channel", .text channel.name)]
  | .attemptFailed channel error | .welcomeFailed channel error =>
    [("channel", .text channel.name), ("error", .text error.message)]
  | .attemptTimedOut channel timeoutMs =>
    [("channel", .text channel.name), ("timeout_ms", .number timeoutMs)]
  | .knockUndelivered attempts => [("attempts", .number attempts)]
  | .textRefused error => [("error", .text error.message)]
  | .usersFetched _ count => [("count", .number count)]
  | .fetchFailed bridge error => [("bridge", .text bridge.name), ("error", .text error.message)]
  | .fetchTimedOut bridge => [("bridge", .text bridge.name)]
  | .linksUnreadable bridge error =>
    [("bridge", .text bridge.name), ("error", .text error.message)]
  | .syncRolledBack error => [("error", .text error.message)]
  | .syncCommitted created updated skipped =>
    [("created", .number created), ("updated", .number updated), ("skipped", .number skipped)]
  | .requestForbidden reason | .internalError reason => [("error", .text reason)]
  | .draining inFlight => [("in_flight", .number inFlight)]
  | .noChannels | .noWelcomeChannel | .stopped | .migrating | .migrated => []

end Event

end Concierge
