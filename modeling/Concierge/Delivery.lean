import Concierge.Eligibility
import Concierge.Outside

/-!
# Delivery

A knock is delivered on the first channel that succeeds within the time limit of an attempt: the
candidates are tried in order, each once, and no further one is tried after a success.  The message
for a new account goes out on one email channel, without a second attempt.
-/

namespace Concierge

variable {σ : Type}

/-- How an attempt ended for whoever waited for it. -/
inductive AttemptResult where
  | delivered
  | failed (error : ProviderError)
  | timedOut
  deriving DecidableEq, Repr

/-- Make an attempt; one that did not end was waited for until the time was up. -/
def AttemptResult.of (attempt : Attempt σ Unit) (o : Outside σ) : AttemptResult × Outside σ :=
  match attempt o with
  | (.ok (), o) => (.delivered, o)
  | (.error (.failed e), o) => (.failed e, o)
  | (.error (.stalled _ _ _), o) => (.timedOut, o)

/-- What is logged about an attempt on a channel. -/
def AttemptResult.event (channel : Channel) (limitMs : Nat) : AttemptResult → Event
  | .delivered => .knockDelivered channel
  | .failed e => .attemptFailed channel e
  | .timedOut => .attemptTimedOut channel limitMs

/-- Append to the log. -/
def Outside.report (o : Outside σ) (e : Event) : Outside σ := { o with log := o.log ++ [e] }

/-- A message that was promised and not sent yet. -/
inductive Delivery where
  /-- A knock, on the first of the channels that succeeds. -/
  | knock (account : Account) (door : Door) (person : Person) (channels : List Channel)
  /-- The message for a new account, on one channel. -/
  | welcome (account : Account) (person : Person) (password : String) (channel : Channel)
  deriving DecidableEq, Repr

namespace Delivery

/-- Try candidates in order up to the first that succeeds. -/
def attempts (limitMs : Nat) (door : Door) (person : Person) :
    List (Notifier σ) → Outside σ → Option Channel × Outside σ
  | [], o => (none, o)
  | candidate :: rest, o =>
    let (result, o) := AttemptResult.of ((candidate.knock door person).within limitMs) o
    let o := o.report (result.event candidate.channel limitMs)
    match result with
    | .delivered => (some candidate.channel, o)
    | _ => attempts limitMs door person rest o

/-- Deliver a knock: the channel that succeeded, if one did. -/
def firstSuccess (limitMs : Nat) (door : Door) (person : Person)
    (candidates : List (Notifier σ)) (o : Outside σ) : Option Channel × Outside σ :=
  match attempts limitMs door person candidates o with
  | (some channel, o) => (some channel, o)
  | (none, o) => (none, o.report (.knockUndelivered candidates.length))

/-- The notifiers to try for a person, in order; channels without credentials are left out. -/
def candidates (providers : Providers σ) (account : Account) (person : Person) :
    List (Notifier σ) :=
  (account.notifications.eligible person).filterMap fun c => providers.notifier? c account

/-- The channels for the message of a new account, in order. -/
def welcomeChannels : List Channel := [.postmark, .mailgun]

/-- The notifier for the message of a new account. -/
def welcomeNotifier? (providers : Providers σ) (account : Account) : Option (Notifier σ) :=
  welcomeChannels.findSome? fun c => providers.notifier? c account

/-- Send the message for a new account; nobody but the provider's client limits the time. -/
def sendWelcome (notifier : Notifier σ) (person : Person) (password : String) (o : Outside σ) :
    Outside σ :=
  match notifier.welcome person password o with
  | (.ok (), o) => o.report (.welcomeDelivered notifier.channel)
  | (.error stop, o) =>
    (stop.last.foldl Outside.report o).report (.welcomeFailed notifier.channel stop.error)

/-- Send what was promised. -/
def run (providers : Providers σ) (limitMs : Nat) (d : Delivery) (o : Outside σ) : Outside σ :=
  match d with
  | .knock account door person channels =>
    (firstSuccess limitMs door person
      (channels.filterMap fun c => providers.notifier? c account) o).2
  | .welcome account person password channel =>
    match providers.notifier? channel account with
    | some notifier => sendWelcome notifier person password o
    | none => o

end Delivery

end Concierge
