import Concierge.Account
import Concierge.Event
import Concierge.Person

/-!
# Providers outside

Deliveries and directories are reached through providers, of which only this much is known: an
attempt to use one changes something outside, may be logged, and succeeds, fails or stalls.  An
attempt that stalls brings no success any more.  It ends when somebody's patience does, or with a
failure of its own after a time; for somebody who waits no longer than a limit, whichever comes
first decides.
-/

namespace Concierge

/-- The state of everything outside, and the log. -/
structure Outside (σ : Type) where
  state : σ
  log : List Event

/-- Why an attempt did not succeed. -/
inductive Stop where
  | failed (error : ProviderError)
  /-- No answer came.  Left alone, the attempt logs the given events in the end and fails with the
  error: after so many milliseconds, or if none are given, after longer than anybody's limit. -/
  | stalled (error : ProviderError) (last : List Event) (afterMs : Option Nat := none)
  deriving DecidableEq, Repr

namespace Stop

/-- The error that an attempt ends in if nobody else limits its time. -/
def error : Stop → ProviderError
  | .failed e => e
  | .stalled e _ _ => e

/-- What is still logged if nobody else limits the time of an attempt. -/
def last : Stop → List Event
  | .failed _ => []
  | .stalled _ events _ => events

/-- An attempt that stalled gives up by itself within a limit. -/
def endsWithin (limitMs : Nat) : Stop → Bool
  | .failed _ => false
  | .stalled _ _ afterMs => afterMs.any (· ≤ limitMs)

end Stop

/-- An attempt to use a provider. -/
abbrev Attempt (σ α : Type) := ExceptT Stop (StateM (Outside σ)) α

namespace Attempt

variable {σ α : Type}

/-- Fail. -/
def fail (e : ProviderError) : Attempt σ α := throw (.failed e)

/-- Log an event. -/
def report (e : Event) : Attempt σ Unit := modify fun o => { o with log := o.log ++ [e] }

/-- Change what is outside. -/
def onState (f : σ → σ) : Attempt σ Unit := modify fun o => { o with state := f o.state }

/-- The attempt as it is for somebody who waits no longer than a limit. -/
def within (limitMs : Nat) (attempt : Attempt σ α) : Attempt σ α := fun o =>
  match attempt o with
  | (.ok x, o) => (.ok x, o)
  | (.error stop, o) =>
    if stop.endsWithin limitMs then
      (.error (.failed stop.error), { o with log := o.log ++ stop.last })
    else (.error stop, o)

end Attempt

/-- A way to notify people of an account. -/
structure Notifier (σ : Type) where
  channel : Channel
  /-- Tell a person that somebody is at a door. -/
  knock : Door → Person → Attempt σ Unit
  /-- Send the password of a new account. -/
  welcome : Person → String → Attempt σ Unit

/-- All providers. -/
structure Providers (σ : Type) where
  /-- The notifier for a channel of an account; none without credentials. -/
  notifier? : Channel → Account → Option (Notifier σ)
  /-- The users of a directory of an account. -/
  users : Account → Bridge → Attempt σ (List RemoteUser)

/-- The providers for somebody who waits for a directory no longer than a limit. -/
def Providers.within {σ : Type} (limitMs : Nat) (p : Providers σ) : Providers σ :=
  { p with users := fun account bridge => (p.users account bridge).within limitMs }

end Concierge
