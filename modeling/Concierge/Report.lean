import Concierge.Bridge
import Concierge.Channel

/-!
# Answers to requests

What a knock and a directory synchronization report back, and the request for a knock.
-/

namespace Concierge

/-- What became of a knock when it was made. -/
inductive KnockOutcome where
  /-- No channel was eligible, so nothing is delivered. -/
  | noChannel
  /-- The channels will be tried in this order. -/
  | accepted (channels : List Channel)
  deriving DecidableEq, Repr

/-- The knock will be delivered. -/
def KnockOutcome.isAccepted : KnockOutcome → Bool
  | .noChannel => false
  | .accepted _ => true

/-- What a synchronization did. -/
structure SyncReport where
  created : Nat
  updated : Nat
  /-- The bridges that contributed nothing, in configured order. -/
  skippedBridges : List Bridge
  deriving DecidableEq, Repr

instance : Inhabited SyncReport := ⟨⟨0, 0, []⟩⟩

/-- A request to tell a person that somebody is at a door. -/
structure KnockRequest where
  doorId : Uuid
  personId : Uuid
  deriving DecidableEq, Repr, Inhabited

end Concierge
