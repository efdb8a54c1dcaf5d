import Concierge.Uuid

/-!
# People and doors

A knock joins a door and a person of the same account.  A person who is hidden or away cannot be
reached at all; otherwise the families that the person opted into decide which channels are tried.
-/

namespace Concierge

/-- What a person opted into. -/
structure NotificationPreferences where
  enabled : Bool
  app : Bool
  chat : Bool
  sms : Bool
  email : Bool
  deriving DecidableEq, Repr

namespace NotificationPreferences

/-- Everything. -/
def all : NotificationPreferences := ⟨true, true, true, true, true⟩

/-- Nothing. -/
def none : NotificationPreferences := ⟨false, false, false, false, false⟩

instance : Inhabited NotificationPreferences := ⟨none⟩

end NotificationPreferences

/-- Somebody who can be asked to come to a door. -/
structure Person where
  id : Uuid
  accountId : Uuid
  name : String
  title : String
  email : String
  phoneNumber : String
  isVisible : Bool
  isAvailable : Bool
  notifications : NotificationPreferences
  deriving DecidableEq, Repr, Inhabited

/-- A place where visitors knock. -/
structure Door where
  id : Uuid
  accountId : Uuid
  name : String
  deriving DecidableEq, Repr, Inhabited

end Concierge
