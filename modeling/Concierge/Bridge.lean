import Concierge.Uuid

/-!
# Bridges to external directories

A bridge is an external directory from which an account's people are taken over.  A link remembers
which remote user a person was made from; stored links name the bridge by a number, and a number
that names no bridge makes the row unreadable.
-/

namespace Concierge

/-- An external directory. -/
inductive Bridge where
  | hub
  | googleDirectory
  | hipchat
  | slack
  deriving DecidableEq, Repr, Inhabited

namespace Bridge

/-- Every bridge. -/
def all : List Bridge := [.hub, .googleDirectory, .hipchat, .slack]

/-- The number of a bridge on stored links. -/
def id : Bridge → Int
  | .hub => 1
  | .googleDirectory => 2
  | .hipchat => 3
  | .slack => 4

/-- The bridge of a number. -/
def ofId? (n : Int) : Option Bridge := all.find? fun b => b.id == n

/-- The name of a bridge in records, settings and logs. -/
def name : Bridge → String
  | .hub => "hub"
  | .googleDirectory => "google_directory"
  | .hipchat => "hipchat"
  | .slack => "slack"

/-- The bridges by name. -/
def names : List (String × Bridge) := all.map fun b => (b.name, b)

/-- The bridge of a name. -/
def ofName? (s : String) : Option Bridge := names.lookup s

@[simp] theorem ofId?_id (b : Bridge) : ofId? b.id = some b := by cases b <;> decide

@[simp] theorem ofName?_name (b : Bridge) : ofName? b.name = some b := by cases b <;> decide

theorem id_injective {a b : Bridge} (h : a.id = b.id) : a = b := by
  have := congrArg ofId? h
  simpa using this

end Bridge

/-- A user of an external directory, in the same shape for every bridge. -/
structure RemoteUser where
  bridge : Bridge
  externalId : String
  name : String
  email : String
  phoneNumber : String
  title : String
  deriving DecidableEq, Repr, Inhabited

/-- The tie between a remote user and a person of an account. -/
structure BridgeLink where
  id : Uuid
  accountId : Uuid
  personId : Uuid
  bridge : Bridge
  externalId : String
  deriving DecidableEq, Repr, Inhabited

end Concierge
