import Concierge.Settings.Service
import Concierge.World

/-!
# Directory synchronization

The users of each configured directory are fetched together with the links made from it before; a
directory that cannot be fetched, or whose links cannot be read, contributes neither.  Then, in one
transaction, each user updates the person of the first matching link or becomes a new person with a
link of its own.  Any failure there undoes the whole run.
-/

namespace Concierge

namespace Sync

variable {σ : Type}

/-! ## Fetching -/

/-- What a directory contributes. -/
structure Contribution where
  users : List RemoteUser
  links : List BridgeLink
  deriving DecidableEq, Repr

/-- Nothing. -/
def Contribution.none : Contribution := ⟨[], []⟩

/-- Fetch the users of a directory and load its links, unless one of them fails.  A fetch that did
not end was waited for until the time was up. -/
def fetch (providers : Providers σ) (account : Account) (bridge : Bridge) (w : World σ) :
    Option Contribution × World σ :=
  match providers.users account bridge w.outside with
  | (.error (.failed e), outside) =>
    (none, { w with outside := outside.report (.fetchFailed bridge e) })
  | (.error (.stalled _ _ _), outside) =>
    (none, { w with outside := outside.report (.fetchTimedOut bridge) })
  | (.ok users, outside) =>
    match Query.findLinks account.id bridge w.store with
    | (.ok links, store) => (some ⟨users, links⟩, { w with store, outside })
    | (.error e, store) =>
      (none, { w with store, outside := outside.report (.linksUnreadable bridge e) })

/-- Fetch directories in order; the result pairs each with what it contributes. -/
def fetchAll (providers : Providers σ) (account : Account) :
    List Bridge → World σ → List (Bridge × Option Contribution) × World σ
  | [], w => ([], w)
  | bridge :: rest, w =>
    let (found, w) := fetch providers account bridge w
    let (others, w) := fetchAll providers account rest w
    ((bridge, found) :: others, w)

/-- The users of all directories, in order. -/
def usersOf (fetched : List (Bridge × Option Contribution)) : List RemoteUser :=
  fetched.flatMap fun (_, c) => (c.getD .none).users

/-- The links of all directories, in order. -/
def linksOf (fetched : List (Bridge × Option Contribution)) : List BridgeLink :=
  fetched.flatMap fun (_, c) => (c.getD .none).links

/-- The directories that contribute nothing. -/
def skippedOf (fetched : List (Bridge × Option Contribution)) : List Bridge :=
  (fetched.filter fun (_, c) => c.isNone).map (·.1)

/-! ## Reconciling -/

/-- Whether a link belongs to a user. -/
def linkMatches (key : MatchKey) (link : BridgeLink) (user : RemoteUser) : Bool :=
  match key with
  | .externalId => link.externalId == user.externalId
  | .bridgeAndExternalId => link.bridge == user.bridge && link.externalId == user.externalId

/-- A person made from a user; nobody can reach them until somebody says otherwise. -/
def newPerson (id accountId : Uuid) (user : RemoteUser) : Person where
  id
  accountId
  name := user.name
  title := ""
  email := user.email
  phoneNumber := ""
  isVisible := false
  isAvailable := false
  notifications := .none

/-- A person with what a directory says about them. -/
def refreshed (person : Person) (user : RemoteUser) : Person :=
  { person with name := user.name, email := user.email, phoneNumber := user.phoneNumber }

/-- How many people were made and how many refreshed. -/
structure Counts where
  created : Nat
  updated : Nat
  deriving DecidableEq, Repr

/-- Refresh the person of a link. -/
def refresh (accountId personId : Uuid) (user : RemoteUser) : Query Unit := do
  match ← Query.findPerson accountId personId with
  | some person =>
    let _ ← Query.updatePerson accountId (refreshed person user)
  | none => throw (.notFound .person personId)

/-- Make a person and their link. -/
def enroll (accountId : Uuid) (user : RemoteUser) : Query BridgeLink := do
  let person ← Query.createPerson accountId (newPerson (← Query.fresh) accountId user)
  Query.createLink accountId ⟨← Query.fresh, accountId, person.id, user.bridge, user.externalId⟩

/-- Take over users in order.  A link made on the way counts for the users after it. -/
def reconcile (key : MatchKey) (accountId : Uuid) :
    List RemoteUser → List BridgeLink → Counts → Query Counts
  | [], _, counts => pure counts
  | user :: rest, links, counts =>
    match links.find? fun link => linkMatches key link user with
    | some link => do
      refresh accountId link.personId user
      reconcile key accountId rest links { counts with updated := counts.updated + 1 }
    | none => do
      let link ← enroll accountId user
      reconcile key accountId rest (links ++ [link]) { counts with created := counts.created + 1 }

/-- Reconcile an account with what was fetched, wholly or not at all. -/
def commit (key : MatchKey) (accountId : Uuid) (fetched : List (Bridge × Option Contribution)) :
    Query Counts :=
  Query.transaction (reconcile key accountId (usersOf fetched) (linksOf fetched) ⟨0, 0⟩)

/-! ## A run -/

/-- Synchronize an account. -/
def run (key : MatchKey) (bridges : List Bridge) (providers : Providers σ) (account : Account) :
    Action σ SyncReport := fun w =>
  let (fetched, w) := fetchAll providers account bridges w
  let skipped := skippedOf fetched
  match commit key account.id fetched w.store with
  | (.ok counts, store) =>
    let w := { w with store }
    (.ok ⟨counts.created, counts.updated, skipped⟩,
      w.report (.syncCommitted counts.created counts.updated skipped.length))
  | (.error e, store) =>
    let w := { w with store }
    (.error e, w.report (.syncRolledBack e))

end Sync

end Concierge
