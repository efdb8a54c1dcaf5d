import Concierge.Store.Basic
import Concierge.Store.Rows

/-!
# Queries

Reading and writing rows.  Everything below an account is looked up together with the account's
identifier, so rows of other accounts are never seen.  Identifiers are unique in each table, and so
are the host names of accounts and the external ids of an account's links to one bridge.

A record is written as a row; what the tables show of it, and what the caller gets back, is read from
that row.
-/

namespace Concierge

namespace Query

/-! ## Accounts -/

/-- The account with an identifier. -/
def findAccount (id : Uuid) : Query (Option Account) := do
  enter .findAccount
  return (← tables).accounts.find? fun a => a.id == id

/-- The account that is served on a host. -/
def findAccountByHost (host : String) : Query (Option Account) := do
  enter .findAccountByHost
  return (← tables).accounts.find? fun a => a.host == host

/-- Add an account. -/
def createAccount (account : Account) : Query Account := do
  if account.host.isEmpty then throw (.invalid "host" "Host cannot be empty")
  let t ← tables
  if t.accounts.any fun a => a.id == account.id then throw (violated "accounts.id")
  if t.accounts.any fun a => a.host == account.host then throw (violated "accounts.host")
  let row := AccountRow.ofAccount account
  put { t with accounts := t.accounts ++ [row.toAccount] }
  return row.toAccount

/-! ## People -/

/-- The person of an account with an identifier. -/
def findPerson (accountId id : Uuid) : Query (Option Person) := do
  enter .findPerson
  return (← tables).people.find? fun p => p.id == id && p.accountId == accountId

/-- Add a person to an account. -/
def createPerson (accountId : Uuid) (person : Person) : Query Person := do
  enter .createPerson
  let t ← tables
  if t.people.any fun p => p.id == person.id then throw (violated "people.id")
  let row := PersonRow.ofPerson { person with accountId }
  put { t with people := t.people ++ [row.toPerson] }
  return row.toPerson

/-- Replace a person of an account. -/
def updatePerson (accountId : Uuid) (person : Person) : Query Person := do
  enter .updatePerson
  let t ← tables
  if t.people.any fun p => p.id == person.id && p.accountId == accountId then
    let row := PersonRow.ofPerson { person with accountId }
    put { t with people := t.people.map fun p => if p.id = row.id then row.toPerson else p }
    return row.toPerson
  else throw (.notFound .person person.id)

/-! ## Doors -/

/-- The door of an account with an identifier. -/
def findDoor (accountId id : Uuid) : Query (Option Door) := do
  enter .findDoor
  return (← tables).doors.find? fun d => d.id == id && d.accountId == accountId

/-- Add a door to an account. -/
def createDoor (accountId : Uuid) (door : Door) : Query Door := do
  let t ← tables
  if t.doors.any fun d => d.id == door.id then throw (violated "doors.id")
  let row := DoorRow.ofDoor { door with accountId }
  put { t with doors := t.doors ++ [row.toDoor] }
  return row.toDoor

/-! ## Links -/

/-- The links of an account to a bridge, oldest first. -/
def findLinks (accountId : Uuid) (bridge : Bridge) : Query (List BridgeLink) := do
  enter .findLinks
  let rows := (← tables).links.filter fun l => l.accountId == accountId && l.bridgeId == bridge.id
  match rows.mapM LinkRow.toLink with
  | .ok links => return links
  | .error e => throw e

/-- Add a link to an account. -/
def createLink (accountId : Uuid) (link : BridgeLink) : Query BridgeLink := do
  enter .createLink
  let t ← tables
  let link := { link with accountId }
  if t.links.any fun l => l.id == link.id then throw (violated "bridge_users.id")
  if t.links.any fun l => l.accountId == accountId && l.bridgeId == link.bridge.id &&
      l.externalId == link.externalId then
    throw (violated "bridge_users.account_id, bridge_users.bridge_id, bridge_users.user_id")
  let row := LinkRow.ofLink link
  put { t with links := t.links ++ [row] }
  match row.toLink with
  | .ok link => return link
  | .error e => throw e

end Query

end Concierge
