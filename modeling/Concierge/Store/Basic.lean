import Concierge.Account
import Concierge.Bridge
import Concierge.Error
import Concierge.Person

/-!
# The store

Four tables, each a list of rows in the order in which they were added, and what is needed to run
queries on them: identifiers that have not been given out yet, and calls that are going to be
refused.  A query may fail; a transaction that fails leaves the tables as they were.

The tables are those of the schema for SQLite, whose columns take a text of any length.  The schemas
for the other databases bound most of them at 255 characters and refuse a row that is longer, which
is left out.

Rows of accounts, people and doors are shown as the records that are read from them.  A row of a link
may be unreadable, so it is shown as it is.
-/

namespace Concierge

/-- A stored link, which names its bridge by a number. -/
structure LinkRow where
  id : Uuid
  accountId : Uuid
  personId : Uuid
  bridgeId : Int
  externalId : String
  deriving DecidableEq, Repr

namespace LinkRow

/-- The link of a row, unless its number names no bridge. -/
def toLink (row : LinkRow) : Except ServiceError BridgeLink :=
  match Bridge.ofId? row.bridgeId with
  | some bridge => .ok ⟨row.id, row.accountId, row.personId, bridge, row.externalId⟩
  | none => .error (.database
      ("unknown bridge id " ++ toString row.bridgeId ++ " on link " ++ row.id.toText))

/-- The row of a link. -/
def ofLink (link : BridgeLink) : LinkRow :=
  ⟨link.id, link.accountId, link.personId, link.bridge.id, link.externalId⟩

@[simp] theorem toLink_ofLink (link : BridgeLink) : (ofLink link).toLink = .ok link := by
  simp [toLink, ofLink]

end LinkRow

/-- The rows of the store, oldest first. -/
structure Tables where
  accounts : List Account
  people : List Person
  doors : List Door
  links : List LinkRow
  deriving DecidableEq, Repr

/-- No rows. -/
def Tables.empty : Tables := ⟨[], [], [], []⟩

instance : Inhabited Tables := ⟨.empty⟩

/-- The queries that may be refused. -/
inductive Call where
  | findAccount
  | findAccountByHost
  | findPerson
  | createPerson
  | updatePerson
  | findDoor
  | findLinks
  | createLink
  deriving DecidableEq, Repr

namespace Call

/-- The name of a query. -/
def name : Call → String
  | .findAccount => "accounts.find"
  | .findAccountByHost => "accounts.find_by_host"
  | .findPerson => "people.find"
  | .createPerson => "people.create"
  | .updatePerson => "people.update"
  | .findDoor => "doors.find"
  | .findLinks => "links.find"
  | .createLink => "links.create"

/-- The queries by name. -/
def names : List (String × Call) :=
  [Call.findAccount, .findAccountByHost, .findPerson, .createPerson, .updatePerson, .findDoor,
    .findLinks, .createLink].map fun c => (c.name, c)

/-- What a refused query fails with. -/
def refusal (c : Call) : ServiceError := .database ("injected " ++ c.name ++ " failure")

end Call

/-- The store. -/
structure Store where
  /-- Without tables every query fails. -/
  tables : Option Tables
  /-- For each query, how many calls of it succeed before each refusal. -/
  refusals : Call → List Nat
  /-- The identifiers that are given out, in order. -/
  supply : Nat → Uuid
  /-- How many identifiers were given out. -/
  issued : Nat

namespace Store

/-- A store that refuses nothing. -/
def new (tables : Option Tables) (supply : Nat → Uuid) : Store := ⟨tables, fun _ => [], supply, 0⟩

/-- Let the calls of a query be refused after the given numbers of successes. -/
def refuse (s : Store) (c : Call) (gaps : List Nat) : Store :=
  { s with refusals := fun d => if d = c then gaps else s.refusals d }

/-- Create the tables unless they are there. -/
def migrate (s : Store) : Store := { s with tables := some (s.tables.getD .empty) }

/-- Drop the tables. -/
def drop (s : Store) : Store := { s with tables := none }

end Store

/-- Something that runs on the store and may fail. -/
abbrev Query (α : Type) := ExceptT ServiceError (StateM Store) α

namespace Query

/-- Count a call; it fails if it is to be refused. -/
def enter (c : Call) : Query Unit := fun s =>
  match s.refusals c with
  | [] => (.ok (), s)
  | 0 :: gaps => (.error c.refusal, s.refuse c gaps)
  | (n + 1) :: gaps => (.ok (), s.refuse c (n :: gaps))

/-- What a query without tables fails with. -/
def noTables : ServiceError := .database "no such table"

/-- The tables. -/
def tables : Query Tables := fun s =>
  match s.tables with
  | some t => (.ok t, s)
  | none => (.error noTables, s)

/-- Change the tables. -/
def put (t : Tables) : Query Unit := fun s => (.ok (), { s with tables := some t })

/-- A row breaks a rule of its table. -/
def violated (rule : String) : ServiceError := .database ("UNIQUE constraint failed: " ++ rule)

/-- An identifier that was not given out before. -/
def fresh : Query Uuid := fun s => (.ok (s.supply s.issued), { s with issued := s.issued + 1 })

/-- Run a query; if it fails, the tables are as before. -/
def transaction {α : Type} (q : Query α) : Query α := fun s =>
  match q s with
  | (.ok a, s') => (.ok a, s')
  | (.error e, s') => (.error e, { s' with tables := s.tables })

end Query

end Concierge
