import Concierge.Proofs.Fallible
import Concierge.Store.Queries

/-!
# Queries as calls on the tables

Every query counts a call, which may be refused, and then reads or replaces the tables by a pure
function of them.  The pure functions are named here, and each query is proved equal to the call of
its function, so later proofs reason about tables and never open a query again.

A refused call, a call without tables and a call whose function fails leave the tables as they were.
-/

namespace Concierge

/-! ## Tables -/

namespace Tables

/-- The person of an account with an identifier. -/
def person? (t : Tables) (accountId id : Uuid) : Option Person :=
  t.people.find? fun p => p.id == id && p.accountId == accountId

/-- The door of an account with an identifier. -/
def door? (t : Tables) (accountId id : Uuid) : Option Door :=
  t.doors.find? fun d => d.id == id && d.accountId == accountId

/-- Whether a row ties an account to a bridge. -/
def isLinkTo (accountId : Uuid) (bridge : Bridge) (row : LinkRow) : Bool :=
  row.accountId == accountId && row.bridgeId == bridge.id

/-- The links of an account to a bridge, oldest first. -/
def linksTo (t : Tables) (accountId : Uuid) (bridge : Bridge) : List BridgeLink :=
  (t.links.filter (isLinkTo accountId bridge)).map fun row =>
    ⟨row.id, row.accountId, row.personId, bridge, row.externalId⟩

/-- Add an account. -/
def addAccount (t : Tables) (account : Account) : Except ServiceError (Account × Tables) :=
  if account.host.isEmpty then .error (.invalid "host" "Host cannot be empty")
  else if t.accounts.any fun a => a.id == account.id then .error (Query.violated "accounts.id")
  else if t.accounts.any fun a => a.host == account.host then
    .error (Query.violated "accounts.host")
  else .ok (account, { t with accounts := t.accounts ++ [account] })

/-- Add a door to an account. -/
def addDoor (t : Tables) (accountId : Uuid) (door : Door) : Except ServiceError (Door × Tables) :=
  if t.doors.any fun d => d.id == door.id then .error (Query.violated "doors.id")
  else .ok ({ door with accountId }, { t with doors := t.doors ++ [{ door with accountId }] })

/-- Add a person to an account. -/
def addPerson (t : Tables) (accountId : Uuid) (person : Person) :
    Except ServiceError (Person × Tables) :=
  if t.people.any fun p => p.id == person.id then .error (Query.violated "people.id")
  else .ok ({ person with accountId }, { t with people := t.people ++ [{ person with accountId }] })

/-- Replace a person of an account. -/
def replacePerson (t : Tables) (accountId : Uuid) (person : Person) :
    Except ServiceError (Person × Tables) :=
  if t.people.any fun p => p.id == person.id && p.accountId == accountId then
    .ok ({ person with accountId },
      { t with people := t.people.map fun p =>
          if p.id = person.id then { person with accountId } else p })
  else .error (.notFound .person person.id)

/-- Add a link to an account. -/
def addLink (t : Tables) (accountId : Uuid) (link : BridgeLink) :
    Except ServiceError (BridgeLink × Tables) :=
  if t.links.any fun l => l.id == link.id then .error (Query.violated "bridge_users.id")
  else if t.links.any fun l => l.accountId == accountId && l.bridgeId == link.bridge.id &&
      l.externalId == link.externalId then
    .error (Query.violated
      "bridge_users.account_id, bridge_users.bridge_id, bridge_users.user_id")
  else .ok ({ link with accountId },
    { t with links := t.links ++ [.ofLink { link with accountId }] })

end Tables

/-- Reading row by row succeeds if every row can be read. -/
theorem mapM_ok_of_forall {α β ε : Type} {read : α → Except ε β} {value : α → β} {rows : List α}
    (h : ∀ row ∈ rows, read row = .ok (value row)) : rows.mapM read = .ok (rows.map value) := by
  induction rows with
  | nil => rfl
  | cons row rest ih =>
    rw [List.mapM_cons, h row List.mem_cons_self, ih fun r hr => h r (List.mem_cons_of_mem _ hr)]
    rfl

/-- Rows that are selected for a bridge can always be read. -/
theorem mapM_toLink_of_isLinkTo (accountId : Uuid) (bridge : Bridge) (rows : List LinkRow) :
    (rows.filter (Tables.isLinkTo accountId bridge)).mapM LinkRow.toLink =
      .ok ((rows.filter (Tables.isLinkTo accountId bridge)).map fun row =>
        ⟨row.id, row.accountId, row.personId, bridge, row.externalId⟩) := by
  apply mapM_ok_of_forall
  intro row hrow
  have hlink := (List.mem_filter.1 hrow).2
  simp only [Tables.isLinkTo, Bool.and_eq_true, beq_iff_eq] at hlink
  simp [LinkRow.toLink, hlink.2]

/-! ## Counting calls -/

namespace Store

/-- The next call of a query is not refused. -/
def admits (s : Store) (c : Call) : Bool := (s.refusals c).head? != some 0

/-- The store after a call of a query was counted. -/
def count (s : Store) (c : Call) : Store :=
  match s.refusals c with
  | [] => s
  | 0 :: gaps => s.refuse c gaps
  | (n + 1) :: gaps => s.refuse c (n :: gaps)

@[simp] theorem count_tables (s : Store) (c : Call) : (s.count c).tables = s.tables := by
  unfold count; split <;> rfl

@[simp] theorem count_supply (s : Store) (c : Call) : (s.count c).supply = s.supply := by
  unfold count; split <;> rfl

@[simp] theorem count_issued (s : Store) (c : Call) : (s.count c).issued = s.issued := by
  unfold count; split <;> rfl

/-- Counting a call leaves the refusals of the other queries alone. -/
theorem count_refusals_of_ne (s : Store) {c d : Call} (h : d ≠ c) :
    (s.count c).refusals d = s.refusals d := by
  unfold count; split <;> simp [refuse, h]

/-- A query that refuses nothing is not even counted. -/
theorem count_of_willing (s : Store) {c : Call} (h : s.refusals c = []) : s.count c = s := by
  simp [count, h]

/-- A query that refuses nothing admits the next call. -/
theorem admits_of_willing (s : Store) {c : Call} (h : s.refusals c = []) : s.admits c = true := by
  simp [admits, h]

end Store

/-! ## Queries -/

namespace Query

open Fallible

variable {α : Type}

/-- A transaction that succeeds is what it runs. -/
theorem transaction_of_ok {q : Query α} {s s' : Store} {a : α} (h : q s = (.ok a, s')) :
    transaction q s = (.ok a, s') := by
  simp [transaction, h]

/-- A transaction that fails takes the tables back. -/
theorem transaction_of_error {q : Query α} {s s' : Store} {e : ServiceError}
    (h : q s = (.error e, s')) :
    transaction q s = (.error e, { s' with tables := s.tables }) := by
  simp [transaction, h]

/-- Read and replace the tables. -/
def onTables (f : Tables → Except ServiceError (α × Tables)) : Query α := fun s =>
  match s.tables with
  | none => (.error noTables, s)
  | some t =>
    match f t with
    | .ok (a, t') => (.ok a, { s with tables := some t' })
    | .error e => (.error e, s)

/-- A counted call that reads and replaces the tables. -/
def call (c : Call) (f : Tables → Except ServiceError (α × Tables)) : Query α := do
  enter c
  onTables f

/-- Nothing can be read without tables. -/
theorem onTables_of_none {f : Tables → Except ServiceError (α × Tables)} {s : Store}
    (ht : s.tables = none) : onTables f s = (.error noTables, s) := by
  simp [onTables, ht]

/-- The tables are replaced if the function succeeds. -/
theorem onTables_of_ok {f : Tables → Except ServiceError (α × Tables)} {s : Store} {t t' : Tables}
    {a : α} (ht : s.tables = some t) (hf : f t = .ok (a, t')) :
    onTables f s = (.ok a, { s with tables := some t' }) := by
  simp [onTables, ht, hf]

/-- The tables stay if the function fails. -/
theorem onTables_of_error {f : Tables → Except ServiceError (α × Tables)} {s : Store} {t : Tables}
    {e : ServiceError} (ht : s.tables = some t) (hf : f t = .error e) :
    onTables f s = (.error e, s) := by
  simp [onTables, ht, hf]

/-- What a function of the tables did that succeeded. -/
theorem onTables_ok {f : Tables → Except ServiceError (α × Tables)} {s s' : Store} {a : α}
    (h : onTables f s = (.ok a, s')) :
    ∃ t t', s.tables = some t ∧ f t = .ok (a, t') ∧ s' = { s with tables := some t' } := by
  cases ht : s.tables with
  | none =>
    rw [onTables_of_none ht] at h
    cases h
  | some t =>
    cases hf : f t with
    | error e =>
      rw [onTables_of_error ht hf] at h
      cases h
    | ok answer =>
      obtain ⟨b, t'⟩ := answer
      rw [onTables_of_ok ht hf] at h
      cases h
      exact ⟨t, t', rfl, hf, rfl⟩

/-- Why a function of the tables failed that failed. -/
theorem onTables_error {f : Tables → Except ServiceError (α × Tables)} {s s' : Store}
    {e : ServiceError} (h : onTables f s = (.error e, s')) :
    s' = s ∧ (e = noTables ∨ ∃ t, s.tables = some t ∧ f t = .error e) := by
  cases ht : s.tables with
  | none =>
    rw [onTables_of_none ht] at h
    cases h
    exact ⟨rfl, .inl rfl⟩
  | some t =>
    cases hf : f t with
    | error e' =>
      rw [onTables_of_error ht hf] at h
      cases h
      exact ⟨rfl, .inr ⟨t, rfl, hf⟩⟩
    | ok answer =>
      rw [onTables_of_ok ht hf] at h
      cases h

/-- Entering a query counts a call, refused or not. -/
theorem enter_apply (c : Call) (s : Store) :
    enter c s = (if s.admits c then .ok () else .error c.refusal, s.count c) := by
  unfold enter Store.admits Store.count
  cases s.refusals c with
  | nil => rfl
  | cons gap gaps => cases gap <;> rfl

/-- A refused call does nothing but count. -/
theorem call_of_refused {c : Call} {f : Tables → Except ServiceError (α × Tables)} {s : Store}
    (h : s.admits c = false) : call c f s = (.error c.refusal, s.count c) := by
  have henter : enter c s = (.error c.refusal, s.count c) := by simp [enter_apply, h]
  exact bind_of_error henter

/-- An admitted call is a function of the tables. -/
theorem call_of_admitted {c : Call} {f : Tables → Except ServiceError (α × Tables)} {s : Store}
    (h : s.admits c = true) : call c f s = onTables f (s.count c) := by
  have henter : enter c s = (.ok (), s.count c) := by simp [enter_apply, h]
  exact bind_of_ok henter

/-- What a call did that succeeded. -/
theorem call_ok {c : Call} {f : Tables → Except ServiceError (α × Tables)} {s s' : Store} {a : α}
    (h : call c f s = (.ok a, s')) :
    ∃ t t', s.tables = some t ∧ f t = .ok (a, t') ∧ s' = { s.count c with tables := some t' } := by
  cases hc : s.admits c with
  | false =>
    rw [call_of_refused hc] at h
    cases h
  | true =>
    rw [call_of_admitted hc] at h
    obtain ⟨t, t', ht, hf, hs'⟩ := onTables_ok h
    exact ⟨t, t', by simpa using ht, hf, hs'⟩

/-- Why a call failed that failed. -/
theorem call_error {c : Call} {f : Tables → Except ServiceError (α × Tables)} {s s' : Store}
    {e : ServiceError} (h : call c f s = (.error e, s')) :
    s' = s.count c ∧ (e = c.refusal ∨ e = noTables ∨ ∃ t, s.tables = some t ∧ f t = .error e) := by
  cases hc : s.admits c with
  | false =>
    rw [call_of_refused hc] at h
    cases h
    exact ⟨rfl, .inl rfl⟩
  | true =>
    rw [call_of_admitted hc] at h
    obtain ⟨hs', hfault⟩ := onTables_error h
    exact ⟨hs', .inr (by simpa using hfault)⟩

/-- The tables are as they were, or as the function left them. -/
theorem tables_of_onTables {P : Tables → Prop} {f : Tables → Except ServiceError (α × Tables)}
    {s : Store} {t : Tables} (ht : s.tables = some t) (hstay : P t)
    (hf : ∀ a t', f t = .ok (a, t') → P t') : ∃ t', (onTables f s).2.tables = some t' ∧ P t' := by
  cases hanswer : f t with
  | error e =>
    rw [onTables_of_error ht hanswer]
    exact ⟨t, ht, hstay⟩
  | ok answer =>
    rw [onTables_of_ok ht hanswer]
    exact ⟨answer.2, rfl, hf answer.1 answer.2 hanswer⟩

/-- So it is after a call, which may be refused. -/
theorem tables_of_call {P : Tables → Prop} {c : Call}
    {f : Tables → Except ServiceError (α × Tables)} {s : Store} {t : Tables}
    (ht : s.tables = some t) (hstay : P t) (hf : ∀ a t', f t = .ok (a, t') → P t') :
    ∃ t', (call c f s).2.tables = some t' ∧ P t' := by
  cases hc : s.admits c with
  | false =>
    rw [call_of_refused hc]
    exact ⟨t, by simpa using ht, hstay⟩
  | true =>
    rw [call_of_admitted hc]
    exact tables_of_onTables (by simpa using ht) hstay hf

/-- What reads the tables first is a function of them. -/
theorem tables_eq_onTables {k : Tables → Query α} {f : Tables → Except ServiceError (α × Tables)}
    (h : ∀ s t, s.tables = some t → k t s = onTables f s) :
    (do let t ← tables; k t) = onTables f := by
  funext s
  cases ht : s.tables with
  | none =>
    have hnone : tables s = (.error noTables, s) := by simp [tables, ht]
    rw [bind_of_error hnone, onTables_of_none ht]
  | some t =>
    have hsome : tables s = (.ok t, s) := by simp [tables, ht]
    rw [bind_of_ok hsome, h s t ht]

/-- What counts a call and then reads the tables is a call. -/
theorem enter_tables_eq_call {c : Call} {k : Tables → Query α}
    {f : Tables → Except ServiceError (α × Tables)}
    (h : ∀ s t, s.tables = some t → k t s = onTables f s) :
    (do enter c; let t ← tables; k t) = call c f := by
  rw [call, tables_eq_onTables h]

/-- Putting back the tables that are there changes nothing. -/
theorem onTables_of_unchanged {f : Tables → Except ServiceError (α × Tables)} {s : Store}
    {t : Tables} {a : α} (ht : s.tables = some t) (hf : f t = .ok (a, t)) :
    onTables f s = (.ok a, s) := by
  obtain ⟨tables, refusals, supply, issued⟩ := s
  subst ht
  simp [onTables, hf]

/-- A call that is not refused answers and replaces the tables as its function says. -/
theorem call_of_willing {c : Call} {f : Tables → Except ServiceError (α × Tables)} {s : Store}
    {t t' : Tables} {a : α} (hc : s.refusals c = []) (ht : s.tables = some t)
    (hf : f t = .ok (a, t')) : call c f s = (.ok a, { s with tables := some t' }) := by
  rw [call_of_admitted (s.admits_of_willing hc), s.count_of_willing hc, onTables_of_ok ht hf]

/-- A call that is not refused and only reads leaves the store alone. -/
theorem call_of_reading {c : Call} {f : Tables → Except ServiceError (α × Tables)} {s : Store}
    {t : Tables} {a : α} (hc : s.refusals c = []) (ht : s.tables = some t)
    (hf : f t = .ok (a, t)) : call c f s = (.ok a, s) := by
  rw [call_of_admitted (s.admits_of_willing hc), s.count_of_willing hc, onTables_of_unchanged ht hf]

theorem findAccount_eq_call (id : Uuid) :
    findAccount id = call .findAccount fun t => .ok (t.accounts.find? (·.id == id), t) :=
  enter_tables_eq_call fun _ _ ht => (onTables_of_unchanged ht rfl).symm

theorem findAccountByHost_eq_call (host : String) :
    findAccountByHost host =
      call .findAccountByHost fun t => .ok (t.accounts.find? (·.host == host), t) :=
  enter_tables_eq_call fun _ _ ht => (onTables_of_unchanged ht rfl).symm

theorem findPerson_eq_call (accountId id : Uuid) :
    findPerson accountId id = call .findPerson fun t => .ok (t.person? accountId id, t) :=
  enter_tables_eq_call fun _ _ ht => (onTables_of_unchanged ht rfl).symm

theorem findDoor_eq_call (accountId id : Uuid) :
    findDoor accountId id = call .findDoor fun t => .ok (t.door? accountId id, t) :=
  enter_tables_eq_call fun _ _ ht => (onTables_of_unchanged ht rfl).symm

theorem findLinks_eq_call (accountId : Uuid) (bridge : Bridge) :
    findLinks accountId bridge = call .findLinks fun t => .ok (t.linksTo accountId bridge, t) := by
  refine enter_tables_eq_call fun s t ht => ?_
  have hread : (t.links.filter fun l => l.accountId == accountId && l.bridgeId == bridge.id).mapM
      LinkRow.toLink = .ok (t.linksTo accountId bridge) :=
    mapM_toLink_of_isLinkTo accountId bridge t.links
  rw [onTables_of_unchanged ht rfl, hread]
  rfl

/-- The host name of an account is looked at before the tables are. -/
theorem createAccount_eq_onTables (account : Account) {s : Store} {t : Tables}
    (ht : s.tables = some t) : createAccount account s = onTables (·.addAccount account) s := by
  have hsome : tables s = (.ok t, s) := by simp [tables, ht]
  unfold createAccount
  simp only [onTables, ht, Tables.addAccount, AccountRow.toAccount_ofAccount]
  by_cases hempty : account.host.isEmpty
  · simp only [hempty, if_true]
    rfl
  · simp only [hempty, if_false, Bool.false_eq_true]
    refine (bind_of_ok hsome).trans ?_
    by_cases hid : t.accounts.any fun a => a.id == account.id
    · simp only [hid, if_true]
      rfl
    · simp only [hid, if_false, Bool.false_eq_true]
      split <;> rfl

theorem createDoor_eq_onTables (accountId : Uuid) (door : Door) :
    createDoor accountId door = onTables (·.addDoor accountId door) := by
  refine tables_eq_onTables fun s t ht => ?_
  simp only [onTables, ht, Tables.addDoor, DoorRow.toDoor_ofDoor]
  split <;> rfl

theorem createPerson_eq_call (accountId : Uuid) (person : Person) :
    createPerson accountId person = call .createPerson (·.addPerson accountId person) := by
  refine enter_tables_eq_call fun s t ht => ?_
  simp only [onTables, ht, Tables.addPerson, PersonRow.toPerson_ofPerson]
  split <;> rfl

theorem updatePerson_eq_call (accountId : Uuid) (person : Person) :
    updatePerson accountId person = call .updatePerson (·.replacePerson accountId person) := by
  refine enter_tables_eq_call fun s t ht => ?_
  simp only [onTables, ht, Tables.replacePerson, PersonRow.toPerson_ofPerson]
  split <;> rfl

theorem createLink_eq_call (accountId : Uuid) (link : BridgeLink) :
    createLink accountId link = call .createLink (·.addLink accountId link) := by
  refine enter_tables_eq_call fun s t ht => ?_
  simp only [onTables, ht, Tables.addLink, LinkRow.toLink_ofLink]
  split
  · rfl
  · split <;> rfl

end Query

end Concierge
