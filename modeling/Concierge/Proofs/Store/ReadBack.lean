import Concierge.Proofs.Store.Keys

/-!
# What is stored is what is read back

A query that writes succeeds exactly if its call is let through and no key stands in its way.  Then
the record is found as it was given, below the account that it was given to and below no other, and
every other row is as before.  A query that fails, and every query that only reads, leaves the tables
alone.

Records pass through the columns of a row on the way in and out.  That nothing is lost or mixed up
there is stated beside the rows; here it is used by way of the functions that the queries call.
-/

namespace Concierge

/-! ## Rows that are found -/

namespace Tables

/-- A row that was added last is found by what no other row matches. -/
theorem find?_append_of_unmatched {α : Type} {p : α → Bool} {rows : List α} {row : α}
    (h : ∀ r ∈ rows, p r = false) : (rows ++ [row]).find? p = if p row then some row else none := by
  have hnone : rows.find? p = none := List.find?_eq_none.2 fun r hr => by simp [h r hr]
  rw [List.find?_append, hnone, Option.none_or, List.find?_singleton]

/-- Adding an account succeeds if it has a host and neither its identifier nor its host is used. -/
theorem addAccount_of_unused {t : Tables} {account : Account} (hhost : account.host ≠ "")
    (hid : ∀ a ∈ t.accounts, a.id ≠ account.id) (hhosts : ∀ a ∈ t.accounts, a.host ≠ account.host) :
    t.addAccount account = .ok (account, { t with accounts := t.accounts ++ [account] }) := by
  have hempty : account.host.isEmpty = false := by simpa using hhost
  have hids : (t.accounts.any fun a => a.id == account.id) = false := by simpa using hid
  have hnames : (t.accounts.any fun a => a.host == account.host) = false := by simpa using hhosts
  simp [addAccount, hempty, hids, hnames]

/-- An account that is added has a host. -/
theorem host_ne_of_addAccount {t : Tables} {account : Account} {answer : Account × Tables}
    (h : t.addAccount account = .ok answer) : account.host ≠ "" := by
  rintro hhost
  simp [addAccount, hhost] at h

/-- Adding a door succeeds if its identifier is unused. -/
theorem addDoor_of_unused {t : Tables} {accountId : Uuid} {door : Door}
    (h : ∀ d ∈ t.doors, d.id ≠ door.id) :
    t.addDoor accountId door =
      .ok ({ door with accountId }, { t with doors := t.doors ++ [{ door with accountId }] }) := by
  have hany : (t.doors.any fun d => d.id == door.id) = false := by simpa using h
  simp [addDoor, hany]

/-- A person who was added is found in their own account alone. -/
theorem person?_added {t : Tables} (person : Person) (h : ∀ p ∈ t.people, p.id ≠ person.id)
    (accountId : Uuid) :
    ({ t with people := t.people ++ [person] } : Tables).person? accountId person.id =
      if accountId = person.accountId then some person else none := by
  rw [person?, find?_append_of_unmatched fun p hp => by simp [h p hp]]
  by_cases haccount : accountId = person.accountId
  · simp [haccount]
  · simp [haccount, Ne.symm haccount]

/-- A door that was added is found in its own account alone. -/
theorem door?_added {t : Tables} (door : Door) (h : ∀ d ∈ t.doors, d.id ≠ door.id)
    (accountId : Uuid) :
    ({ t with doors := t.doors ++ [door] } : Tables).door? accountId door.id =
      if accountId = door.accountId then some door else none := by
  rw [door?, find?_append_of_unmatched fun d hd => by simp [h d hd]]
  by_cases haccount : accountId = door.accountId
  · simp [haccount]
  · simp [haccount, Ne.symm haccount]

/-- A person who was replaced is found in their own account alone. -/
theorem person?_replaced {t : Tables} (person : Person) (h : ∃ p ∈ t.people, p.id = person.id)
    (accountId : Uuid) :
    ({ t with people := t.people.map fun p => if p.id = person.id then person else p } :
        Tables).person? accountId person.id =
      if accountId = person.accountId then some person else none := by
  have hmatch (p : Person) : (((if p.id = person.id then person else p).id == person.id) &&
      ((if p.id = person.id then person else p).accountId == accountId)) =
        ((p.id == person.id) && (person.accountId == accountId)) := by
    by_cases hp : p.id = person.id
    · simp [hp]
    · simp [hp, beq_false_of_ne hp]
  rw [person?, List.find?_map]
  simp only [Function.comp_def, hmatch]
  by_cases haccount : accountId = person.accountId
  · obtain ⟨q, hfound⟩ : ∃ q, t.people.find? (fun p => p.id == person.id) = some q :=
      Option.isSome_iff_exists.1 (by simpa using h)
    have hid : q.id = person.id := by simpa using List.find?_some hfound
    simp [haccount, hfound, hid]
  · simp [haccount, Ne.symm haccount]

/-- Replacing a person rewrites one row in its place, and leaves the rows before and after it. -/
theorem replaced_in_place {t : Tables} (hpeople : (t.people.map (·.id)).Nodup) (person : Person)
    {p : Person} (hp : p ∈ t.people) (hid : p.id = person.id) :
    ∃ before after, t.people = before ++ p :: after ∧
      (t.people.map fun q => if q.id = person.id then person else q) = before ++ person :: after := by
  obtain ⟨before, after, hsplit⟩ := List.append_of_mem hp
  have hapart : ∀ q ∈ before ++ after, q.id ≠ person.id := by
    rw [hsplit, List.map_append, List.map_cons] at hpeople
    intro q hq heq
    have hfirst := (List.nodup_middle.1 hpeople).notMem
    rw [← List.map_append, hid] at hfirst
    exact hfirst (heq ▸ List.mem_map_of_mem hq)
  have hkeep {rows : List Person} (hrows : ∀ q ∈ rows, q ∈ before ++ after) :
      (rows.map fun q => if q.id = person.id then person else q) = rows := by
    refine (List.map_congr_left fun q hq => ?_).trans rows.map_id
    rw [if_neg (hapart q (hrows q hq)), id]
  refine ⟨before, after, hsplit, ?_⟩
  rw [hsplit, List.map_append, List.map_cons, if_pos hid,
    hkeep fun q hq => List.mem_append_left _ hq, hkeep fun q hq => List.mem_append_right _ hq]

/-- The links of an account to a bridge are its rows for that bridge, in their order. -/
theorem map_ofLink_linksTo (t : Tables) (accountId : Uuid) (bridge : Bridge) :
    (t.linksTo accountId bridge).map LinkRow.ofLink = t.links.filter (isLinkTo accountId bridge) := by
  rw [linksTo, List.map_map]
  refine (List.map_congr_left fun row hrow => ?_).trans (List.map_id _)
  have hlink := (List.mem_filter.1 hrow).2
  simp only [isLinkTo, Bool.and_eq_true, beq_iff_eq] at hlink
  simp [LinkRow.ofLink, ← hlink.2]

/-- A link that was added comes last among those of its account to its bridge. -/
theorem linksTo_added (t : Tables) (link : BridgeLink) :
    ({ t with links := t.links ++ [.ofLink link] } : Tables).linksTo link.accountId link.bridge =
      t.linksTo link.accountId link.bridge ++ [link] := by
  simp [linksTo, isLinkTo, LinkRow.ofLink]

end Tables

namespace Query

variable {α β : Type} {s : Store}

/-! ## Queries that read -/

/-- A query that reads: it answers this unless its call is refused, and only the call is counted. -/
def Finds (c : Call) (q : Query α) (s : Store) (a : α) : Prop :=
  q s = (if s.admits c then .ok a else .error c.refusal, s.count c)

theorem finds_call {c : Call} {t : Tables} (f : Tables → α) (ht : s.tables = some t) :
    Finds c (call c fun t => .ok (f t, t)) s (f t) := by
  cases hc : s.admits c with
  | false => simp [Finds, hc, call_of_refused hc]
  | true =>
    rw [Finds, call_of_admitted hc, hc,
      onTables_of_unchanged (a := f t) ((s.count_tables c).trans ht) rfl]
    rfl

/-- A call that only reads leaves the tables alone, with or without an answer. -/
theorem tables_of_reading {c : Call} (f : Tables → α) :
    (call c (fun t => .ok (f t, t)) s).2.tables = s.tables := by
  cases hc : s.admits c with
  | false => rw [call_of_refused hc, s.count_tables]
  | true =>
    rw [call_of_admitted hc, ← s.count_tables c]
    cases ht : (s.count c).tables with
    | none => rw [onTables_of_none ht, ht]
    | some t => rw [onTables_of_unchanged (a := f t) ht rfl, ht]

/-! ## Queries that write -/

/-- A query that writes: it succeeds if and only if it is let through and there are tables that allow
it.  Then it answers this and the tables are changed so; if it fails they stay. -/
structure Writes (q : Query α) (s : Store) (admitted : Bool) (Allowed : Tables → Prop) (answer : α)
    (change : Tables → Tables) : Prop where
  succeeds_iff : (∃ a, (q s).1 = .ok a) ↔ admitted = true ∧ ∃ t, s.tables = some t ∧ Allowed t
  success {a : α} : (q s).1 = .ok a → a = answer ∧ (q s).2.tables = s.tables.map change
  failure {e : ServiceError} : (q s).1 = .error e → (q s).2.tables = s.tables

namespace Writes

variable {q : Query α} {admitted : Bool} {Allowed : Tables → Prop} {answer : α}
  {change : Tables → Tables}

/-- What there was before a write that succeeded, and what there is after it. -/
theorem exists_tables (h : q.Writes s admitted Allowed answer change) (hok : ∃ a, (q s).1 = .ok a) :
    ∃ t, s.tables = some t ∧ Allowed t ∧ (q s).2.tables = some (change t) := by
  obtain ⟨-, t, ht, hallowed⟩ := h.succeeds_iff.1 hok
  obtain ⟨a, ha⟩ := hok
  exact ⟨t, ht, hallowed, by rw [(h.success ha).2, ht, Option.map_some]⟩

theorem congr {q' : Query α} (h : q.Writes s admitted Allowed answer change) (heq : q' s = q s) :
    q'.Writes s admitted Allowed answer change :=
  ⟨heq ▸ h.succeeds_iff, heq ▸ h.success, heq ▸ h.failure⟩

end Writes

section

variable {f : Tables → Except ServiceError (α × Tables)} {Allowed : Tables → Prop} {answer : α}
  {change : Tables → Tables}

/-- A function of the tables that fails if it is not allowed. -/
theorem writes_onTables (hallowed : ∀ t, Allowed t → f t = .ok (answer, change t))
    (hok : ∀ t result, f t = .ok result → Allowed t) :
    (onTables f).Writes s true Allowed answer change := by
  cases ht : s.tables with
  | none =>
    have hrun := onTables_of_none (f := f) ht
    exact ⟨by simp [hrun, ht], by simp [hrun], by simp [hrun]⟩
  | some t =>
    by_cases h : Allowed t
    · have hrun := onTables_of_ok ht (hallowed t h)
      exact ⟨by simp [hrun, ht, h], by simp [hrun, ht, eq_comm], by simp [hrun]⟩
    · obtain ⟨e, he⟩ : ∃ e, f t = .error e := by
        cases hresult : f t with
        | error e => exact ⟨e, rfl⟩
        | ok result => exact absurd (hok t result hresult) h
      have hrun := onTables_of_error ht he
      exact ⟨by simp [hrun, ht, h], by simp [hrun], by simp [hrun]⟩

/-- A call of such a function, which may be refused. -/
theorem writes_call {c : Call} (hallowed : ∀ t, Allowed t → f t = .ok (answer, change t))
    (hok : ∀ t result, f t = .ok result → Allowed t) :
    (call c f).Writes s (s.admits c) Allowed answer change := by
  cases hc : s.admits c with
  | false =>
    have hrun := call_of_refused (f := f) hc
    exact ⟨by simp [hrun], by simp [hrun], by simp [hrun]⟩
  | true =>
    have h : (onTables f).Writes (s.count c) true Allowed answer change := writes_onTables hallowed hok
    refine ⟨?_, ?_, ?_⟩ <;> rw [call_of_admitted hc, ← s.count_tables c]
    · exact h.succeeds_iff
    · exact h.success
    · exact h.failure

end

/-- Without tables no account is added, whatever its host. -/
theorem createAccount_of_none (account : Account) (ht : s.tables = none) :
    ∃ e, createAccount account s = (.error e, s) := by
  have hnone : tables s = (.error noTables, s) := by simp [tables, ht]
  unfold createAccount
  by_cases hempty : account.host.isEmpty
  · simp only [hempty, if_true]
    exact ⟨_, rfl⟩
  · simp only [hempty, if_false, Bool.false_eq_true]
    exact ⟨_, Fallible.bind_of_error hnone⟩

theorem createAccount_writes (s : Store) (account : Account) :
    (createAccount account).Writes s true
      (fun t => account.host ≠ "" ∧ (∀ a ∈ t.accounts, a.id ≠ account.id) ∧
        ∀ a ∈ t.accounts, a.host ≠ account.host)
      account (fun t => { t with accounts := t.accounts ++ [account] }) := by
  cases ht : s.tables with
  | none =>
    obtain ⟨e, hrun⟩ := createAccount_of_none account ht
    exact ⟨by simp [hrun, ht], by simp [hrun], by simp [hrun]⟩
  | some t =>
    refine (writes_onTables (fun t h => Tables.addAccount_of_unused h.1 h.2.1 h.2.2)
      fun t result h => ?_).congr (createAccount_eq_onTables account ht)
    obtain ⟨hid, hhost, -⟩ := Tables.addAccount_ok h
    exact ⟨Tables.host_ne_of_addAccount h, hid, hhost⟩

theorem createPerson_writes (s : Store) (accountId : Uuid) (person : Person) :
    (createPerson accountId person).Writes s (s.admits .createPerson)
      (fun t => ∀ p ∈ t.people, p.id ≠ person.id)
      { person with accountId }
      (fun t => { t with people := t.people ++ [{ person with accountId }] }) := by
  rw [createPerson_eq_call]
  exact writes_call (fun _ => Tables.addPerson_of_unused) fun _ _ h => (Tables.addPerson_ok h).1

theorem updatePerson_writes (s : Store) (accountId : Uuid) (person : Person) :
    (updatePerson accountId person).Writes s (s.admits .updatePerson)
      (fun t => ∃ p ∈ t.people, p.id = person.id ∧ p.accountId = accountId)
      { person with accountId }
      (fun t => { t with people := t.people.map fun p =>
        if p.id = person.id then { person with accountId } else p }) := by
  rw [updatePerson_eq_call]
  refine writes_call (fun t h => ?_) fun _ _ h => (Tables.replacePerson_ok h).1
  obtain ⟨p, hp, hid, haccount⟩ := h
  exact Tables.replacePerson_of_mem hp hid haccount

theorem createDoor_writes (s : Store) (accountId : Uuid) (door : Door) :
    (createDoor accountId door).Writes s true
      (fun t => ∀ d ∈ t.doors, d.id ≠ door.id)
      { door with accountId }
      (fun t => { t with doors := t.doors ++ [{ door with accountId }] }) := by
  rw [createDoor_eq_onTables]
  exact writes_onTables (fun _ => Tables.addDoor_of_unused) fun _ _ h => (Tables.addDoor_ok h).1

theorem createLink_writes (s : Store) (accountId : Uuid) (link : BridgeLink) :
    (createLink accountId link).Writes s (s.admits .createLink)
      (fun t => (∀ row ∈ t.links, row.id ≠ link.id) ∧
        ∀ row ∈ t.links, Tables.linkKey row ≠ (accountId, link.bridge.id, link.externalId))
      { link with accountId }
      (fun t => { t with links := t.links ++ [.ofLink { link with accountId }] }) := by
  rw [createLink_eq_call]
  refine writes_call (fun _ h => Tables.addLink_of_unused h.1 h.2) fun _ _ h => ?_
  obtain ⟨hid, hkey, -⟩ := Tables.addLink_ok h
  exact ⟨hid, hkey⟩

/-! ## Reading after writing -/

/-- An account that was added is found by its identifier and by its host. -/
theorem account_found (account : Account) (hok : ∃ a, (createAccount account s).1 = .ok a) :
    (findAccount account.id).Finds .findAccount (createAccount account s).2 (some account) ∧
      (findAccountByHost account.host).Finds .findAccountByHost (createAccount account s).2
        (some account) := by
  obtain ⟨t, -, ⟨-, hid, hhost⟩, hafter⟩ := (createAccount_writes s account).exists_tables hok
  have hbyId : (t.accounts ++ [account]).find? (fun a => a.id == account.id) = some account := by
    rw [Tables.find?_append_of_unmatched fun a ha => by simp [hid a ha]]
    simp
  have hbyHost : (t.accounts ++ [account]).find? (fun a => a.host == account.host) = some account := by
    rw [Tables.find?_append_of_unmatched fun a ha => by simp [hhost a ha]]
    simp
  refine ⟨?_, ?_⟩
  · rw [findAccount_eq_call, ← hbyId]
    exact finds_call (fun t => t.accounts.find? _) hafter
  · rw [findAccountByHost_eq_call, ← hbyHost]
    exact finds_call (fun t => t.accounts.find? _) hafter

/-- A person who was added or replaced is found in the account, and in no other. -/
theorem person_found (accountId : Uuid) (person : Person) :
    ∀ q ∈ [createPerson accountId person, updatePerson accountId person],
      (∃ a, (q s).1 = .ok a) → ∀ otherId, (findPerson otherId person.id).Finds .findPerson (q s).2
        (if otherId = accountId then some { person with accountId } else none) := by
  have hadded (hok : ∃ a, (createPerson accountId person s).1 = .ok a) (otherId : Uuid) :
      (findPerson otherId person.id).Finds .findPerson (createPerson accountId person s).2
        (if otherId = accountId then some { person with accountId } else none) := by
    obtain ⟨t, -, hunused, hafter⟩ := (createPerson_writes s accountId person).exists_tables hok
    rw [findPerson_eq_call, ← Tables.person?_added { person with accountId } hunused]
    exact finds_call (fun t => t.person? _ _) hafter
  have hreplaced (hok : ∃ a, (updatePerson accountId person s).1 = .ok a) (otherId : Uuid) :
      (findPerson otherId person.id).Finds .findPerson (updatePerson accountId person s).2
        (if otherId = accountId then some { person with accountId } else none) := by
    obtain ⟨t, -, ⟨p, hp, hid, -⟩, hafter⟩ := (updatePerson_writes s accountId person).exists_tables hok
    rw [findPerson_eq_call, ← Tables.person?_replaced { person with accountId } ⟨p, hp, hid⟩]
    exact finds_call (fun t => t.person? _ _) hafter
  exact List.forall_mem_cons.2 ⟨hadded, List.forall_mem_singleton.2 hreplaced⟩

/-- A door that was added is found in the account, and in no other. -/
theorem door_found (accountId : Uuid) (door : Door)
    (hok : ∃ d, (createDoor accountId door s).1 = .ok d) (otherId : Uuid) :
    (findDoor otherId door.id).Finds .findDoor (createDoor accountId door s).2
      (if otherId = accountId then some { door with accountId } else none) := by
  obtain ⟨t, -, hunused, hafter⟩ := (createDoor_writes s accountId door).exists_tables hok
  rw [findDoor_eq_call, ← Tables.door?_added { door with accountId } hunused]
  exact finds_call (fun t => t.door? _ _) hafter

theorem links_found {t : Tables} (ht : s.tables = some t) (accountId : Uuid) (bridge : Bridge) :
    (findLinks accountId bridge).Finds .findLinks s (t.linksTo accountId bridge) := by
  rw [findLinks_eq_call]
  exact finds_call (fun t => t.linksTo _ _) ht

/-- A link that was added is found after those that were there. -/
theorem link_found {t : Tables} (ht : s.tables = some t) (accountId : Uuid) (link : BridgeLink)
    (hok : ∃ l, (createLink accountId link s).1 = .ok l) :
    (findLinks accountId link.bridge).Finds .findLinks (createLink accountId link s).2
      (t.linksTo accountId link.bridge ++ [{ link with accountId }]) := by
  obtain ⟨t', ht', -, hafter⟩ := (createLink_writes s accountId link).exists_tables hok
  obtain rfl := Option.some.inj (ht.symm.trans ht')
  rw [← Tables.linksTo_added t { link with accountId }]
  exact links_found hafter accountId link.bridge

/-- Replacing a person who is found rewrites one row in its place. -/
theorem person_replaced {t : Tables} (ht : s.tables = some t) (hkeyed : t.Keyed) (accountId : Uuid)
    (person : Person) (hok : ∃ a, (updatePerson accountId person s).1 = .ok a) :
    ∃ before p after, t.people = before ++ p :: after ∧ p.id = person.id ∧ p.accountId = accountId ∧
      (updatePerson accountId person s).2.tables =
        some { t with people := before ++ { person with accountId } :: after } := by
  obtain ⟨t', ht', ⟨p, hp, hid, haccount⟩, hafter⟩ :=
    (updatePerson_writes s accountId person).exists_tables hok
  obtain rfl := Option.some.inj (ht.symm.trans ht')
  obtain ⟨before, after, hsplit, hmap⟩ :=
    Tables.replaced_in_place hkeyed.people { person with accountId } hp hid
  exact ⟨before, p, after, hsplit, hid, haccount, hafter.trans (by simp only [hmap])⟩

/-- Queries that read leave the tables alone, with or without an answer. -/
theorem reading_leaves_tables (s : Store) :
    (∀ id, (findAccount id s).2.tables = s.tables) ∧
    (∀ host, (findAccountByHost host s).2.tables = s.tables) ∧
    (∀ accountId id, (findPerson accountId id s).2.tables = s.tables) ∧
    (∀ accountId id, (findDoor accountId id s).2.tables = s.tables) ∧
    ∀ accountId bridge, (findLinks accountId bridge s).2.tables = s.tables := by
  refine ⟨fun id => ?_, fun host => ?_, fun accountId id => ?_, fun accountId id => ?_,
    fun accountId bridge => ?_⟩
  · rw [findAccount_eq_call, tables_of_reading fun t => t.accounts.find? _]
  · rw [findAccountByHost_eq_call, tables_of_reading fun t => t.accounts.find? _]
  · rw [findPerson_eq_call, tables_of_reading fun t => t.person? _ _]
  · rw [findDoor_eq_call, tables_of_reading fun t => t.door? _ _]
  · rw [findLinks_eq_call, tables_of_reading fun t => t.linksTo _ _]

/-- What is stored is what is read back.

Accounts are added if and only if they have a host and neither their identifier nor their host is used,
and are then found by both.  People and doors are added if and only if their identifier is unused, and
people are replaced if and only if the account has them; they are then found in that account, as
theirs, and in no other.  Links are added if and only if their identifier and their key are unused.
Loading the links of an account to a bridge never fails on account of a row: it gives exactly the
account's rows for that bridge, in their order, and a link that was added comes last. -/
theorem stored_is_read_back (s : Store) :
    (∀ account : Account,
      (createAccount account).Writes s true
        (fun t => account.host ≠ "" ∧ (∀ a ∈ t.accounts, a.id ≠ account.id) ∧
          ∀ a ∈ t.accounts, a.host ≠ account.host)
        account (fun t => { t with accounts := t.accounts ++ [account] }) ∧
      ((∃ a, (createAccount account s).1 = .ok a) →
        (findAccount account.id).Finds .findAccount (createAccount account s).2 (some account) ∧
        (findAccountByHost account.host).Finds .findAccountByHost (createAccount account s).2
          (some account))) ∧
    (∀ (accountId : Uuid) (person : Person),
      (createPerson accountId person).Writes s (s.admits .createPerson)
        (fun t => ∀ p ∈ t.people, p.id ≠ person.id) { person with accountId }
        (fun t => { t with people := t.people ++ [{ person with accountId }] }) ∧
      (updatePerson accountId person).Writes s (s.admits .updatePerson)
        (fun t => ∃ p ∈ t.people, p.id = person.id ∧ p.accountId = accountId) { person with accountId }
        (fun t => { t with people := t.people.map fun p =>
          if p.id = person.id then { person with accountId } else p }) ∧
      (∀ q ∈ [createPerson accountId person, updatePerson accountId person],
        (∃ a, (q s).1 = .ok a) → ∀ otherId, (findPerson otherId person.id).Finds .findPerson (q s).2
          (if otherId = accountId then some { person with accountId } else none)) ∧
      ∀ t, s.tables = some t → t.Keyed → (∃ a, (updatePerson accountId person s).1 = .ok a) →
        ∃ before p after, t.people = before ++ p :: after ∧ p.id = person.id ∧
          p.accountId = accountId ∧ (updatePerson accountId person s).2.tables =
            some { t with people := before ++ { person with accountId } :: after }) ∧
    (∀ (accountId : Uuid) (door : Door),
      (createDoor accountId door).Writes s true
        (fun t => ∀ d ∈ t.doors, d.id ≠ door.id) { door with accountId }
        (fun t => { t with doors := t.doors ++ [{ door with accountId }] }) ∧
      ((∃ d, (createDoor accountId door s).1 = .ok d) → ∀ otherId,
        (findDoor otherId door.id).Finds .findDoor (createDoor accountId door s).2
          (if otherId = accountId then some { door with accountId } else none))) ∧
    (∀ (accountId : Uuid) (link : BridgeLink),
      (createLink accountId link).Writes s (s.admits .createLink)
        (fun t => (∀ row ∈ t.links, row.id ≠ link.id) ∧
          ∀ row ∈ t.links, Tables.linkKey row ≠ (accountId, link.bridge.id, link.externalId))
        { link with accountId }
        (fun t => { t with links := t.links ++ [.ofLink { link with accountId }] })) ∧
    (∀ t, s.tables = some t → ∀ (accountId : Uuid) (bridge : Bridge), ∃ links : List BridgeLink,
      links.map .ofLink =
        t.links.filter (fun row => row.accountId == accountId && row.bridgeId == bridge.id) ∧
      (findLinks accountId bridge).Finds .findLinks s links ∧
      ∀ link : BridgeLink, link.bridge = bridge → (∃ l, (createLink accountId link s).1 = .ok l) →
        (findLinks accountId bridge).Finds .findLinks (createLink accountId link s).2
          (links ++ [{ link with accountId }])) ∧
    (∀ id, (findAccount id s).2.tables = s.tables) ∧
    (∀ host, (findAccountByHost host s).2.tables = s.tables) ∧
    (∀ accountId id, (findPerson accountId id s).2.tables = s.tables) ∧
    (∀ accountId id, (findDoor accountId id s).2.tables = s.tables) ∧
    ∀ accountId bridge, (findLinks accountId bridge s).2.tables = s.tables := by
  refine ⟨fun account => ⟨createAccount_writes s account, account_found account⟩,
    fun accountId person => ⟨createPerson_writes s accountId person,
      updatePerson_writes s accountId person, person_found accountId person,
      fun t ht hkeyed => person_replaced ht hkeyed accountId person⟩,
    fun accountId door => ⟨createDoor_writes s accountId door, door_found accountId door⟩,
    fun accountId link => createLink_writes s accountId link,
    fun t ht accountId bridge => ⟨t.linksTo accountId bridge, ?_, ?_, ?_⟩,
    reading_leaves_tables s⟩
  · exact t.map_ofLink_linksTo accountId bridge
  · exact links_found ht accountId bridge
  · rintro link rfl hok
    exact link_found ht accountId link hok

end Query

end Concierge
