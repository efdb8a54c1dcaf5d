import Concierge.Proofs.Store.Calls
import Mathlib.Data.List.Nodup

/-!
# Unique keys

The storage keeps every identifier unique within its table, and so the host names of accounts and
the external ids of an account's links to one bridge.  Adding and replacing rows preserve this, and
so does every query that is put together from calls.
-/

namespace Concierge

namespace Tables

/-- The key of a link besides its identifier. -/
def linkKey (row : LinkRow) : Uuid × Int × String := (row.accountId, row.bridgeId, row.externalId)

/-- The unique keys that the storage enforces. -/
structure Keyed (t : Tables) : Prop where
  accounts : (t.accounts.map (·.id)).Nodup
  hosts : (t.accounts.map (·.host)).Nodup
  people : (t.people.map (·.id)).Nodup
  doors : (t.doors.map (·.id)).Nodup
  links : (t.links.map (·.id)).Nodup
  linkKeys : (t.links.map linkKey).Nodup

/-- Two people with one identifier are the same row. -/
theorem eq_of_people_nodup {t : Tables} (h : (t.people.map (·.id)).Nodup) {p q : Person}
    (hp : p ∈ t.people) (hq : q ∈ t.people) (hid : p.id = q.id) : p = q :=
  List.inj_on_of_nodup_map h hp hq hid

/-- The row of an account is found by any key that no other row has. -/
theorem find?_account {κ : Type} [BEq κ] [LawfulBEq κ] {key : Account → κ} {accounts : List Account}
    {account : Account} (hkey : (accounts.map key).Nodup) (hmem : account ∈ accounts) :
    accounts.find? (fun a => key a == key account) = some account := by
  cases hfind : accounts.find? fun a => key a == key account with
  | none => simpa using List.find?_eq_none.1 hfind account hmem
  | some a =>
    have hsame : key a = key account := by simpa using List.find?_some hfind
    rw [List.inj_on_of_nodup_map hkey (List.mem_of_find?_eq_some hfind) hmem hsame]

/-- A person that is found has the identifiers that were asked for. -/
theorem mem_of_person? {t : Tables} {accountId id : Uuid} {p : Person}
    (h : t.person? accountId id = some p) : p ∈ t.people ∧ p.id = id ∧ p.accountId = accountId := by
  have hfound := List.find?_some h
  simp only [Bool.and_eq_true, beq_iff_eq] at hfound
  exact ⟨List.mem_of_find?_eq_some h, hfound⟩

/-- A door that is found has the identifiers that were asked for. -/
theorem mem_of_door? {t : Tables} {accountId id : Uuid} {d : Door}
    (h : t.door? accountId id = some d) : d ∈ t.doors ∧ d.id = id ∧ d.accountId = accountId := by
  have hfound := List.find?_some h
  simp only [Bool.and_eq_true, beq_iff_eq] at hfound
  exact ⟨List.mem_of_find?_eq_some h, hfound⟩

/-- A person of the account is found. -/
theorem person?_of_mem {t : Tables} (hpeople : (t.people.map (·.id)).Nodup) {p : Person}
    (hp : p ∈ t.people) : t.person? p.accountId p.id = some p := by
  cases hfind : t.person? p.accountId p.id with
  | none =>
    have hnone := List.find?_eq_none.1 hfind p hp
    simp at hnone
  | some q =>
    obtain ⟨hq, hid, -⟩ := mem_of_person? hfind
    rw [eq_of_people_nodup hpeople hq hp hid]

/-- Links are loaded as they are stored. -/
theorem mem_linksTo {t : Tables} {accountId : Uuid} {bridge : Bridge} {link : BridgeLink} :
    link ∈ t.linksTo accountId bridge ↔
      link.bridge = bridge ∧ link.accountId = accountId ∧ .ofLink link ∈ t.links := by
  simp only [linksTo, List.mem_map, List.mem_filter, isLinkTo, Bool.and_eq_true, beq_iff_eq]
  constructor
  · rintro ⟨row, ⟨hrow, haccount, hid⟩, rfl⟩
    refine ⟨rfl, haccount, ?_⟩
    rw [LinkRow.ofLink, ← hid]
    exact hrow
  · rintro ⟨rfl, haccount, hrow⟩
    exact ⟨.ofLink link, ⟨hrow, haccount, rfl⟩, rfl⟩

/-- What adding an account does, if it succeeds. -/
theorem addAccount_ok {t t' : Tables} {account added : Account}
    (h : t.addAccount account = .ok (added, t')) :
    (∀ a ∈ t.accounts, a.id ≠ account.id) ∧ (∀ a ∈ t.accounts, a.host ≠ account.host) ∧
      added = account ∧ t' = { t with accounts := t.accounts ++ [account] } := by
  unfold addAccount at h
  split at h
  · contradiction
  · split at h
    · contradiction
    · rename_i hids
      split at h
      · contradiction
      · rename_i hhosts
        simp only [Except.ok.injEq, Prod.mk.injEq] at h
        obtain ⟨rfl, rfl⟩ := h
        exact ⟨by simpa using hids, by simpa using hhosts, rfl, rfl⟩

/-- What adding a door does, if it succeeds. -/
theorem addDoor_ok {t t' : Tables} {accountId : Uuid} {door added : Door}
    (h : t.addDoor accountId door = .ok (added, t')) :
    (∀ d ∈ t.doors, d.id ≠ door.id) ∧ added = { door with accountId } ∧
      t' = { t with doors := t.doors ++ [added] } := by
  unfold addDoor at h
  split at h
  · contradiction
  · rename_i hany
    simp only [Except.ok.injEq, Prod.mk.injEq] at h
    obtain ⟨rfl, rfl⟩ := h
    exact ⟨by simpa using hany, rfl, rfl⟩

/-- Adding a person succeeds exactly if the identifier is unused. -/
theorem addPerson_of_unused {t : Tables} {accountId : Uuid} {person : Person}
    (h : ∀ p ∈ t.people, p.id ≠ person.id) :
    t.addPerson accountId person =
      .ok ({ person with accountId }, { t with people := t.people ++ [{ person with accountId }] }) := by
  have hany : (t.people.any fun p => p.id == person.id) = false := by simpa using h
  simp [addPerson, hany]

/-- What adding a person does, if it succeeds. -/
theorem addPerson_ok {t t' : Tables} {accountId : Uuid} {person added : Person}
    (h : t.addPerson accountId person = .ok (added, t')) :
    (∀ p ∈ t.people, p.id ≠ person.id) ∧ added = { person with accountId } ∧
      t' = { t with people := t.people ++ [added] } := by
  unfold addPerson at h
  split at h
  · contradiction
  · rename_i hany
    simp only [Except.ok.injEq, Prod.mk.injEq] at h
    obtain ⟨rfl, rfl⟩ := h
    exact ⟨by simpa using hany, rfl, rfl⟩

/-- Adding a person fails in the storage's words. -/
theorem addPerson_error {t : Tables} {accountId : Uuid} {person : Person} {e : ServiceError}
    (h : t.addPerson accountId person = .error e) : ∃ reason, e = .database reason := by
  unfold addPerson at h
  split at h
  · cases h
    exact ⟨_, rfl⟩
  · cases h

/-- Replacing a person succeeds if the account has them. -/
theorem replacePerson_of_mem {t : Tables} {accountId : Uuid} {person p : Person}
    (hp : p ∈ t.people) (hid : p.id = person.id) (haccount : p.accountId = accountId) :
    t.replacePerson accountId person = .ok ({ person with accountId },
      { t with people := t.people.map fun p =>
          if p.id = person.id then { person with accountId } else p }) := by
  have hany : (t.people.any fun p => p.id == person.id && p.accountId == accountId) = true := by
    simpa using ⟨p, hp, hid, haccount⟩
  rw [replacePerson, if_pos hany]

/-- What replacing a person does, if it succeeds. -/
theorem replacePerson_ok {t t' : Tables} {accountId : Uuid} {person updated : Person}
    (h : t.replacePerson accountId person = .ok (updated, t')) :
    (∃ p ∈ t.people, p.id = person.id ∧ p.accountId = accountId) ∧
      updated = { person with accountId } ∧
      t' = { t with people := t.people.map fun p => if p.id = person.id then updated else p } := by
  unfold replacePerson at h
  split at h
  · rename_i hany
    simp only [Except.ok.injEq, Prod.mk.injEq] at h
    obtain ⟨rfl, rfl⟩ := h
    exact ⟨by simpa using hany, rfl, rfl⟩
  · contradiction

/-- Adding a link succeeds if its identifier and its key are unused. -/
theorem addLink_of_unused {t : Tables} {accountId : Uuid} {link : BridgeLink}
    (hid : ∀ row ∈ t.links, row.id ≠ link.id)
    (hkey : ∀ row ∈ t.links, linkKey row ≠ (accountId, link.bridge.id, link.externalId)) :
    t.addLink accountId link =
      .ok ({ link with accountId }, { t with links := t.links ++ [.ofLink { link with accountId }] }) := by
  have hids : (t.links.any fun l => l.id == link.id) = false := by simpa using hid
  have hkeys : (t.links.any fun l => l.accountId == accountId && l.bridgeId == link.bridge.id &&
      l.externalId == link.externalId) = false := by
    simpa [linkKey, and_assoc] using hkey
  simp [addLink, hids, hkeys]

/-- What adding a link does, if it succeeds. -/
theorem addLink_ok {t t' : Tables} {accountId : Uuid} {link added : BridgeLink}
    (h : t.addLink accountId link = .ok (added, t')) :
    (∀ row ∈ t.links, row.id ≠ link.id) ∧
      (∀ row ∈ t.links, linkKey row ≠ (accountId, link.bridge.id, link.externalId)) ∧
      added = { link with accountId } ∧ t' = { t with links := t.links ++ [.ofLink added] } := by
  unfold addLink at h
  split at h
  · contradiction
  · rename_i hids
    split at h
    · contradiction
    · rename_i hkeys
      simp only [Except.ok.injEq, Prod.mk.injEq] at h
      obtain ⟨rfl, rfl⟩ := h
      exact ⟨by simpa using hids, by simpa [linkKey, and_assoc] using hkeys, rfl, rfl⟩

/-- Adding a link fails in the storage's words. -/
theorem addLink_error {t : Tables} {accountId : Uuid} {link : BridgeLink} {e : ServiceError}
    (h : t.addLink accountId link = .error e) : ∃ reason, e = .database reason := by
  unfold addLink at h
  split at h
  · cases h
    exact ⟨_, rfl⟩
  · split at h
    · cases h
      exact ⟨_, rfl⟩
    · cases h

/-- A row whose key no other row has may be added. -/
theorem nodup_append_singleton {α β : Type} {key : α → β} {rows : List α} {row : α}
    (h : (rows.map key).Nodup) (hrow : ∀ r ∈ rows, key r ≠ key row) :
    ((rows ++ [row]).map key).Nodup := by
  rw [List.map_append, List.map_singleton, List.nodup_append]
  refine ⟨h, List.nodup_singleton _, ?_⟩
  intro a ha b hb
  obtain ⟨r, hr, rfl⟩ := List.mem_map.1 ha
  rw [List.mem_singleton.1 hb]
  exact hrow r hr

/-- Rewriting rows without touching their keys keeps the keys. -/
theorem map_key_map {α β : Type} {key : α → β} {rewrite : α → α} {rows : List α}
    (h : ∀ row ∈ rows, key (rewrite row) = key row) :
    (rows.map rewrite).map key = rows.map key := by
  rw [List.map_map]
  exact List.map_congr_left h

theorem Keyed.addAccount {t t' : Tables} {account added : Account} (hk : t.Keyed)
    (h : t.addAccount account = .ok (added, t')) : t'.Keyed := by
  obtain ⟨hids, hhosts, rfl, rfl⟩ := addAccount_ok h
  exact { hk with
    accounts := nodup_append_singleton hk.accounts hids
    hosts := nodup_append_singleton hk.hosts hhosts }

theorem Keyed.addDoor {t t' : Tables} {accountId : Uuid} {door added : Door} (hk : t.Keyed)
    (h : t.addDoor accountId door = .ok (added, t')) : t'.Keyed := by
  obtain ⟨hunused, rfl, rfl⟩ := addDoor_ok h
  exact { hk with doors := nodup_append_singleton hk.doors hunused }

theorem Keyed.addPerson {t t' : Tables} {accountId : Uuid} {person added : Person} (hk : t.Keyed)
    (h : t.addPerson accountId person = .ok (added, t')) : t'.Keyed := by
  obtain ⟨hunused, rfl, rfl⟩ := addPerson_ok h
  exact { hk with people := nodup_append_singleton hk.people hunused }

theorem Keyed.replacePerson {t t' : Tables} {accountId : Uuid} {person updated : Person}
    (hk : t.Keyed) (h : t.replacePerson accountId person = .ok (updated, t')) : t'.Keyed := by
  obtain ⟨-, rfl, rfl⟩ := replacePerson_ok h
  have hids : ((t.people.map fun p =>
      if p.id = person.id then { person with accountId } else p).map (·.id)) =
        t.people.map (·.id) := by
    apply map_key_map
    intro p _
    by_cases hp : p.id = person.id <;> simp [hp]
  exact { hk with people := hids ▸ hk.people }

theorem Keyed.addLink {t t' : Tables} {accountId : Uuid} {link added : BridgeLink} (hk : t.Keyed)
    (h : t.addLink accountId link = .ok (added, t')) : t'.Keyed := by
  obtain ⟨hids, hkeys, rfl, rfl⟩ := addLink_ok h
  exact { hk with
    links := nodup_append_singleton hk.links hids
    linkKeys := nodup_append_singleton hk.linkKeys hkeys }

end Tables

namespace Query

open Fallible

variable {α β : Type} {P : Tables → Prop}

/-- A query keeps what holds of the tables, whether it succeeds or fails. -/
def Keeps (P : Tables → Prop) (q : Query α) : Prop :=
  ∀ s, (∀ t, s.tables = some t → P t) → ∀ t, (q s).2.tables = some t → P t

theorem keeps_pure (a : α) : Keeps P (pure a : Query α) := fun _ h => h

theorem keeps_throw (e : ServiceError) : Keeps P (throw e : Query α) := fun _ h => h

theorem keeps_fresh : Keeps P fresh := fun _ h => h

/-- One part after the other keeps what both keep. -/
theorem keeps_bind {q : Query α} {f : α → Query β} (hq : Keeps P q) (hf : ∀ a, Keeps P (f a)) :
    Keeps P (q >>= f) := by
  intro s hs
  have hmid := hq s hs
  cases hresult : q s with
  | mk result s' =>
    rw [hresult] at hmid
    cases result with
    | ok a =>
      rw [bind_of_ok hresult]
      exact hf a s' hmid
    | error e =>
      rw [bind_of_error hresult]
      exact hmid

/-- A call keeps what its function keeps. -/
theorem keeps_call {c : Call} {f : Tables → Except ServiceError (α × Tables)}
    (hf : ∀ t a t', P t → f t = .ok (a, t') → P t') : Keeps P (call c f) := by
  intro s hs
  cases hc : s.admits c with
  | false =>
    rw [call_of_refused hc, Store.count_tables]
    exact hs
  | true =>
    rw [call_of_admitted hc]
    rw [← Store.count_tables s c] at hs
    cases ht : (s.count c).tables with
    | none =>
      rw [onTables_of_none ht]
      exact hs
    | some t =>
      cases hft : f t with
      | error e =>
        rw [onTables_of_error ht hft]
        exact hs
      | ok answer =>
        intro t' ht'
        rw [onTables_of_ok ht hft] at ht'
        cases ht'
        exact hf t answer.1 answer.2 (hs t ht) hft

theorem findPerson_keeps (accountId id : Uuid) : Keeps P (findPerson accountId id) := by
  rw [findPerson_eq_call]
  refine keeps_call fun t _ _ ht hfind => ?_
  cases hfind
  exact ht

theorem createPerson_keeps_keyed (accountId : Uuid) (person : Person) :
    Keeps Tables.Keyed (createPerson accountId person) := by
  rw [createPerson_eq_call]
  exact keeps_call fun _ _ _ hkeyed hadd => hkeyed.addPerson hadd

theorem updatePerson_keeps_keyed (accountId : Uuid) (person : Person) :
    Keeps Tables.Keyed (updatePerson accountId person) := by
  rw [updatePerson_eq_call]
  exact keeps_call fun _ _ _ hkeyed hreplace => hkeyed.replacePerson hreplace

theorem createLink_keeps_keyed (accountId : Uuid) (link : BridgeLink) :
    Keeps Tables.Keyed (createLink accountId link) := by
  rw [createLink_eq_call]
  exact keeps_call fun _ _ _ hkeyed hadd => hkeyed.addLink hadd

end Query

end Concierge
