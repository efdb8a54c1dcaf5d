import Concierge.Proofs.Store.Keys

/-!
# The rows of one account

Tables are split into the rows of one account and those of all others.  Whatever is done for the
account can be done on its own rows alone: lookups find the same there, and writing changes nothing
beside them, as long as new identifiers are not taken by others.
-/

namespace Concierge

namespace Tables

/-- The rows of the accounts whose identifiers are kept. -/
def part (t : Tables) (keep : Uuid → Bool) : Tables where
  accounts := t.accounts.filter fun a => keep a.id
  people := t.people.filter fun p => keep p.accountId
  doors := t.doors.filter fun d => keep d.accountId
  links := t.links.filter fun row => keep row.accountId

/-- The rows of an account. -/
def only (t : Tables) (accountId : Uuid) : Tables := t.part (· == accountId)

/-- The rows of all other accounts. -/
def others (t : Tables) (accountId : Uuid) : Tables := t.part (· != accountId)

/-- No person and no link has an identifier. -/
structure Unused (t : Tables) (id : Uuid) : Prop where
  people : ∀ p ∈ t.people, p.id ≠ id
  links : ∀ row ∈ t.links, row.id ≠ id

/-- A part of rows with unique keys has unique keys. -/
theorem Keyed.part {t : Tables} (h : t.Keyed) (keep : Uuid → Bool) : (t.part keep).Keyed where
  accounts := h.accounts.sublist (List.filter_sublist.map _)
  hosts := h.hosts.sublist (List.filter_sublist.map _)
  people := h.people.sublist (List.filter_sublist.map _)
  doors := h.doors.sublist (List.filter_sublist.map _)
  links := h.links.sublist (List.filter_sublist.map _)
  linkKeys := h.linkKeys.sublist (List.filter_sublist.map _)

/-! ## Lookups -/

@[simp] theorem person?_only (t : Tables) (accountId id : Uuid) :
    (t.only accountId).person? accountId id = t.person? accountId id := by
  rw [person?, person?, only, part, List.find?_filter]
  congr 1
  funext p
  cases h : p.accountId == accountId <;> simp [BEq.beq]

@[simp] theorem door?_only (t : Tables) (accountId id : Uuid) :
    (t.only accountId).door? accountId id = t.door? accountId id := by
  rw [door?, door?, only, part, List.find?_filter]
  congr 1
  funext d
  cases h : d.accountId == accountId <;> simp [BEq.beq]

@[simp] theorem linksTo_only (t : Tables) (accountId : Uuid) (bridge : Bridge) :
    (t.only accountId).linksTo accountId bridge = t.linksTo accountId bridge := by
  rw [linksTo, linksTo, only, part, List.filter_filter]
  congr 2
  funext row
  cases h : row.accountId == accountId <;> simp [isLinkTo, h]

/-- The row of an account is one of its rows. -/
theorem mem_only_accounts {t : Tables} {account : Account} (h : account ∈ t.accounts) :
    account ∈ (t.only account.id).accounts :=
  List.mem_filter.2 ⟨h, by simp⟩

/-! ## Writing -/

/-- What is done for an account is done on its own rows, and leaves the rows of all others and the
accounts as they are. -/
structure Within {α : Type} (accountId : Uuid) (f : Tables → Except ServiceError (α × Tables))
    (t : Tables) : Prop where
  fails : ∀ e, f t = .error e → f (t.only accountId) = .error e
  succeeds : ∀ a t', f t = .ok (a, t') → f (t.only accountId) = .ok (a, t'.only accountId)
  others : ∀ a t', f t = .ok (a, t') → t'.others accountId = t.others accountId
  accounts : ∀ a t', f t = .ok (a, t') → t'.accounts = t.accounts

/-- Reading what is the same on the account's rows. -/
theorem within_of_reading {α : Type} {accountId : Uuid} {read : Tables → α} {t : Tables}
    (h : read (t.only accountId) = read t) :
    Within accountId (fun t => .ok (read t, t)) t where
  fails e he := by cases he
  succeeds a t' hread := by
    cases hread
    rw [h]
  others a t' hread := by
    cases hread
    rfl
  accounts a t' hread := by
    cases hread
    rfl

/-- Among rows of which no other account's meets a condition, the account's rows decide it. -/
theorem any_filter_of_others {β : Type} {rows : List β} {accountOf : β → Uuid} {accountId : Uuid}
    {meets : β → Bool} (h : ∀ row ∈ rows.filter (fun row => accountOf row != accountId),
      meets row = false) :
    (rows.filter fun row => accountOf row == accountId).any meets = rows.any meets := by
  rw [Bool.eq_iff_iff, List.any_eq_true, List.any_eq_true]
  constructor
  · rintro ⟨row, hrow, hmeets⟩
    exact ⟨row, (List.mem_filter.1 hrow).1, hmeets⟩
  · rintro ⟨row, hrow, hmeets⟩
    refine ⟨row, List.mem_filter.2 ⟨hrow, ?_⟩, hmeets⟩
    by_contra hother
    have hout : row ∈ rows.filter fun row => accountOf row != accountId :=
      List.mem_filter.2 ⟨hrow, by simpa using hother⟩
    rw [h row hout] at hmeets
    contradiction

/-- Rewriting rows without moving them to another account. -/
theorem filter_map_of_same {β : Type} {rows : List β} {rewrite : β → β} (keep : β → Bool)
    (h : ∀ row ∈ rows, keep (rewrite row) = keep row) :
    (rows.map rewrite).filter keep = (rows.filter keep).map rewrite := by
  rw [List.filter_map]
  congr 1
  exact List.filter_congr h

theorem addPerson_within {t : Tables} {accountId : Uuid} {person : Person}
    (h : (t.others accountId).Unused person.id) :
    Within accountId (·.addPerson accountId person) t where
  fails e he := by
    have hany : ((t.only accountId).people.any fun p => p.id == person.id) =
        t.people.any fun p => p.id == person.id :=
      any_filter_of_others fun p hp => by simpa using h.people p hp
    simp only [addPerson, hany] at he ⊢
    split at he
    · rw [if_pos ‹_›]
      cases he
      rfl
    · cases he
  succeeds a t' hadd := by
    obtain ⟨hunused, rfl, rfl⟩ := addPerson_ok hadd
    rw [addPerson_of_unused fun p hp => hunused p (List.mem_filter.1 hp).1]
    simp [only, part]
  others a t' hadd := by
    obtain ⟨-, rfl, rfl⟩ := addPerson_ok hadd
    simp [others, part]
  accounts a t' hadd := by
    obtain ⟨-, rfl, rfl⟩ := addPerson_ok hadd
    rfl

/-- Replacing a person of an account needs unique identifiers: the row is looked up for the account,
but replaced by its identifier alone. -/
theorem replacePerson_within {t : Tables} {accountId : Uuid} {person : Person} (h : t.Keyed) :
    Within accountId (·.replacePerson accountId person) t := by
  have hany : ((t.only accountId).people.any fun p => p.id == person.id && p.accountId == accountId) =
      t.people.any fun p => p.id == person.id && p.accountId == accountId := by
    refine any_filter_of_others fun p hp => ?_
    have hother : p.accountId ≠ accountId := by simpa using (List.mem_filter.1 hp).2
    simp [hother]
  have hrewrite {q : Person} (hq : q ∈ t.people) (hid : q.id = person.id)
      (haccount : q.accountId = accountId) : ∀ p ∈ t.people,
        (if p.id = person.id then { person with accountId } else p).accountId = p.accountId := by
    intro p hp
    by_cases hpid : p.id = person.id
    · rw [if_pos hpid, eq_of_people_nodup h.people hp hq (hpid.trans hid.symm), haccount]
    · rw [if_neg hpid]
  constructor
  · intro e he
    simp only [replacePerson, hany] at he ⊢
    split at he
    · cases he
    · rw [if_neg ‹_›]
      cases he
      rfl
  · intro a t' hreplace
    obtain ⟨⟨q, hq, hid, haccount⟩, rfl, rfl⟩ := replacePerson_ok hreplace
    have hown : q ∈ (t.only accountId).people := List.mem_filter.2 ⟨hq, by simpa using haccount⟩
    have hpeople := filter_map_of_same (fun p => p.accountId == accountId) fun p hp =>
      congrArg (· == accountId) (hrewrite hq hid haccount p hp)
    rw [replacePerson_of_mem hown hid haccount]
    simp only [only, part, hpeople]
  · intro a t' hreplace
    obtain ⟨⟨q, hq, hid, haccount⟩, rfl, rfl⟩ := replacePerson_ok hreplace
    have hpeople := filter_map_of_same (fun p => p.accountId != accountId) fun p hp =>
      congrArg (· != accountId) (hrewrite hq hid haccount p hp)
    have hkept : ∀ p ∈ t.people.filter (fun p => p.accountId != accountId),
        (if p.id = person.id then { person with accountId } else p) = p := by
      intro p hp
      have hother : p.accountId ≠ accountId := by simpa using (List.mem_filter.1 hp).2
      refine if_neg fun hpid => hother ?_
      rw [← hrewrite hq hid haccount p (List.mem_filter.1 hp).1, if_pos hpid]
    simp only [others, part, hpeople, List.map_congr_left hkept, List.map_id']
  · intro a t' hreplace
    obtain ⟨-, rfl, rfl⟩ := replacePerson_ok hreplace
    rfl

theorem addLink_within {t : Tables} {accountId : Uuid} {link : BridgeLink}
    (h : (t.others accountId).Unused link.id) :
    Within accountId (·.addLink accountId link) t where
  fails e he := by
    have hids : ((t.only accountId).links.any fun row => row.id == link.id) =
        t.links.any fun row => row.id == link.id :=
      any_filter_of_others fun row hrow => by simpa using h.links row hrow
    have hkeys : ((t.only accountId).links.any fun row => row.accountId == accountId &&
          row.bridgeId == link.bridge.id && row.externalId == link.externalId) =
        t.links.any fun row => row.accountId == accountId &&
          row.bridgeId == link.bridge.id && row.externalId == link.externalId := by
      refine any_filter_of_others fun row hrow => ?_
      have hother : row.accountId ≠ accountId := by simpa using (List.mem_filter.1 hrow).2
      simp [hother]
    simp only [addLink, hids, hkeys] at he ⊢
    split at he
    · rw [if_pos ‹_›]
      cases he
      rfl
    · rw [if_neg ‹_›]
      split at he
      · rw [if_pos ‹_›]
        cases he
        rfl
      · cases he
  succeeds a t' hadd := by
    obtain ⟨hids, hkeys, rfl, rfl⟩ := addLink_ok hadd
    rw [addLink_of_unused (fun row hrow => hids row (List.mem_filter.1 hrow).1)
      fun row hrow => hkeys row (List.mem_filter.1 hrow).1]
    simp [only, part, LinkRow.ofLink]
  others a t' hadd := by
    obtain ⟨-, -, rfl, rfl⟩ := addLink_ok hadd
    simp [others, part, LinkRow.ofLink]
  accounts a t' hadd := by
    obtain ⟨-, -, rfl, rfl⟩ := addLink_ok hadd
    rfl

end Tables

end Concierge
