import Concierge.Proofs.Store.Keys

/-!
# How tables grow

No foreign keys tie the links to the people.  That every link leads to a person of its account is
kept by what is done to the tables: rows are added and people are rewritten, but nobody is removed
and nobody changes their identifier or account.

People are compared by identifier and account alone, since everything else about them may change.
Tables that enrolled people have, for every link that was made, one more row of each kind.
-/

namespace Concierge

namespace Tables

variable {t t' t'' : Tables}

/-! ## Growing -/

/-- What never changes about a person. -/
def personKey (p : Person) : Uuid × Uuid := (p.id, p.accountId)

/-- The person to whom a link leads. -/
def target (link : BridgeLink) : Uuid × Uuid := (link.personId, link.accountId)

/-- Nothing was removed, everybody kept their identifier and account, and every link kept its row. -/
structure Grows (t t' : Tables) : Prop where
  accounts : t.accounts <+: t'.accounts
  people : t.people.map personKey <+: t'.people.map personKey
  doors : t.doors <+: t'.doors
  links : t.links <+: t'.links

namespace Grows

theorem refl (t : Tables) : t.Grows t :=
  ⟨List.prefix_rfl, List.prefix_rfl, List.prefix_rfl, List.prefix_rfl⟩

theorem trans (h : t.Grows t') (h' : t'.Grows t'') : t.Grows t'' where
  accounts := h.accounts.trans h'.accounts
  people := h.people.trans h'.people
  doors := h.doors.trans h'.doors
  links := h.links.trans h'.links

theorem addAccount {account added : Account} (h : t.addAccount account = .ok (added, t')) :
    t.Grows t' := by
  obtain ⟨-, -, rfl, rfl⟩ := addAccount_ok h
  exact { refl t with accounts := List.prefix_append _ _ }

theorem addDoor {accountId : Uuid} {door added : Door}
    (h : t.addDoor accountId door = .ok (added, t')) : t.Grows t' := by
  obtain ⟨-, rfl, rfl⟩ := addDoor_ok h
  exact { refl t with doors := List.prefix_append _ _ }

theorem addPerson {accountId : Uuid} {person added : Person}
    (h : t.addPerson accountId person = .ok (added, t')) : t.Grows t' := by
  obtain ⟨-, rfl, rfl⟩ := addPerson_ok h
  refine { refl t with people := ?_ }
  rw [List.map_append]
  exact List.prefix_append _ _

/-- The person that is replaced is one of the account, and there is no other with the identifier. -/
theorem replacePerson {accountId : Uuid} {person updated : Person} (hk : t.Keyed)
    (h : t.replacePerson accountId person = .ok (updated, t')) : t.Grows t' := by
  obtain ⟨⟨q, hq, hid, haccount⟩, rfl, rfl⟩ := replacePerson_ok h
  have hkeys : (t.people.map fun p =>
      if p.id = person.id then { person with accountId } else p).map personKey =
        t.people.map personKey := by
    apply map_key_map
    intro p hp
    by_cases hpid : p.id = person.id
    · have hown : p.accountId = accountId := by
        rw [eq_of_people_nodup hk.people hp hq (hpid.trans hid.symm), haccount]
      simp [personKey, hpid, hown]
    · rw [if_neg hpid]
  exact { refl t with people := by simp only [hkeys, List.prefix_rfl] }

end Grows

/-! ## Links that lead to people -/

/-- Every link leads to a person of its account. -/
def Grounded (t : Tables) : Prop :=
  ∀ row ∈ t.links, ∃ p ∈ t.people, p.id = row.personId ∧ p.accountId = row.accountId

instance (t : Tables) : Decidable t.Grounded :=
  inferInstanceAs (Decidable (∀ row ∈ t.links, ∃ p ∈ t.people,
    p.id = row.personId ∧ p.accountId = row.accountId))

/-- Somebody has an identifier in an account. -/
theorem mem_personKeys {id accountId : Uuid} :
    (id, accountId) ∈ t.people.map personKey ↔
      ∃ p ∈ t.people, p.id = id ∧ p.accountId = accountId := by
  simp [personKey]

/-- An account has nobody with an identifier. -/
theorem person?_eq_none_iff {accountId id : Uuid} :
    t.person? accountId id = none ↔ (id, accountId) ∉ t.people.map personKey := by
  simp [person?, mem_personKeys, List.find?_eq_none]

/-- As long as no link is added, links lead to people as before. -/
theorem Grounded.of_grows (h : t.Grounded) (hgrows : t.Grows t') (hlinks : t'.links = t.links) :
    t'.Grounded := by
  intro row hrow
  rw [hlinks] at hrow
  exact mem_personKeys.1 (hgrows.people.subset (mem_personKeys.2 (h row hrow)))

/-- Keys are unique and every link leads to a person of its account. -/
structure Intact (t : Tables) : Prop where
  keyed : t.Keyed
  grounded : t.Grounded

/-- The tables of a storage that was just set up. -/
theorem intact_empty : Tables.empty.Intact where
  keyed := ⟨List.nodup_nil, List.nodup_nil, List.nodup_nil, List.nodup_nil, List.nodup_nil,
    List.nodup_nil⟩
  grounded _ hrow := absurd hrow List.not_mem_nil

/-! ## Enrolling people -/

/-- For every link that was made, a person and the link were added, and nothing else was. -/
structure Enrolls (made : List BridgeLink) (t t' : Tables) : Prop where
  accounts : t'.accounts = t.accounts
  doors : t'.doors = t.doors
  people : t'.people.map personKey = t.people.map personKey ++ made.map target
  links : t'.links = t.links ++ made.map .ofLink

namespace Enrolls

variable {made made' : List BridgeLink}

theorem refl (t : Tables) : Enrolls [] t t := ⟨rfl, rfl, by simp, by simp⟩

theorem trans (h : Enrolls made t t') (h' : Enrolls made' t' t'') :
    Enrolls (made ++ made') t t'' where
  accounts := h'.accounts.trans h.accounts
  doors := h'.doors.trans h.doors
  people := by rw [h'.people, h.people, List.map_append, List.append_assoc]
  links := by rw [h'.links, h.links, List.map_append, List.append_assoc]

theorem grows (h : Enrolls made t t') : t.Grows t' where
  accounts := h.accounts ▸ List.prefix_rfl
  people := h.people ▸ List.prefix_append _ _
  doors := h.doors ▸ List.prefix_rfl
  links := h.links ▸ List.prefix_append _ _

/-- A link that was made leads to the person that was made with it. -/
theorem grounded (h : Enrolls made t t') (ht : t.Grounded) : t'.Grounded := by
  intro row hrow
  rw [← mem_personKeys, h.people]
  rw [h.links] at hrow
  rcases List.mem_append.1 hrow with hold | hnew
  · exact List.mem_append_left _ (mem_personKeys.2 (ht row hold))
  · obtain ⟨link, hlink, rfl⟩ := List.mem_map.1 hnew
    exact List.mem_append_right _ (List.mem_map_of_mem hlink)

end Enrolls

end Tables

end Concierge
