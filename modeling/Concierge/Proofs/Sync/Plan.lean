import Concierge.Proofs.Store.Keys
import Concierge.Sync

/-!
# The plan of a reconciliation

Which person each user is taken over by depends only on the links that were loaded and on the
identifiers that come next, never on the rows.  A plan lists these resolutions in order, and a
reconciliation that is not disturbed carries out its plan: each step refreshes the person of a link
or adds a person together with a link.

Undisturbed means that no call is refused, that every loaded link leads to a person of the account,
that the links to every bridge a user comes from were loaded, and that new identifiers are unused.
-/

namespace Concierge

namespace Sync

/-! ## Plans -/

/-- How a user is taken over. -/
structure Resolution where
  user : RemoteUser
  /-- The link that leads to the user's person. -/
  link : BridgeLink
  /-- The link and its person are made for this user. -/
  isNew : Bool

/-- The link that is made for a user with the next two identifiers. -/
def linkFor (accountId : Uuid) (supply : Nat → Uuid) (n : Nat) (user : RemoteUser) : BridgeLink :=
  ⟨supply (n + 1), accountId, supply n, user.bridge, user.externalId⟩

/-- Resolve users in order: the first link that matches counts, and a link that is made on the way
comes after all earlier ones. -/
def resolve (key : MatchKey) (accountId : Uuid) (supply : Nat → Uuid) :
    Nat → List BridgeLink → List RemoteUser → List Resolution
  | _, _, [] => []
  | n, links, user :: rest =>
    match links.find? fun link => linkMatches key link user with
    | some link => ⟨user, link, false⟩ :: resolve key accountId supply n links rest
    | none =>
      ⟨user, linkFor accountId supply n user, true⟩ ::
        resolve key accountId supply (n + 2) (links ++ [linkFor accountId supply n user]) rest

/-- The resolutions for which something is made. -/
def created (plan : List Resolution) : List Resolution := plan.filter (·.isNew)

/-- The links that are made. -/
def made (plan : List Resolution) : List BridgeLink := (created plan).map (·.link)

/-- How many people are made and how many refreshed. -/
def tally (plan : List Resolution) : Counts :=
  ⟨plan.countP (·.isNew), plan.countP (! ·.isNew)⟩

@[simp] theorem made_nil : made [] = [] := rfl

@[simp] theorem made_cons_old (user : RemoteUser) (link : BridgeLink) (plan : List Resolution) :
    made (⟨user, link, false⟩ :: plan) = made plan := rfl

@[simp] theorem made_cons_new (user : RemoteUser) (link : BridgeLink) (plan : List Resolution) :
    made (⟨user, link, true⟩ :: plan) = link :: made plan := rfl

@[simp] theorem tally_cons_old (user : RemoteUser) (link : BridgeLink) (plan : List Resolution) :
    tally (⟨user, link, false⟩ :: plan) = ⟨(tally plan).created, (tally plan).updated + 1⟩ := by
  simp [tally]

@[simp] theorem tally_cons_new (user : RemoteUser) (link : BridgeLink) (plan : List Resolution) :
    tally (⟨user, link, true⟩ :: plan) = ⟨(tally plan).created + 1, (tally plan).updated⟩ := by
  simp [tally]

/-- A user whom a link matches is resolved by it. -/
theorem resolve_of_match {key : MatchKey} {accountId : Uuid} {supply : Nat → Uuid} {n : Nat}
    {links : List BridgeLink} {user : RemoteUser} {link : BridgeLink} {rest : List RemoteUser}
    (h : links.find? (fun l => linkMatches key l user) = some link) :
    resolve key accountId supply n links (user :: rest) =
      ⟨user, link, false⟩ :: resolve key accountId supply n links rest := by
  simp only [resolve, h]

/-- A link is made for a user whom no link matches. -/
theorem resolve_of_no_match {key : MatchKey} {accountId : Uuid} {supply : Nat → Uuid} {n : Nat}
    {links : List BridgeLink} {user : RemoteUser} {rest : List RemoteUser}
    (h : links.find? (fun l => linkMatches key l user) = none) :
    resolve key accountId supply n links (user :: rest) =
      ⟨user, linkFor accountId supply n user, true⟩ ::
        resolve key accountId supply (n + 2) (links ++ [linkFor accountId supply n user]) rest := by
  simp only [resolve, h]

/-- Every user is resolved, in order. -/
theorem resolve_users (key : MatchKey) (accountId : Uuid) (supply : Nat → Uuid) (n : Nat)
    (links : List BridgeLink) (users : List RemoteUser) :
    (resolve key accountId supply n links users).map (·.user) = users := by
  induction users generalizing n links with
  | nil => rfl
  | cons user rest ih =>
    cases hfind : links.find? fun link => linkMatches key link user with
    | some link => rw [resolve_of_match hfind, List.map_cons, ih]
    | none => rw [resolve_of_no_match hfind, List.map_cons, ih]

/-- The tables after a user was taken over. -/
def Resolution.apply (accountId : Uuid) (t : Tables) (r : Resolution) : Tables :=
  if r.isNew then
    { t with
      people := t.people ++ [newPerson r.link.personId accountId r.user]
      links := t.links ++ [.ofLink r.link] }
  else
    { t with people := t.people.map fun p =>
        if p.id = r.link.personId then refreshed p r.user else p }

/-! ## Undisturbed runs -/

/-- The calls that a reconciliation makes. -/
def calls : List Call := [.findPerson, .createPerson, .updatePerson, .createLink]

/-- The store refuses no call of a reconciliation. -/
def Unrefused (s : Store) : Prop := ∀ c ∈ calls, s.refusals c = []

/-- The rows and the links in hand fit together: every link leads to a person of the account, and
every row of the account for one of the bridges has its link in hand. -/
structure Ready (accountId : Uuid) (bridges : List Bridge) (t : Tables) (links : List BridgeLink) :
    Prop where
  people : (t.people.map (·.id)).Nodup
  grounded : ∀ link ∈ links, ∃ p ∈ t.people, p.id = link.personId ∧ p.accountId = accountId
  covered : ∀ row ∈ t.links, row.accountId = accountId → ∀ bridge ∈ bridges,
    row.bridgeId = bridge.id → ∃ link ∈ links, link.bridge = bridge ∧
      link.externalId = row.externalId

/-- The identifiers of what is made were never used before. -/
structure Fresh (t : Tables) (made : List BridgeLink) : Prop where
  people : (made.map (·.personId)).Nodup
  links : (made.map (·.id)).Nodup
  peopleUnused : ∀ link ∈ made, ∀ p ∈ t.people, p.id ≠ link.personId
  linksUnused : ∀ link ∈ made, ∀ row ∈ t.links, row.id ≠ link.id

/-- Refreshing keeps everybody's identifiers. -/
theorem refreshed_ids (people : List Person) (id : Uuid) (user : RemoteUser) :
    (people.map fun p => if p.id = id then refreshed p user else p).map (·.id) =
      people.map (·.id) := by
  apply Tables.map_key_map
  intro p _
  by_cases hp : p.id = id <;> simp [hp, refreshed]

/-- Who is there after a refresh was there before, in the same account. -/
theorem mem_refreshed {people : List Person} {p : Person} (hp : p ∈ people) (id : Uuid)
    (user : RemoteUser) : ∃ q ∈ people.map fun p => if p.id = id then refreshed p user else p,
      q.id = p.id ∧ q.accountId = p.accountId := by
  refine ⟨_, List.mem_map_of_mem hp, ?_⟩
  by_cases hid : p.id = id <;> simp [hid, refreshed]

namespace Ready

variable {key : MatchKey} {accountId : Uuid} {bridges : List Bridge} {t : Tables}
  {links : List BridgeLink} {user : RemoteUser} {link : BridgeLink}

/-- Refreshing a person disturbs nothing. -/
theorem refresh (h : Ready accountId bridges t links) :
    Ready accountId bridges (Resolution.apply accountId t ⟨user, link, false⟩) links where
  people := (refreshed_ids t.people link.personId user).symm ▸ h.people
  grounded l hl := by
    obtain ⟨p, hp, hid, haccount⟩ := h.grounded l hl
    obtain ⟨q, hq, hqid, hqaccount⟩ := mem_refreshed hp link.personId user
    exact ⟨q, hq, hqid.trans hid, hqaccount.trans haccount⟩
  covered := h.covered

/-- Making a person and their link disturbs nothing if the person's identifier is unused. -/
theorem enroll (h : Ready accountId bridges t links) (hunused : ∀ p ∈ t.people, p.id ≠ link.personId)
    (hbridge : link.bridge = user.bridge) :
    Ready accountId bridges (Resolution.apply accountId t ⟨user, link, true⟩) (links ++ [link]) where
  people := Tables.nodup_append_singleton h.people hunused
  grounded l hl := by
    rcases List.mem_append.1 hl with hold | hnew
    · obtain ⟨p, hp, hids⟩ := h.grounded l hold
      exact ⟨p, List.mem_append_left _ hp, hids⟩
    · obtain rfl := List.mem_singleton.1 hnew
      exact ⟨_, List.mem_append_right _ (List.mem_singleton_self _), rfl, rfl⟩
  covered row hrow haccount bridge hb hid := by
    rcases List.mem_append.1 hrow with hold | hnew
    · obtain ⟨l, hl, hlink⟩ := h.covered row hold haccount bridge hb hid
      exact ⟨l, List.mem_append_left _ hl, hlink⟩
    · obtain rfl := List.mem_singleton.1 hnew
      exact ⟨link, List.mem_append_right _ (List.mem_singleton_self _), Bridge.id_injective hid, rfl⟩

/-- A user of a loaded bridge whom no link matches has no row yet. -/
theorem no_row (h : Ready accountId bridges t links) (hbridge : user.bridge ∈ bridges)
    (hnone : links.find? (fun link => linkMatches key link user) = none) :
    ∀ row ∈ t.links, Tables.linkKey row ≠ (accountId, user.bridge.id, user.externalId) := by
  intro row hrow hkey
  simp only [Tables.linkKey, Prod.mk.injEq] at hkey
  obtain ⟨haccount, hid, hexternal⟩ := hkey
  obtain ⟨l, hl, hlb, hle⟩ := h.covered row hrow haccount user.bridge hbridge hid
  have hno := List.find?_eq_none.1 hnone l hl
  cases key <;> simp [linkMatches, hlb, hle, hexternal] at hno

end Ready

/-- Replacing a person by what a directory says about them rewrites that row alone. -/
theorem replacePerson_refreshed {accountId : Uuid} {t : Tables} {p : Person} (user : RemoteUser)
    {link : BridgeLink} (hpeople : (t.people.map (·.id)).Nodup) (hp : p ∈ t.people)
    (hid : p.id = link.personId) (haccount : p.accountId = accountId) :
    t.replacePerson accountId (refreshed p user) =
      .ok (refreshed p user, Resolution.apply accountId t ⟨user, link, false⟩) := by
  have hsame : p.id = (refreshed p user).id := rfl
  have hrow : { refreshed p user with accountId } = refreshed p user := by
    simp [refreshed, haccount]
  rw [Tables.replacePerson_of_mem hp hsame haccount, hrow]
  have hrows : t.people.map (fun q => if q.id = (refreshed p user).id then refreshed p user else q) =
      t.people.map fun q => if q.id = link.personId then refreshed q user else q := by
    apply List.map_congr_left
    intro q hq
    by_cases hqid : q.id = p.id
    · obtain rfl := Tables.eq_of_people_nodup hpeople hq hp hqid
      simp [refreshed, hid]
    · simp [refreshed, hqid, ← hid]
  rw [hrows]
  rfl

/-- Refreshing a person of the account rewrites that row alone. -/
theorem refresh_eq {accountId : Uuid} (user : RemoteUser) {link : BridgeLink} {s : Store}
    {t : Tables} (hs : Unrefused s) (ht : s.tables = some t)
    (hpeople : (t.people.map (·.id)).Nodup)
    (hperson : ∃ p ∈ t.people, p.id = link.personId ∧ p.accountId = accountId) :
    refresh accountId link.personId user s =
      (.ok (), { s with tables := some (Resolution.apply accountId t ⟨user, link, false⟩) }) := by
  obtain ⟨p, hp, hid, haccount⟩ := hperson
  have hfind : Query.findPerson accountId link.personId s = (.ok (some p), s) := by
    rw [Query.findPerson_eq_call]
    refine Query.call_of_reading (hs _ (by simp [calls])) ht ?_
    rw [← hid, ← haccount, Tables.person?_of_mem hpeople hp]
  have hupdate : Query.updatePerson accountId (refreshed p user) s = (.ok (refreshed p user),
      { s with tables := some (Resolution.apply accountId t ⟨user, link, false⟩) }) := by
    rw [Query.updatePerson_eq_call]
    exact Query.call_of_willing (hs _ (by simp [calls])) ht
      (replacePerson_refreshed user hpeople hp hid haccount)
  unfold refresh
  rw [Fallible.bind_of_ok hfind]
  exact Fallible.bind_of_ok hupdate

/-- Making a person and their link adds a row for each. -/
theorem enroll_eq {accountId : Uuid} (user : RemoteUser) {s : Store} {t : Tables}
    (hs : Unrefused s) (ht : s.tables = some t)
    (hperson : ∀ p ∈ t.people, p.id ≠ s.supply s.issued)
    (hlink : ∀ row ∈ t.links, row.id ≠ s.supply (s.issued + 1))
    (hkey : ∀ row ∈ t.links, Tables.linkKey row ≠ (accountId, user.bridge.id, user.externalId)) :
    enroll accountId user s = (.ok (linkFor accountId s.supply s.issued user),
      { s with
        tables := some (Resolution.apply accountId t
          ⟨user, linkFor accountId s.supply s.issued user, true⟩)
        issued := s.issued + 2 }) := by
  let person := newPerson (s.supply s.issued) accountId user
  let link := linkFor accountId s.supply s.issued user
  let t₁ : Tables := { t with people := t.people ++ [person] }
  let t₂ : Tables := { t₁ with links := t.links ++ [.ofLink link] }
  let s₁ : Store := { s with issued := s.issued + 1 }
  let s₂ : Store := { s₁ with tables := some t₁ }
  let s₃ : Store := { s₂ with issued := s.issued + 2 }
  have hcreate : Query.createPerson accountId person s₁ = (.ok person, s₂) := by
    rw [Query.createPerson_eq_call]
    exact Query.call_of_willing (hs _ (by simp [calls])) ht (Tables.addPerson_of_unused hperson)
  have htie : Query.createLink accountId link s₃ = (.ok link, { s₃ with tables := some t₂ }) := by
    rw [Query.createLink_eq_call]
    exact Query.call_of_willing (hs _ (by simp [calls])) rfl (Tables.addLink_of_unused hlink hkey)
  unfold enroll
  rw [Fallible.bind_of_ok (show Query.fresh s = (.ok (s.supply s.issued), s₁) from rfl),
    Fallible.bind_of_ok hcreate,
    Fallible.bind_of_ok (show Query.fresh s₂ = (.ok (s.supply (s.issued + 1)), s₃) from rfl)]
  exact htie

namespace Fresh

variable {accountId : Uuid} {t : Tables} {user : RemoteUser} {link : BridgeLink}
  {rest : List BridgeLink}

/-- Refreshing a person uses no identifier. -/
theorem refresh (h : Fresh t rest) :
    Fresh (Resolution.apply accountId t ⟨user, link, false⟩) rest where
  people := h.people
  links := h.links
  peopleUnused l hl p hp := by
    obtain ⟨q, hq, rfl⟩ := List.mem_map.1 hp
    have hunused := h.peopleUnused l hl q hq
    by_cases hid : q.id = link.personId <;> simpa [hid, refreshed] using hunused
  linksUnused := h.linksUnused

/-- Making a person and their link uses up their identifiers alone. -/
theorem enroll (h : Fresh t (link :: rest)) :
    Fresh (Resolution.apply accountId t ⟨user, link, true⟩) rest where
  people := (List.nodup_cons.1 h.people).2
  links := (List.nodup_cons.1 h.links).2
  peopleUnused l hl p hp := by
    rcases List.mem_append.1 hp with hold | hnew
    · exact h.peopleUnused l (List.mem_cons_of_mem _ hl) p hold
    · obtain rfl := List.mem_singleton.1 hnew
      intro heq
      exact (List.nodup_cons.1 h.people).1 (List.mem_map.2 ⟨l, hl, heq.symm⟩)
  linksUnused l hl row hrow := by
    rcases List.mem_append.1 hrow with hold | hnew
    · exact h.linksUnused l (List.mem_cons_of_mem _ hl) row hold
    · obtain rfl := List.mem_singleton.1 hnew
      intro heq
      exact (List.nodup_cons.1 h.links).1 (List.mem_map.2 ⟨l, hl, heq.symm⟩)

end Fresh

/-- An undisturbed reconciliation carries out its plan. -/
theorem reconcile_eq (counts : Counts) {key : MatchKey} {accountId : Uuid} {bridges : List Bridge}
    {users : List RemoteUser} {links : List BridgeLink} {s : Store} {t : Tables}
    (hs : Unrefused s) (ht : s.tables = some t) (hready : Ready accountId bridges t links)
    (hbridges : ∀ user ∈ users, user.bridge ∈ bridges)
    (hfresh : Fresh t (made (resolve key accountId s.supply s.issued links users))) :
    reconcile key accountId users links counts s =
      (let plan := resolve key accountId s.supply s.issued links users
       (.ok ⟨counts.created + (tally plan).created, counts.updated + (tally plan).updated⟩,
        { s with
          tables := some (plan.foldl (Resolution.apply accountId) t)
          issued := s.issued + 2 * (tally plan).created })) := by
  induction users generalizing links counts s t with
  | nil =>
    obtain ⟨tables, refusals, supply, issued⟩ := s
    subst ht
    rfl
  | cons user rest ih =>
    have hrest : ∀ u ∈ rest, u.bridge ∈ bridges := fun u hu => hbridges u (List.mem_cons_of_mem _ hu)
    cases hfind : links.find? fun link => linkMatches key link user with
    | some link =>
      rw [resolve_of_match hfind] at hfresh ⊢
      have hrefresh := refresh_eq user hs ht hready.people
        (hready.grounded link (List.mem_of_find?_eq_some hfind))
      have hrefused : Unrefused { s with
          tables := some (Resolution.apply accountId t ⟨user, link, false⟩) } := hs
      simp only [reconcile, hfind]
      rw [Fallible.bind_of_ok hrefresh, ih _ hrefused rfl hready.refresh hrest hfresh.refresh]
      simp only [tally_cons_old, List.foldl_cons, Nat.add_assoc, Nat.add_comm 1]
    | none =>
      rw [resolve_of_no_match hfind] at hfresh ⊢
      have hperson := hfresh.peopleUnused _ List.mem_cons_self
      have henroll := enroll_eq user hs ht hperson
        (hfresh.linksUnused _ List.mem_cons_self)
        (hready.no_row (hbridges user List.mem_cons_self) hfind)
      have hrefused : Unrefused { s with
          tables := some (Resolution.apply accountId t
            ⟨user, linkFor accountId s.supply s.issued user, true⟩)
          issued := s.issued + 2 } := hs
      simp only [reconcile, hfind]
      rw [Fallible.bind_of_ok henroll, ih _ hrefused rfl (hready.enroll hperson rfl) hrest hfresh.enroll]
      simp only [tally_cons_new, List.foldl_cons, Nat.mul_add, Nat.mul_one, Nat.add_assoc,
        Nat.add_comm 1, Nat.add_comm 2]

/-! ## From the parts to the whole -/

/-- What holds of refreshing and of enrolling, and is kept when queries are made one after another,
holds of a reconciliation. -/
theorem reconcile_of_parts {P : {α : Type} → Query α → Prop} {accountId : Uuid}
    (hpure : ∀ {α : Type} (x : α), P (pure x : Query α))
    (hbind : ∀ {α β : Type} {a : Query α} {f : α → Query β}, P a → (∀ x, P (f x)) → P (a >>= f))
    (hrefresh : ∀ personId user, P (refresh accountId personId user))
    (henroll : ∀ user, P (enroll accountId user)) (key : MatchKey) (users : List RemoteUser)
    (links : List BridgeLink) (counts : Counts) :
    P (reconcile key accountId users links counts) := by
  induction users generalizing links counts with
  | nil => exact hpure counts
  | cons user rest ih =>
    cases hfind : links.find? fun link => linkMatches key link user with
    | some link =>
      simp only [reconcile, hfind]
      exact hbind (hrefresh link.personId user) fun _ => ih _ _
    | none =>
      simp only [reconcile, hfind]
      exact hbind (henroll user) fun _ => ih _ _

/-! ## Keys -/

theorem refresh_keeps_keyed (accountId personId : Uuid) (user : RemoteUser) :
    Query.Keeps Tables.Keyed (refresh accountId personId user) := by
  refine Query.keeps_bind (Query.findPerson_keeps _ _) fun found => ?_
  cases found with
  | none => exact Query.keeps_throw _
  | some person =>
    exact Query.keeps_bind (Query.updatePerson_keeps_keyed _ _) fun _ => Query.keeps_pure _

theorem enroll_keeps_keyed (accountId : Uuid) (user : RemoteUser) :
    Query.Keeps Tables.Keyed (enroll accountId user) := by
  refine Query.keeps_bind Query.keeps_fresh fun id => ?_
  refine Query.keeps_bind (Query.createPerson_keeps_keyed _ _) fun person => ?_
  exact Query.keeps_bind Query.keeps_fresh fun _ => Query.createLink_keeps_keyed _ _

/-- A reconciliation keeps the unique keys, disturbed or not. -/
theorem reconcile_keeps_keyed (key : MatchKey) (accountId : Uuid) (users : List RemoteUser)
    (links : List BridgeLink) (counts : Counts) :
    Query.Keeps Tables.Keyed (reconcile key accountId users links counts) :=
  reconcile_of_parts (P := Query.Keeps Tables.Keyed) Query.keeps_pure Query.keeps_bind
    (refresh_keeps_keyed accountId) (enroll_keeps_keyed accountId) key users links counts

end Sync

end Concierge
