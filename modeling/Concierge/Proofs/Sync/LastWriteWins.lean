import Concierge.Proofs.Sync.Fetch
import Concierge.Proofs.Sync.Plan
import Concierge.Proofs.Sync.Resolution

/-!
# The last write wins

Carrying out a plan step by step leaves every person as the last user left them who leads to them.
The phone number is the one exception: it is not taken over when a person is made, so a person to
whom only that first user leads has none.
-/

namespace Concierge

namespace Sync

/-! ## What a plan amounts to -/

/-- The users of a plan that lead to a person, in order. -/
def usersFor (plan : List Resolution) (id : Uuid) : List RemoteUser :=
  (plan.filter fun r => r.link.personId == id).map (·.user)

/-- A person after users were written over them in order; only the last one counts. -/
def overwritten (p : Person) (users : List RemoteUser) : Person :=
  match users.getLast? with
  | some user =>
    { p with name := user.name, email := user.email, phoneNumber := user.phoneNumber }
  | none => p

/-- The person that is made for a user, after everybody who leads to them. -/
def born (accountId : Uuid) (plan : List Resolution) (r : Resolution) : Person :=
  overwritten
    { id := r.link.personId
      accountId
      name := r.user.name
      title := ""
      email := r.user.email
      phoneNumber := ""
      isVisible := false
      isAvailable := false
      notifications := ⟨false, false, false, false, false⟩ }
    (usersFor plan r.link.personId).tail

/-- The tables that a plan amounts to. -/
def settled (accountId : Uuid) (plan : List Resolution) (t : Tables) : Tables :=
  { t with
    people := t.people.map (fun p => overwritten p (usersFor plan p.id)) ++
      (created plan).map (born accountId plan)
    links := t.links ++ (made plan).map .ofLink }

/-- Every step leads to somebody who is there by then, or makes somebody who is not. -/
def Sound : List Uuid → List Resolution → Prop
  | _, [] => True
  | ids, ⟨_, link, false⟩ :: rest => link.personId ∈ ids ∧ Sound ids rest
  | ids, ⟨_, link, true⟩ :: rest => link.personId ∉ ids ∧ Sound (ids ++ [link.personId]) rest

@[simp] theorem usersFor_nil (id : Uuid) : usersFor [] id = [] := rfl

/-- A step counts for the person to whom it leads. -/
theorem usersFor_cons (r : Resolution) (plan : List Resolution) (id : Uuid) :
    usersFor (r :: plan) id =
      if r.link.personId = id then r.user :: usersFor plan id else usersFor plan id := by
  by_cases h : r.link.personId = id <;> simp [usersFor, h]

@[simp] theorem overwritten_nil (p : Person) : overwritten p [] = p := rfl

@[simp] theorem overwritten_id (p : Person) (users : List RemoteUser) :
    (overwritten p users).id = p.id := by
  unfold overwritten; split <;> rfl

@[simp] theorem overwritten_accountId (p : Person) (users : List RemoteUser) :
    (overwritten p users).accountId = p.accountId := by
  unfold overwritten; split <;> rfl

/-- Writing users over a person begins with the first one. -/
theorem overwritten_cons (p : Person) (user : RemoteUser) (users : List RemoteUser) :
    overwritten p (user :: users) = overwritten (refreshed p user) users := by
  cases users with
  | nil => rfl
  | cons next rest =>
    obtain ⟨last, hlast⟩ : ∃ last, (next :: rest).getLast? = some last :=
      Option.isSome_iff_exists.1 (by simp)
    have hall : (user :: next :: rest).getLast? = some last := by
      rw [List.getLast?_cons_cons, hlast]
    simp [overwritten, hlast, hall, refreshed]

/-- Nobody is made whose identifier was there before. -/
theorem Sound.created_not_mem {ids : List Uuid} {plan : List Resolution} (h : Sound ids plan) :
    ∀ r ∈ created plan, r.link.personId ∉ ids := by
  induction plan generalizing ids with
  | nil => simp [created]
  | cons r rest ih =>
    obtain ⟨user, link, isNew⟩ := r
    cases isNew with
    | false => exact ih h.2
    | true =>
      intro r hr
      rcases List.mem_cons.1 hr with rfl | hrest
      · exact h.1
      · exact fun hmem => ih h.2 r hrest (List.mem_append_left _ hmem)

/-- The first user who leads to a person that is made is the one they are made for. -/
theorem Sound.usersFor_created {ids : List Uuid} {plan : List Resolution} (h : Sound ids plan)
    {r : Resolution} (hr : r ∈ created plan) :
    ∃ later, usersFor plan r.link.personId = r.user :: later := by
  induction plan generalizing ids with
  | nil => simp [created] at hr
  | cons first rest ih =>
    obtain ⟨user, link, isNew⟩ := first
    cases isNew with
    | false =>
      have hne : link.personId ≠ r.link.personId := fun heq =>
        Sound.created_not_mem h.2 r hr (heq ▸ h.1)
      rw [usersFor_cons, if_neg hne]
      exact ih h.2 hr
    | true =>
      rcases List.mem_cons.1 hr with rfl | hrest
      · exact ⟨_, by rw [usersFor_cons, if_pos rfl]⟩
      · have hne : link.personId ≠ r.link.personId := fun heq =>
          Sound.created_not_mem h.2 r hrest (by simp [heq])
        rw [usersFor_cons, if_neg hne]
        exact ih h.2 hrest

/-- A step that leads to somebody else does not count for a person who is made. -/
theorem born_cons_of_ne {accountId : Uuid} {step r : Resolution} {plan : List Resolution}
    (h : step.link.personId ≠ r.link.personId) :
    born accountId (step :: plan) r = born accountId plan r := by
  simp [born, usersFor_cons, h]

/-- Refreshing a person first and settling the rest settles the whole plan. -/
theorem settled_refresh {accountId : Uuid} {user : RemoteUser} {link : BridgeLink}
    {rest : List Resolution} {t : Tables}
    (h : Sound (t.people.map (·.id)) (⟨user, link, false⟩ :: rest)) :
    settled accountId rest (Resolution.apply accountId t ⟨user, link, false⟩) =
      settled accountId (⟨user, link, false⟩ :: rest) t := by
  have hpeople : (t.people.map fun p => if p.id = link.personId then refreshed p user else p).map
        (fun p => overwritten p (usersFor rest p.id)) =
      t.people.map fun p => overwritten p (usersFor (⟨user, link, false⟩ :: rest) p.id) := by
    rw [List.map_map]
    apply List.map_congr_left
    intro p _
    by_cases hp : p.id = link.personId
    · have hid : (refreshed p user).id = p.id := rfl
      simp only [Function.comp_apply, if_pos hp, usersFor_cons, if_pos hp.symm, overwritten_cons, hid]
    · simp only [Function.comp_apply, if_neg hp, usersFor_cons, if_neg (Ne.symm hp)]
  have hmade : (created rest).map (born accountId rest) =
      (created rest).map (born accountId (⟨user, link, false⟩ :: rest)) := by
    apply List.map_congr_left
    intro r hr
    have hne : link.personId ≠ r.link.personId := fun heq =>
      Sound.created_not_mem h.2 r hr (heq ▸ h.1)
    exact (born_cons_of_ne hne).symm
  simp only [settled, Resolution.apply, Bool.false_eq_true, if_false, hpeople, hmade]
  rfl

/-- Making a person first and settling the rest settles the whole plan. -/
theorem settled_enroll {accountId : Uuid} {user : RemoteUser} {link : BridgeLink}
    {rest : List Resolution} {t : Tables}
    (h : Sound (t.people.map (·.id)) (⟨user, link, true⟩ :: rest)) :
    settled accountId rest (Resolution.apply accountId t ⟨user, link, true⟩) =
      settled accountId (⟨user, link, true⟩ :: rest) t := by
  have hpeople : t.people.map (fun p => overwritten p (usersFor rest p.id)) =
      t.people.map fun p => overwritten p (usersFor (⟨user, link, true⟩ :: rest) p.id) := by
    apply List.map_congr_left
    intro p hp
    have hne : link.personId ≠ p.id := fun heq => h.1 (heq ▸ List.mem_map_of_mem hp)
    rw [usersFor_cons, if_neg hne]
  have hfirst : overwritten (newPerson link.personId accountId user) (usersFor rest link.personId) =
      born accountId (⟨user, link, true⟩ :: rest) ⟨user, link, true⟩ := by
    simp only [born, usersFor_cons, if_true, List.tail_cons]
    rfl
  have hmade : (created rest).map (born accountId rest) =
      (created rest).map (born accountId (⟨user, link, true⟩ :: rest)) := by
    apply List.map_congr_left
    intro r hr
    have hne : link.personId ≠ r.link.personId := fun heq =>
      Sound.created_not_mem h.2 r hr (by simp [heq])
    exact (born_cons_of_ne hne).symm
  have hcreated : created (⟨user, link, true⟩ :: rest) = ⟨user, link, true⟩ :: created rest := rfl
  have hid : (newPerson link.personId accountId user).id = link.personId := rfl
  simp only [settled, Resolution.apply, if_true, List.map_append, List.map_cons, List.map_nil, hid,
    hpeople, hfirst, hmade, hcreated, made_cons_new, List.append_assoc, List.singleton_append]

/-- Carrying out a sound plan amounts to writing the last user over each person. -/
theorem foldl_apply_eq_settled {accountId : Uuid} {plan : List Resolution} {t : Tables}
    (h : Sound (t.people.map (·.id)) plan) :
    plan.foldl (Resolution.apply accountId) t = settled accountId plan t := by
  induction plan generalizing t with
  | nil => simp [settled, created, made]
  | cons r rest ih =>
    obtain ⟨user, link, isNew⟩ := r
    cases isNew with
    | false =>
      have hids : (Resolution.apply accountId t ⟨user, link, false⟩).people.map (·.id) =
          t.people.map (·.id) := refreshed_ids t.people link.personId user
      rw [List.foldl_cons, ih (hids ▸ h.2), settled_refresh h]
    | true =>
      have hids : (Resolution.apply accountId t ⟨user, link, true⟩).people.map (·.id) =
          t.people.map (·.id) ++ [link.personId] := List.map_append
      rw [List.foldl_cons, ih (hids ▸ h.2), settled_enroll h]

/-! ## Resolving users -/

/-- Resolving users makes a sound plan if their links lead to people who are there and the new
identifiers are unused. -/
theorem resolve_sound {key : MatchKey} {accountId : Uuid} {supply : Nat → Uuid} {n : Nat}
    {links : List BridgeLink} {users : List RemoteUser} {ids : List Uuid}
    (hlinks : ∀ link ∈ links, link.personId ∈ ids)
    (hnodup : ((made (resolve key accountId supply n links users)).map (·.personId)).Nodup)
    (hunused : ∀ link ∈ made (resolve key accountId supply n links users), link.personId ∉ ids) :
    Sound ids (resolve key accountId supply n links users) := by
  induction users generalizing n links ids with
  | nil => trivial
  | cons user rest ih =>
    cases hfind : links.find? fun link => linkMatches key link user with
    | some link =>
      rw [resolve_of_match hfind] at hnodup hunused ⊢
      exact ⟨hlinks link (List.mem_of_find?_eq_some hfind), ih hlinks hnodup hunused⟩
    | none =>
      rw [resolve_of_no_match hfind] at hnodup hunused ⊢
      simp only [made_cons_new, List.map_cons, List.nodup_cons, List.mem_map, not_exists,
        not_and] at hnodup
      refine ⟨hunused _ List.mem_cons_self, ih ?_ hnodup.2 ?_⟩
      · intro link hlink
        rcases List.mem_append.1 hlink with hold | hnew
        · exact List.mem_append_left _ (hlinks link hold)
        · exact List.mem_append_right _ (by simp [List.mem_singleton.1 hnew])
      · intro link hlink hmem
        rcases List.mem_append.1 hmem with hold | hnew
        · exact hunused link (List.mem_cons_of_mem _ hlink) hold
        · exact hnodup.1 link hlink (List.mem_singleton.1 hnew)

/-! ## Runs -/

section Runs

variable {σ : Type}

/-- The plan of a run. -/
def planOf (key : MatchKey) (bridges : List Bridge) (providers : Providers σ) (account : Account)
    (w : World σ) : List Resolution :=
  let fetched := (fetchAll providers account bridges w).1
  resolve key account.id w.store.supply w.store.issued (linksOf fetched) (usersOf fetched)

/-- Nothing disturbs a run: no call of the reconciliation is refused, users are tagged with the
directory that they come from, loaded links lead to people of the account, and new identifiers are
unused. -/
structure Undisturbed (key : MatchKey) (bridges : List Bridge) (providers : Providers σ)
    (account : Account) (w : World σ) (t : Tables) : Prop where
  tables : w.store.tables = some t
  keyed : t.Keyed
  unrefused : Unrefused w.store
  tagged : ∀ found ∈ (fetchAll providers account bridges w).1, ∀ c ∈ found.2, ∀ user ∈ c.users,
    user.bridge = found.1
  grounded : ∀ link ∈ linksOf (fetchAll providers account bridges w).1,
    ∃ p ∈ t.people, p.id = link.personId ∧ p.accountId = account.id
  fresh : Fresh t (made (planOf key bridges providers account w))

namespace Undisturbed

variable {key : MatchKey} {bridges : List Bridge} {providers : Providers σ} {account : Account}
  {w : World σ} {t : Tables}

/-- Rows and loaded links fit together. -/
theorem ready (h : Undisturbed key bridges providers account w t) :
    Ready account.id (reached (fetchAll providers account bridges w).1) t
      (linksOf (fetchAll providers account bridges w).1) where
  people := h.keyed.people
  grounded := h.grounded
  covered row hrow haccount bridge hbridge hid := by
    obtain ⟨c, hc⟩ := mem_reached.1 hbridge
    have hlinks := fetchAll_links h.tables hc
    refine ⟨⟨row.id, row.accountId, row.personId, bridge, row.externalId⟩, ?_, rfl, rfl⟩
    refine mem_linksOf.2 ⟨bridge, c, hc, ?_⟩
    rw [hlinks]
    refine List.mem_map.2 ⟨row, List.mem_filter.2 ⟨hrow, ?_⟩, rfl⟩
    simp [Tables.isLinkTo, haccount, hid]

/-- Every user comes from a directory whose links were loaded. -/
theorem bridge_mem (h : Undisturbed key bridges providers account w t) :
    ∀ user ∈ usersOf (fetchAll providers account bridges w).1,
      user.bridge ∈ reached (fetchAll providers account bridges w).1 :=
  Tagged.bridge_mem h.tagged

/-- The plan is sound. -/
theorem sound (h : Undisturbed key bridges providers account w t) :
    Sound (t.people.map (·.id)) (planOf key bridges providers account w) := by
  refine resolve_sound ?_ h.fresh.people ?_
  · intro link hlink
    obtain ⟨p, hp, hid, -⟩ := h.grounded link hlink
    exact List.mem_map.2 ⟨p, hp, hid⟩
  · intro link hlink hmem
    obtain ⟨p, hp, hid⟩ := List.mem_map.1 hmem
    exact h.fresh.peopleUnused link hlink p hp hid

/-- An undisturbed reconciliation reports what its plan says and leaves the tables that the plan
amounts to. -/
theorem reconcile_eq (h : Undisturbed key bridges providers account w t) :
    reconcile key account.id (usersOf (fetchAll providers account bridges w).1)
        (linksOf (fetchAll providers account bridges w).1) ⟨0, 0⟩
        (fetchAll providers account bridges w).2.store =
      (.ok (tally (planOf key bridges providers account w)),
        { (fetchAll providers account bridges w).2.store with
          tables := some (settled account.id (planOf key bridges providers account w) t)
          issued := w.store.issued + 2 * (tally (planOf key bridges providers account w)).created }) := by
  have hfetch := fetchAll_countedFrom providers account bridges w
  have hplan : resolve key account.id (fetchAll providers account bridges w).2.store.supply
      (fetchAll providers account bridges w).2.store.issued
      (linksOf (fetchAll providers account bridges w).1)
      (usersOf (fetchAll providers account bridges w).1) =
        planOf key bridges providers account w := by
    rw [hfetch.supply, hfetch.issued, planOf]
  have hrefused : Unrefused (fetchAll providers account bridges w).2.store := by
    intro c hc
    rw [hfetch.refusals c (by rintro rfl; simp [calls] at hc)]
    exact h.unrefused c hc
  have hreconcile := Sync.reconcile_eq ⟨0, 0⟩ hrefused (hfetch.tables.trans h.tables) h.ready
    h.bridge_mem (hplan ▸ h.fresh)
  rw [hplan] at hreconcile
  simpa only [Nat.zero_add, foldl_apply_eq_settled h.sound, hfetch.issued] using hreconcile

/-- An undisturbed run succeeds and reports what its plan says. -/
theorem run_report (h : Undisturbed key bridges providers account w t) :
    (run key bridges providers account w).1 =
      .ok ⟨(tally (planOf key bridges providers account w)).created,
        (tally (planOf key bridges providers account w)).updated,
        skippedOf (fetchAll providers account bridges w).1⟩ := by
  rw [run_of_commit_ok (Query.transaction_of_ok h.reconcile_eq)]

/-- An undisturbed run leaves the tables that its plan amounts to. -/
theorem run_tables (h : Undisturbed key bridges providers account w t) :
    (run key bridges providers account w).2.store.tables =
      some (settled account.id (planOf key bridges providers account w) t) := by
  rw [run_of_commit_ok (Query.transaction_of_ok h.reconcile_eq)]
  rfl

/-- An undisturbed run keeps the unique keys. -/
theorem settled_keyed (h : Undisturbed key bridges providers account w t) :
    (settled account.id (planOf key bridges providers account w) t).Keyed := by
  have hkeeps := reconcile_keeps_keyed key account.id
    (usersOf (fetchAll providers account bridges w).1)
    (linksOf (fetchAll providers account bridges w).1) ⟨0, 0⟩
    (fetchAll providers account bridges w).2.store
  rw [h.reconcile_eq] at hkeeps
  refine hkeeps (fun t' ht' => ?_) _ rfl
  rw [(fetchAll_countedFrom providers account bridges w).tables, h.tables] at ht'
  exact Option.some.inj ht' ▸ h.keyed

end Undisturbed

/-- What a run makes of the rows, said through its plan. -/
structure LastWriteWins (key : MatchKey) (accountId : Uuid) (links : List BridgeLink)
    (users : List RemoteUser) (plan : List Resolution) (t t' : Tables) : Prop where
  /-- Every user is resolved, in order. -/
  users : plan.map (·.user) = users
  /-- The first link that matches counts, loaded ones before those made so far. -/
  resolved : ∀ before r after, plan = before ++ r :: after →
    ResolvedBy key accountId (links ++ made before) r
  /-- Whoever is made was not there. -/
  unused : ∀ r ∈ created plan, ∀ p ∈ t.people, p.id ≠ r.link.personId
  /-- Everybody to whom a user leads is there, in the account. -/
  present : ∀ r ∈ plan, ∃ p ∈ t'.people, p.id = r.link.personId ∧ p.accountId = accountId
  /-- They are as the last user says, up to the number of a person whom nobody else leads to. -/
  written : ∀ p ∈ t'.people, ∀ user, (usersFor plan p.id).getLast? = some user →
    p.name = user.name ∧ p.email = user.email ∧
      p.phoneNumber =
        if (∃ r ∈ created plan, r.link.personId = p.id) ∧ (usersFor plan p.id).length = 1 then ""
        else user.phoneNumber
  /-- Old rows keep their place and all other fields; new people follow, hidden and away. -/
  people : t'.people = t.people.map (fun p => overwritten p (usersFor plan p.id)) ++
    (created plan).map (born accountId plan)
  /-- Nothing but links is added, one for every new person. -/
  links : t'.links = t.links ++ (made plan).map .ofLink
  accounts : t'.accounts = t.accounts
  doors : t'.doors = t.doors

namespace Undisturbed

variable {key : MatchKey} {bridges : List Bridge} {providers : Providers σ} {account : Account}
  {w : World σ} {t : Tables}

/-- After the run all links in hand, loaded or made, lead to people of the account. -/
theorem grounded_settled (h : Undisturbed key bridges providers account w t) :
    ∀ link ∈ linksOf (fetchAll providers account bridges w).1 ++
        made (planOf key bridges providers account w),
      ∃ p ∈ (settled account.id (planOf key bridges providers account w) t).people,
        p.id = link.personId ∧ p.accountId = account.id := by
  intro link hlink
  rcases List.mem_append.1 hlink with hloaded | hmade
  · obtain ⟨p, hp, hid, haccount⟩ := h.grounded link hloaded
    exact ⟨_, List.mem_append_left _ (List.mem_map_of_mem hp), by simpa, by simpa⟩
  · obtain ⟨r, hr, rfl⟩ := List.mem_map.1 hmade
    exact ⟨_, List.mem_append_right _ (List.mem_map_of_mem hr), by simp [born], by simp [born]⟩

/-- Everybody to whom a user leads is there after the run. -/
theorem present (h : Undisturbed key bridges providers account w t) :
    ∀ r ∈ planOf key bridges providers account w,
      ∃ p ∈ (settled account.id (planOf key bridges providers account w) t).people,
        p.id = r.link.personId ∧ p.accountId = account.id :=
  fun _ hr => h.grounded_settled _ (List.mem_of_find?_eq_some (find_of_mem_resolve hr))

/-- Everybody to whom a user leads is as the last such user says. -/
theorem written (h : Undisturbed key bridges providers account w t) {p : Person}
    (hp : p ∈ (settled account.id (planOf key bridges providers account w) t).people)
    {user : RemoteUser}
    (hlast : (usersFor (planOf key bridges providers account w) p.id).getLast? = some user) :
    p.name = user.name ∧ p.email = user.email ∧
      p.phoneNumber =
        if (∃ r ∈ created (planOf key bridges providers account w), r.link.personId = p.id) ∧
          (usersFor (planOf key bridges providers account w) p.id).length = 1 then ""
        else user.phoneNumber := by
  rcases List.mem_append.1 hp with hold | hnew
  · obtain ⟨q, hq, rfl⟩ := List.mem_map.1 hold
    rw [overwritten_id] at hlast ⊢
    have hnot : ¬ ∃ r ∈ created (planOf key bridges providers account w), r.link.personId = q.id := by
      rintro ⟨r, hr, hid⟩
      exact h.sound.created_not_mem r hr (hid ▸ List.mem_map_of_mem hq)
    rw [if_neg fun hboth => hnot hboth.1]
    simp [overwritten, hlast]
  · obtain ⟨r, hr, rfl⟩ := List.mem_map.1 hnew
    have hid : (born account.id (planOf key bridges providers account w) r).id = r.link.personId := by
      simp [born]
    rw [hid] at hlast ⊢
    obtain ⟨later, hlater⟩ := h.sound.usersFor_created hr
    rw [hlater] at hlast ⊢
    cases later with
    | nil =>
      obtain rfl := Option.some.inj hlast
      have honly : (∃ q ∈ created (planOf key bridges providers account w),
          q.link.personId = r.link.personId) ∧ [r.user].length = 1 := ⟨⟨r, hr, rfl⟩, rfl⟩
      rw [if_pos honly]
      simp [born, hlater]
    | cons next others =>
      rw [List.getLast?_cons_cons] at hlast
      rw [if_neg (by simp)]
      simp [born, hlater, overwritten, hlast]

end Undisturbed

/-- An undisturbed run succeeds, and the last write wins: every user leads to the person of the
first link that matches, or to a new person, and everybody is left as the last user says who leads
to them. -/
theorem run_lastWriteWins {key : MatchKey} {bridges : List Bridge} {providers : Providers σ}
    {account : Account} {w : World σ} {t : Tables}
    (h : Undisturbed key bridges providers account w t) :
    let fetched := (fetchAll providers account bridges w).1
    let plan := planOf key bridges providers account w
    ∃ w' t', run key bridges providers account w =
        (.ok ⟨(tally plan).created, (tally plan).updated, skippedOf fetched⟩, w') ∧
      w'.store.tables = some t' ∧
      LastWriteWins key account.id (linksOf fetched) (usersOf fetched) plan t t' := by
  intro fetched plan
  exact ⟨_, _, Prod.ext h.run_report rfl, h.run_tables, {
    users := resolve_users _ _ _ _ _ _
    resolved := fun _ _ _ hsplit => resolve_resolvedBy hsplit
    unused := fun r hr p hp hid => h.sound.created_not_mem r hr (hid ▸ List.mem_map_of_mem hp)
    present := h.present
    written := fun _ hp _ hlast => h.written hp hlast
    people := rfl
    links := rfl
    accounts := rfl
    doors := rfl }⟩

/-! ### A run with something of everything

One directory cannot be reached; of the four users of the others, one has a link, two are the same
person under different bridges, and one is new. -/

/-- An account with a linked person. -/
def sampleAccount : Account := ⟨.ofNat 1, "Acme", "acme", "", "", default, default⟩

/-- A user as the sample directories give them. -/
def sampleUser (bridge : Bridge) (externalId name phoneNumber : String) : RemoteUser :=
  ⟨bridge, externalId, name, name, phoneNumber, ""⟩

/-- Two directories that answer and two that do not. -/
def sampleProviders : Providers Unit where
  notifier? _ _ := none
  users _ bridge :=
    match bridge with
    | .hub => pure [sampleUser .hub "7" "Ann" "", sampleUser .hub "8" "Bob" "+15550008"]
    | .slack => pure [sampleUser .slack "8" "Bobby" "+15550009", sampleUser .slack "9" "Cy" "+15550010"]
    | _ => Attempt.fail .timeout

/-- A linked person of the account and somebody of another account. -/
def sampleTables : Tables where
  accounts := [sampleAccount]
  people := [⟨.ofNat 11, .ofNat 1, "Old", "Head", "old", "+15550001", true, true, .all⟩,
    ⟨.ofNat 12, .ofNat 2, "Else", "", "else", "", true, true, .all⟩]
  doors := []
  links := [⟨.ofNat 21, .ofNat 1, .ofNat 11, 1, "7"⟩]

/-- A store with these rows, and identifiers that they do not use. -/
def sampleWorld : World Unit := ⟨.new (some sampleTables) fun n => .ofNat (100 + n), ⟨(), []⟩, []⟩

/-- The directories that are asked. -/
def sampleBridges : List Bridge := [.hub, .hipchat, .slack]

/-- Nothing disturbs the sample run. -/
theorem sample_undisturbed :
    Undisturbed .externalId sampleBridges sampleProviders sampleAccount sampleWorld sampleTables where
  tables := rfl
  keyed := ⟨by decide, by decide, by decide, by decide, by decide, by decide⟩
  unrefused _ _ := rfl
  tagged := by decide
  grounded := by decide
  fresh := ⟨by decide, by decide, by decide, by decide⟩

theorem run_lastWriteWins_sample :
    Undisturbed .externalId sampleBridges sampleProviders sampleAccount sampleWorld sampleTables ∧
      ∃ w' t', run .externalId sampleBridges sampleProviders sampleAccount sampleWorld =
          (.ok ⟨2, 2, [.hipchat]⟩, w') ∧
        w'.store.tables = some t' ∧
        LastWriteWins .externalId sampleAccount.id
          (linksOf (fetchAll sampleProviders sampleAccount sampleBridges sampleWorld).1)
          (usersOf (fetchAll sampleProviders sampleAccount sampleBridges sampleWorld).1)
          (planOf .externalId sampleBridges sampleProviders sampleAccount sampleWorld)
          sampleTables t' := by
  refine ⟨sample_undisturbed, ?_⟩
  have htally : tally (planOf .externalId sampleBridges sampleProviders sampleAccount sampleWorld) =
      ⟨2, 2⟩ := by decide
  have hskipped : skippedOf (fetchAll sampleProviders sampleAccount sampleBridges sampleWorld).1 =
      [.hipchat] := by decide
  have hrun := run_lastWriteWins sample_undisturbed
  simp only [htally, hskipped] at hrun
  exact hrun

end Runs

end Sync

end Concierge
