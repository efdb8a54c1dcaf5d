import Concierge.Eligibility
import Concierge.Proofs.Directory.AllOrNothing
import Concierge.Proofs.Sync.Outcome

/-!
# What a synchronization leaves of the ways to reach people

A synchronization that succeeds writes over each person who was there the last user who leads to them,
and leaves everybody else alone.  The directories on the network give no phone numbers, so whoever is
written over has none afterwards: the channels for short messages are lost, whatever number was stored,
and all others stay.
-/

namespace Concierge

namespace Sync

variable {σ : Type} {key : MatchKey} {accountId id : Uuid} {supply : Nat → Uuid} {n : Nat}
  {links : List BridgeLink} {users : List RemoteUser} {user : RemoteUser}

/-! ## Who is written over -/

/-- A user leads to a person if the first link that matches the user is a link to that person. -/
def leadsTo (key : MatchKey) (links : List BridgeLink) (id : Uuid) (user : RemoteUser) : Bool :=
  (links.find? fun link => linkMatches key link user).any (·.personId == id)

/-- Links to somebody else lead nobody to a person. -/
theorem leadsTo_append {more : List BridgeLink} (h : ∀ link ∈ more, link.personId ≠ id) :
    leadsTo key (links ++ more) id user = leadsTo key links id user := by
  unfold leadsTo
  rw [List.find?_append]
  cases links.find? fun link => linkMatches key link user with
  | some link => rfl
  | none =>
    cases hmore : more.find? fun link => linkMatches key link user with
    | none => rfl
    | some link => simpa using h link (List.mem_of_find?_eq_some hmore)

/-- The users of a plan who lead to a person for whom no link is made are those whom the loaded links
lead there. -/
theorem usersFor_resolve
    (h : ∀ link ∈ made (resolve key accountId supply n links users), link.personId ≠ id) :
    usersFor (resolve key accountId supply n links users) id = users.filter (leadsTo key links id) := by
  induction users generalizing n links with
  | nil => rfl
  | cons user rest ih =>
    cases hfind : links.find? fun link => linkMatches key link user with
    | some link =>
      rw [resolve_of_match hfind] at h ⊢
      have hleads : leadsTo key links id user = (link.personId == id) := by simp [leadsTo, hfind]
      rw [usersFor_cons, List.filter_cons, hleads, ih h]
      simp only [beq_iff_eq]
    | none =>
      rw [resolve_of_no_match hfind] at h ⊢
      have hstrange := h _ List.mem_cons_self
      have hleads : leadsTo key links id user = false := by simp [leadsTo, hfind]
      rw [usersFor_cons, if_neg hstrange, List.filter_cons_of_neg (by simp [hleads]),
        ih fun link hlink => h link (List.mem_cons_of_mem _ hlink)]
      refine List.filter_congr fun later _ => leadsTo_append fun link hlink => ?_
      rwa [List.mem_singleton.1 hlink]

/-! ## Runs that succeed -/

variable {bridges : List Bridge} {providers : Providers σ} {account : Account} {w w' : World σ}
  {t : Tables} {report : SyncReport}

/-- A run that succeeds had a sound plan and left the tables that its plan amounts to. -/
theorem run_ok (ht : w.store.tables = some t) (hk : t.Keyed)
    (h : run key bridges providers account w = (.ok report, w')) :
    Sound (t.people.map (·.id)) (planOf key bridges providers account w) ∧
      w'.store.tables = some (settled account.id (planOf key bridges providers account w) t) := by
  have hfetch := fetchAll_countedFrom providers account bridges w
  have ht₁ := hfetch.tables.trans ht
  cases hreconcile : reconcile key account.id (usersOf (fetchAll providers account bridges w).1)
      (linksOf (fetchAll providers account bridges w).1) ⟨0, 0⟩
      (fetchAll providers account bridges w).2.store with
  | mk result s' =>
    cases result with
    | error e =>
      rw [run_of_commit_error (Query.transaction_of_error hreconcile)] at h
      cases h
    | ok counts =>
      obtain ⟨hsound, -, htables⟩ := reconcile_ok ht₁ hk.people hreconcile
      rw [hfetch.supply, hfetch.issued] at hsound htables
      rw [run_of_commit_ok (Query.transaction_of_ok hreconcile)] at h
      cases h
      exact ⟨hsound, htables.trans (congrArg some (foldl_apply_eq_settled hsound))⟩

/-- A run that succeeds writes over everybody who was there the users who lead to them. -/
theorem overwritten_mem_of_run_ok (ht : w.store.tables = some t) (hk : t.Keyed)
    (h : run key bridges providers account w = (.ok report, w')) :
    let fetched := (fetchAll providers account bridges w).1
    ∃ t', w'.store.tables = some t' ∧ t'.Keyed ∧ ∀ p ∈ t.people,
      overwritten p ((usersOf fetched).filter (leadsTo key (linksOf fetched) p.id)) ∈ t'.people := by
  intro fetched
  obtain ⟨hsound, htables⟩ := run_ok ht hk h
  refine ⟨_, htables, ?_, fun p hp => ?_⟩
  · obtain ⟨w₁, t₁, hrun, ht₁, hk₁, -⟩ | ⟨e, w₁, hrun, -⟩ :=
      run_cases key bridges providers account ht hk
    · rw [h] at hrun
      cases hrun
      exact Option.some.inj (ht₁.symm.trans htables) ▸ hk₁
    · rw [h] at hrun
      cases hrun
  · have hstrange : ∀ link ∈ made (planOf key bridges providers account w), link.personId ≠ p.id := by
      intro link hlink heq
      obtain ⟨r, hr, rfl⟩ := List.mem_map.1 hlink
      exact hsound.created_not_mem r hr (heq ▸ List.mem_map_of_mem hp)
    have husers : usersFor (planOf key bridges providers account w) p.id =
        (usersOf fetched).filter (leadsTo key (linksOf fetched) p.id) := usersFor_resolve hstrange
    rw [← husers]
    exact List.mem_append_left _ (List.mem_map_of_mem hp)

end Sync

/-! ## The directories on the network -/

/-- No directory on the network gives a phone number. -/
theorem ProviderSettings.phoneNumber_of_fetched {p : ProviderSettings} {account : Account}
    {bridges : List Bridge} {w : World Http.Network} {user : RemoteUser}
    (h : user ∈ Sync.usersOf (Sync.fetchAll p.providers account bridges w).1) :
    user.phoneNumber = "" := by
  obtain ⟨before, bridge, after, users, -, husers, hmem⟩ := Sync.exists_fetch_of_mem h
  exact (p.users_yields account bridge _ users _ (Prod.ext husers rfl) user hmem).2

/-- Without a phone number a person is left with the channels that are not for short messages. -/
theorem NotificationSettings.eligible_of_no_phoneNumber (s : NotificationSettings) {p p' : Person}
    (hopts : p'.notifications = p.notifications) (hphone : p'.phoneNumber = "") :
    s.eligible p' = (s.eligible p).filter (·.family != .sms) := by
  have hundialable : p'.isDialable = false := by
    simp [Person.isDialable, hphone, Person.shortNumberLimit]
  rw [eligible, eligible, List.filter_filter]
  refine List.filter_congr fun c _ => ?_
  cases hfamily : c.family == .sms <;>
    simp [isEligible, hopts, hundialable, bne, hfamily]

/-- Whatever the network replies, a synchronization that succeeds keeps everybody: a person to whom no
user leads as they were, and one to whom users lead under the name and address that one of them gives,
without a phone number, and so with all their channels but those for short messages. -/
theorem sync_takes_short_messages_alone (p : ProviderSettings) (key : MatchKey)
    (bridges : List Bridge) (account : Account) {w w' : World Http.Network} {t : Tables}
    {report : SyncReport} (ht : w.store.tables = some t) (hk : t.Keyed)
    (h : Sync.run key bridges p.providers account w = (.ok report, w')) :
    let fetched := (Sync.fetchAll p.providers account bridges w).1
    let leading (x : Person) :=
      (Sync.usersOf fetched).filter (Sync.leadsTo key (Sync.linksOf fetched) x.id)
    ∃ t', w'.store.tables = some t' ∧ t'.Keyed ∧ ∀ x ∈ t.people, ∃ x' ∈ t'.people, x'.id = x.id ∧
      (leading x = [] → x' = x) ∧
      (leading x ≠ [] →
        (∃ user ∈ leading x,
          x' = { x with name := user.name, email := user.email, phoneNumber := "" }) ∧
        ∀ s : NotificationSettings, s.eligible x' = (s.eligible x).filter (·.family != .sms)) := by
  intro fetched leading
  obtain ⟨t', ht', hk', hpeople⟩ := Sync.overwritten_mem_of_run_ok ht hk h
  refine ⟨t', ht', hk', fun x hx => ⟨_, hpeople x hx, Sync.overwritten_id _ _, fun hnone => ?_,
    fun hsome => ?_⟩⟩
  · exact congrArg (Sync.overwritten x) hnone
  · obtain ⟨user, hlast⟩ := Option.isSome_iff_exists.1 (List.getLast?_isSome.2 hsome)
    have hmem : user ∈ leading x := List.mem_of_getLast? hlast
    have hphone : user.phoneNumber = "" :=
      ProviderSettings.phoneNumber_of_fetched (List.mem_filter.1 hmem).1
    have hwritten : Sync.overwritten x (leading x) =
        { x with name := user.name, email := user.email, phoneNumber := "" } := by
      simp only [Sync.overwritten, hlast, hphone]
    have hopts : (Sync.overwritten x (leading x)).notifications = x.notifications := by rw [hwritten]
    exact ⟨⟨user, hmem, hwritten⟩, fun s => s.eligible_of_no_phoneNumber hopts (by rw [hwritten])⟩

/-! ### A phone number that is lost -/

/-- An account whose people are taken from a hub, and told by short message or email. -/
def sampleHouse : Account :=
  { (default : Account) with
    notifications := { (default : NotificationSettings) with nexmo := .on, postmark := .on }
    bridges := { (default : BridgeSettings) with hub := ⟨true, some "http://hub.test", some "t"⟩ } }

/-- Somebody of the account with a phone number. -/
def sampleResident : Person :=
  ⟨.ofNat 11, sampleHouse.id, "Ada", "", "ada@house.test", "+15551234567", true, true, .all⟩

/-- The rows: the person is linked to user 1 of the hub. -/
def sampleHouseTables : Tables where
  accounts := [sampleHouse]
  people := [sampleResident]
  doors := []
  links := [⟨.ofNat 21, sampleHouse.id, sampleResident.id, Bridge.hub.id, "1"⟩]

/-- A world in which the hub answers once, with user 1. -/
def sampleHouseWorld : World Http.Network where
  store := .new (some sampleHouseTables) fun n => .ofNat (100 + n)
  outside := ⟨.scripted [.answer ⟨200, Utf8.encode
    "[\x7b\"id\":1,\"display_name\":\"Ada\",\"email\":\"ada@hub.test\"\x7d]", .complete⟩], []⟩
  pending := []

theorem sync_takes_short_messages_alone_sample :
    ∃ w' t', Sync.run .externalId [.hub] ProviderSettings.standard.providers sampleHouse
          sampleHouseWorld = (.ok ⟨0, 1, []⟩, w') ∧
      w'.store.tables = some t' ∧ ∃ x' ∈ t'.people, x'.id = sampleResident.id ∧
        x'.phoneNumber = "" ∧ sampleHouse.notifications.eligible x' = [.postmark] := by
  have hreport : (Sync.run .externalId [.hub] ProviderSettings.standard.providers sampleHouse
      sampleHouseWorld).1 = .ok ⟨0, 1, []⟩ := by decide +kernel
  have hkeyed : sampleHouseTables.Keyed :=
    ⟨by decide, by decide, by decide, by decide, by decide, by decide⟩
  cases hrun : Sync.run .externalId [.hub] ProviderSettings.standard.providers sampleHouse
      sampleHouseWorld with
  | mk result w' =>
    rw [hrun] at hreport
    obtain rfl : result = .ok ⟨0, 1, []⟩ := hreport
    obtain ⟨t', ht', -, hpeople⟩ := sync_takes_short_messages_alone ProviderSettings.standard
      .externalId [.hub] sampleHouse (t := sampleHouseTables) rfl hkeyed hrun
    obtain ⟨x', hx', hid, -, hlinked⟩ := hpeople sampleResident List.mem_cons_self
    obtain ⟨⟨user, -, hwritten⟩, heligible⟩ := hlinked (by decide +kernel)
    exact ⟨w', t', rfl, ht', x', hx', hid, congrArg Person.phoneNumber hwritten,
      (heligible sampleHouse.notifications).trans (by decide)⟩

/-- The hub gives no phone number for the person's user, the synchronization succeeds, and the stored
number is gone with the channel that needs it. -/
theorem sync_erases_phoneNumber :
    let fetched := Sync.fetchAll ProviderSettings.standard.providers sampleHouse [.hub]
      sampleHouseWorld
    let synced := Sync.run .externalId [.hub] ProviderSettings.standard.providers sampleHouse
      sampleHouseWorld
    Sync.usersOf fetched.1 = [⟨.hub, "1", "Ada", "ada@hub.test", "", ""⟩] ∧
      sampleHouse.notifications.eligible sampleResident = [.nexmo, .postmark] ∧
      synced.1 = .ok ⟨0, 1, []⟩ ∧
      (synced.2.store.tables.map fun t => t.people.map fun p =>
          (p.id, p.phoneNumber, sampleHouse.notifications.eligible p)) =
        some [(sampleResident.id, "", [.postmark])] := by
  decide +kernel

end Concierge
