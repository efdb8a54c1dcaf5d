import Concierge.Proofs.Lookups
import Concierge.Proofs.Sync.Outcome
import Mathlib.Logic.Function.Iterate

/-!
# Runs that race

Links are loaded before the transaction in which a run writes, so two runs can both decide to make
the same person.  A run is cut here into its atomic steps: it asks a directory for its users, it
loads the links to that directory, and in the end it reconciles, in one transaction.  Left alone,
these steps are a run.  Any number of runs take turns in any order.

Whatever the turns, the links that a run has loaded stay in the store, because links are only ever
added.  So a run whose links are out of date either finds no conflict, or makes a link a second time;
the storage refuses that, and the person made along with it is undone as well.

Nothing is assumed about the users, the accounts, the bridges or refused calls.
-/

namespace Concierge

namespace Sync

variable {σ : Type} {t t' t₀ : Tables} {made : List BridgeLink} {w : World σ}

/-! ## The steps of a run -/

/-- How far a run is. -/
inductive Stage where
  /-- These directories are to be asked; once there is none, the transaction follows. -/
  | asking (ahead : List Bridge)
  /-- A directory gave its users, and the links to it are to be loaded. -/
  | loading (bridge : Bridge) (users : List RemoteUser) (ahead : List Bridge)
  | ended (result : Except ServiceError SyncReport)

/-- A run under way. -/
structure Run (σ : Type) where
  key : MatchKey
  providers : Providers σ
  account : Account
  stage : Stage
  /-- What was fetched so far. -/
  fetched : List (Bridge × Option Contribution)

namespace Run

/-- A run that has not done anything. -/
def begin (key : MatchKey) (bridges : List Bridge) (providers : Providers σ) (account : Account) :
    Run σ :=
  ⟨key, providers, account, .asking bridges, []⟩

/-- The run is done with a directory. -/
def took (r : Run σ) (bridge : Bridge) (found : Option Contribution) (ahead : List Bridge) : Run σ :=
  { r with stage := .asking ahead, fetched := r.fetched ++ [(bridge, found)] }

/-- Take the next step. -/
def step (r : Run σ) (w : World σ) : Run σ × World σ :=
  match r.stage with
  | .asking (bridge :: ahead) =>
    match r.providers.users r.account bridge w.outside with
    | (.error (.failed e), outside) =>
      (r.took bridge none ahead, { w with outside := outside.report (.fetchFailed bridge e) })
    | (.error (.stalled _ _ _), outside) =>
      (r.took bridge none ahead, { w with outside := outside.report (.fetchTimedOut bridge) })
    | (.ok users, outside) => ({ r with stage := .loading bridge users ahead }, { w with outside })
  | .loading bridge users ahead =>
    match Query.findLinks r.account.id bridge w.store with
    | (.ok links, store) => (r.took bridge (some ⟨users, links⟩) ahead, { w with store })
    | (.error e, store) =>
      (r.took bridge none ahead,
        { w with store, outside := w.outside.report (.linksUnreadable bridge e) })
  | .asking [] =>
    let (result, w) := conclude r.key r.account.id r.fetched w
    ({ r with stage := .ended result }, w)
  | .ended _ => (r, w)

/-! ### A run left alone -/

/-- A step of a run that has the world to itself. -/
def advance (p : Run σ × World σ) : Run σ × World σ := p.1.step p.2

/-- One or two steps fetch a directory. -/
theorem advance_fetch (r : Run σ) (bridge : Bridge) (ahead : List Bridge) (w : World σ) :
    ∃ n, advance^[n] ({ r with stage := .asking (bridge :: ahead) }, w) =
      (r.took bridge (fetch r.providers r.account bridge w).1 ahead,
        (fetch r.providers r.account bridge w).2) := by
  cases husers : r.providers.users r.account bridge w.outside with
  | mk result outside =>
    rcases result with (e | ⟨e, last⟩) | users
    · exact ⟨1, by simp only [Function.iterate_one, advance, step, fetch, husers]; rfl⟩
    · exact ⟨1, by simp only [Function.iterate_one, advance, step, fetch, husers]; rfl⟩
    · refine ⟨2, ?_⟩
      simp only [Function.iterate_succ, Function.iterate_zero, Function.comp, id, advance, step, fetch,
        husers]
      cases Query.findLinks r.account.id bridge w.store with
      | mk found store => cases found <;> rfl

/-- Some steps fetch all directories. -/
theorem advance_fetchAll (r : Run σ) (bridges : List Bridge) (w : World σ) :
    ∃ n, advance^[n] ({ r with stage := .asking bridges }, w) =
      ({ r with
          stage := .asking []
          fetched := r.fetched ++ (fetchAll r.providers r.account bridges w).1 },
        (fetchAll r.providers r.account bridges w).2) := by
  induction bridges generalizing r w with
  | nil => exact ⟨0, by simp [fetchAll]⟩
  | cons bridge ahead ih =>
    obtain ⟨n, hfetch⟩ := advance_fetch r bridge ahead w
    obtain ⟨m, hrest⟩ := ih (r.took bridge (fetch r.providers r.account bridge w).1 ahead)
      (fetch r.providers r.account bridge w).2
    refine ⟨m + n, ?_⟩
    rw [Function.iterate_add_apply, hfetch]
    refine hrest.trans ?_
    simp [took, fetchAll]

/-- Left alone, the steps of a run are the run. -/
theorem advance_run (key : MatchKey) (bridges : List Bridge) (providers : Providers σ)
    (account : Account) (w : World σ) :
    ∃ n, (advance^[n] (begin key bridges providers account, w)).1.stage =
        .ended (run key bridges providers account w).1 ∧
      (advance^[n] (begin key bridges providers account, w)).2 =
        (run key bridges providers account w).2 := by
  obtain ⟨n, hfetched⟩ := advance_fetchAll (begin key bridges providers account) bridges w
  have hbegin : { begin key bridges providers account with stage := .asking bridges } =
      begin key bridges providers account := rfl
  rw [hbegin] at hfetched
  refine ⟨n + 1, ?_⟩
  rw [Function.iterate_succ_apply', hfetched]
  exact ⟨rfl, rfl⟩

end Run

/-! ## Races -/

/-- Runs that share a world. -/
structure Race (σ : Type) where
  world : World σ
  runs : List (Run σ)

namespace Race

/-- One of the runs takes a step, if there is such a run. -/
def turn (race : Race σ) (i : Nat) : Race σ :=
  match race.runs[i]? with
  | some r => ⟨(r.step race.world).2, race.runs.set i (r.step race.world).1⟩
  | none => race

/-- The race after some turns. -/
def after (race : Race σ) (turns : List Nat) : Race σ := turns.foldl turn race

end Race

/-! ## What a step keeps -/

/-- There is a link for a user. -/
def Linked (accountId : Uuid) (t : Tables) (user : RemoteUser) : Prop :=
  ∃ row ∈ t.links, Tables.linkKey row = (accountId, user.bridge.id, user.externalId)

/-- As keys are unique, there is exactly one. -/
theorem Linked.once {accountId : Uuid} {user : RemoteUser} (h : Linked accountId t user)
    (hk : t.Keyed) :
    ∃! row, row ∈ t.links ∧ Tables.linkKey row = (accountId, user.bridge.id, user.externalId) := by
  obtain ⟨row, hrow, hkey⟩ := h
  refine ⟨row, ⟨hrow, hkey⟩, ?_⟩
  rintro other ⟨hother, hsame⟩
  exact List.inj_on_of_nodup_map hk.linkKeys hother hrow (hsame.trans hkey.symm)

/-- Once a plan was carried out there are links for all users. -/
theorem linked_of_enrolls {accountId : Uuid} {supply : Nat → Uuid} {n : Nat}
    {links : List BridgeLink} {users : List RemoteUser}
    (hloaded : ∀ link ∈ links, link.accountId = accountId ∧ .ofLink link ∈ t.links)
    (henrolls : t.Enrolls
      (Sync.made (resolve .bridgeAndExternalId accountId supply n links users)) t') :
    ∀ user ∈ users, Linked accountId t' user := by
  intro user huser
  rw [← resolve_users .bridgeAndExternalId accountId supply n links users] at huser
  obtain ⟨r, hr, rfl⟩ := List.mem_map.1 huser
  have hfind := find_of_mem_resolve hr
  have hlink : r.link.accountId = accountId ∧ .ofLink r.link ∈ t'.links := by
    rw [henrolls.links]
    rcases List.mem_append.1 (List.mem_of_find?_eq_some hfind) with hold | hnew
    · exact ⟨(hloaded _ hold).1, List.mem_append_left _ (hloaded _ hold).2⟩
    · exact ⟨(mem_made_resolve hnew).1, List.mem_append_right _ (List.mem_map_of_mem hnew)⟩
  have hmatches := List.find?_some hfind
  simp only [linkMatches, Bool.and_eq_true, beq_iff_eq] at hmatches
  refine ⟨_, hlink.2, ?_⟩
  simp only [Tables.linkKey, LinkRow.ofLink, hlink.1, hmatches.1, hmatches.2]

namespace Run

/-- What is known once a run has ended: if it succeeded, there are links for all its users, and
otherwise the storage failed. -/
def Outcome (t : Tables) (r : Run σ) : Except ServiceError SyncReport → Prop
  | .ok _ => r.key = .bridgeAndExternalId → ∀ user ∈ usersOf r.fetched, Linked r.account.id t user
  | .error e => ∃ reason, e = .database reason

/-- What is known about a run: the links that it loaded are in the store, and so on once it ended. -/
structure Sound (t : Tables) (r : Run σ) : Prop where
  loaded : ∀ link ∈ linksOf r.fetched, link.accountId = r.account.id ∧ .ofLink link ∈ t.links
  outcome : ∀ result, r.stage = .ended result → r.Outcome t result

variable {r : Run σ}

theorem begin_sound (key : MatchKey) (bridges : List Bridge) (providers : Providers σ)
    (account : Account) (t : Tables) : (begin key bridges providers account).Sound t where
  loaded link hlink := by simp [begin, linksOf] at hlink
  outcome result hended := by cases hended

/-- It is no matter to a run that the tables grow. -/
theorem Sound.of_grows (h : r.Sound t) (hgrows : t.Grows t') : r.Sound t' where
  loaded link hlink := ⟨(h.loaded link hlink).1, hgrows.links.subset (h.loaded link hlink).2⟩
  outcome result hended := by
    have houtcome := h.outcome result hended
    cases result with
    | error e => exact houtcome
    | ok report =>
      intro hkey user huser
      obtain ⟨row, hrow, hsame⟩ := houtcome hkey user huser
      exact ⟨row, hgrows.links.subset hrow, hsame⟩

/-- A run may take in a directory whose links are in the store. -/
theorem Sound.took (h : r.Sound t) (bridge : Bridge) {found : Option Contribution}
    (ahead : List Bridge)
    (hfound : ∀ c, found = some c → ∀ link ∈ c.links,
      link.accountId = r.account.id ∧ .ofLink link ∈ t.links) :
    (r.took bridge found ahead).Sound t where
  loaded link hlink := by
    obtain ⟨b, c, hmem, hlink⟩ := mem_linksOf.1 hlink
    rcases List.mem_append.1 hmem with hold | hnew
    · exact h.loaded link (mem_linksOf.2 ⟨b, c, hold, hlink⟩)
    · obtain ⟨-, hc⟩ := Prod.mk.inj (List.mem_singleton.1 hnew)
      exact hfound c hc.symm link hlink
  outcome result hended := by cases hended

/-- The transaction of a run succeeds with links for all its users, or the storage fails and the
tables stay as they are. -/
theorem Sound.transaction (h : r.Sound t) (hstage : r.stage = .asking []) (ht : w.tables = some t)
    (hi : t.Intact) :
    (∃ report t' made, (r.step w).1 = { r with stage := .ended (.ok report) } ∧
        (r.step w).2.tables = some t' ∧ t'.Intact ∧ t.Enrolls made t' ∧
        (r.key = .bridgeAndExternalId → ∀ user ∈ usersOf r.fetched, Linked r.account.id t' user)) ∨
      ∃ reason, (r.step w).1 = { r with stage := .ended (.error (.database reason)) } ∧
        (r.step w).2.tables = some t := by
  simp only [step, hstage]
  rcases conclude_cases r.key r.account.id ht hi.keyed r.fetched with
    ⟨w', t', hconclude, ht', hk', henrolls⟩ | ⟨e, w', hconclude, ht', hfailure⟩
  · rw [hconclude]
    refine .inl ⟨_, t', _, rfl, ht', ⟨hk', henrolls.grounded hi.grounded⟩, henrolls, ?_⟩
    intro hkey
    rw [hkey] at henrolls
    exact linked_of_enrolls h.loaded henrolls
  · rw [hconclude]
    cases hfailure with
    | storage reason => exact .inr ⟨reason, rfl, ht'⟩
    | @dangling link hlink nobody =>
      -- However old the link is, it is still in the store, so its person is there.
      obtain ⟨haccount, hrow⟩ := h.loaded link hlink
      have hthere := Tables.mem_personKeys.2 (hi.grounded _ hrow)
      simp only [LinkRow.ofLink, haccount] at hthere
      exact absurd hthere (Tables.person?_eq_none_iff.1 nobody)

/-- Whatever step a run takes, it stays sound, and at most it enrolls people. -/
theorem Sound.preserved (h : r.Sound t) (ht : w.tables = some t) (hi : t.Intact) :
    ∃ t' made, (r.step w).2.tables = some t' ∧ t'.Intact ∧ t.Enrolls made t' ∧
      (r.step w).1.Sound t' := by
  cases hstage : r.stage with
  | asking ahead =>
    cases ahead with
    | nil =>
      rcases h.transaction hstage ht hi with
        ⟨report, t', made, hr, ht', hi', henrolls, hlinked⟩ | ⟨reason, hr, ht'⟩
      · refine ⟨t', made, ht', hi', henrolls, ?_⟩
        rw [hr]
        refine ⟨(h.of_grows henrolls.grows).loaded, fun result hended => ?_⟩
        cases hended
        exact hlinked
      · refine ⟨t, [], ht', hi, .refl t, ?_⟩
        rw [hr]
        refine ⟨h.loaded, fun result hended => ?_⟩
        cases hended
        exact ⟨reason, rfl⟩
    | cons bridge ahead =>
      simp only [step, hstage]
      cases r.providers.users r.account bridge w.outside with
      | mk result outside =>
        rcases result with (e | ⟨e, last⟩) | users
        · exact ⟨t, [], ht, hi, .refl t, h.took bridge ahead (by simp)⟩
        · exact ⟨t, [], ht, hi, .refl t, h.took bridge ahead (by simp)⟩
        · exact ⟨t, [], ht, hi, .refl t, h.loaded, fun result hended => by cases hended⟩
  | loading bridge users ahead =>
    have hleaves := Query.findLinks_leaves r.account.id bridge w.store
    simp only [step, hstage]
    cases hfind : Query.findLinks r.account.id bridge w.store with
    | mk found store =>
      rw [hfind] at hleaves
      cases found with
      | error e => exact ⟨t, [], hleaves.trans ht, hi, .refl t, h.took bridge ahead (by simp)⟩
      | ok links =>
        refine ⟨t, [], hleaves.trans ht, hi, .refl t, h.took bridge ahead fun c hc => ?_⟩
        cases hc
        rw [Query.findLinks_eq_call] at hfind
        obtain ⟨t₁, ht₁, rfl⟩ := Store.CountedFrom.answer_of_reading hfind
        cases ht.symm.trans ht₁
        exact fun link hlink => (Tables.mem_linksTo.1 hlink).2
  | ended result =>
    simp only [step, hstage]
    exact ⟨t, [], ht, hi, .refl t, h⟩

end Run

/-! ## What a race keeps -/

/-- What is known about a race: from the first tables to the present ones, people were enrolled and
nothing else was done, and every run is sound. -/
structure Race.Reached (t₀ : Tables) (race : Race σ) (t : Tables) (made : List BridgeLink) : Prop where
  tables : race.world.tables = some t
  intact : t.Intact
  enrolls : t₀.Enrolls made t
  runs : ∀ r ∈ race.runs, r.Sound t

namespace Race

variable {race : Race σ}

/-- A turn enrolls people at most. -/
theorem Reached.turn (h : race.Reached t₀ t made) (i : Nat) :
    ∃ t' made', (race.turn i).Reached t₀ t' made' := by
  unfold Race.turn
  cases hget : race.runs[i]? with
  | none => exact ⟨t, made, h⟩
  | some r =>
    obtain ⟨t', more, ht', hi', henrolls, hsound⟩ :=
      (h.runs r (List.mem_of_getElem? hget)).preserved h.tables h.intact
    refine ⟨t', made ++ more, ht', hi', h.enrolls.trans henrolls, fun other hother => ?_⟩
    rcases List.mem_or_eq_of_mem_set hother with hstill | rfl
    · exact (h.runs other hstill).of_grows henrolls.grows
    · exact hsound

/-- So do any turns. -/
theorem Reached.after (h : race.Reached t₀ t made) (turns : List Nat) :
    ∃ t' made', (race.after turns).Reached t₀ t' made' := by
  induction turns generalizing race t made with
  | nil => exact ⟨t, made, h⟩
  | cons i rest ih =>
    obtain ⟨t', made', hturn⟩ := h.turn i
    exact ih hturn

/-- A race that starts from sound tables. -/
theorem reached_start (ht : race.world.tables = some t) (hi : t.Intact)
    (hruns : ∀ r ∈ race.runs, ∃ key bridges providers account,
      r = .begin key bridges providers account) : race.Reached t t [] where
  tables := ht
  intact := hi
  enrolls := .refl t
  runs r hr := by
    obtain ⟨key, bridges, providers, account, rfl⟩ := hruns r hr
    exact Run.begin_sound key bridges providers account t

/-- What holds in a race at any time. -/
structure Shared (t₀ : Tables) (race : Race σ) (t : Tables) (made : List BridgeLink) : Prop where
  tables : race.world.tables = some t
  /-- No two links share an account, a bridge and an external id, and all lead to people. -/
  intact : t.Intact
  /-- Every person that was made has a link, and every link that was made its own person. -/
  enrolls : t₀.Enrolls made t
  /-- Nobody was made twice for an account, a bridge and an external id. -/
  once : (made.map fun link => Tables.linkKey (.ofLink link)).Nodup
  /-- Each user of a run that succeeded still has one link. -/
  linked : ∀ r ∈ race.runs, ∀ report, r.stage = .ended (.ok report) → r.key = .bridgeAndExternalId →
    ∀ user ∈ usersOf r.fetched, ∃! row,
      row ∈ t.links ∧ Tables.linkKey row = (r.account.id, user.bridge.id, user.externalId)
  /-- However old its links are, a run succeeds, and each of its users has one link, or it fails with
  the storage and the tables stay. -/
  transactions : ∀ r ∈ race.runs, r.stage = .asking [] →
    (∃ report t', (r.step race.world).1.stage = .ended (.ok report) ∧
        (r.step race.world).2.tables = some t' ∧
        (r.key = .bridgeAndExternalId → ∀ user ∈ usersOf r.fetched, ∃! row,
          row ∈ t'.links ∧ Tables.linkKey row = (r.account.id, user.bridge.id, user.externalId))) ∨
      ∃ reason, (r.step race.world).1.stage = .ended (.error (.database reason)) ∧
        (r.step race.world).2.tables = some t

theorem Reached.once (h : race.Reached t₀ t made) :
    (made.map fun link => Tables.linkKey (.ofLink link)).Nodup := by
  have hkeys := h.intact.keyed.linkKeys
  rw [h.enrolls.links, List.map_append, List.map_map] at hkeys
  exact (List.nodup_append.1 hkeys).2.1

theorem Reached.shared (h : race.Reached t₀ t made) : race.Shared t₀ t made where
  tables := h.tables
  intact := h.intact
  enrolls := h.enrolls
  once := h.once
  linked r hr report hended hkey user huser :=
    ((h.runs r hr).outcome _ hended hkey user huser).once h.intact.keyed
  transactions r hr hstage := by
    rcases (h.runs r hr).transaction hstage h.tables h.intact with
      ⟨report, t', _, hstep, ht', hi', -, hlinked⟩ | ⟨reason, hstep, ht'⟩
    · exact .inl ⟨report, t', by rw [hstep], ht', fun hkey user huser =>
        (hlinked hkey user huser).once hi'.keyed⟩
    · exact .inr ⟨reason, by rw [hstep], ht'⟩

/-- Runs that race do not make people twice, whatever turns they take. -/
theorem racing_runs_make_people_once {race : Race σ} (ht : race.world.tables = some t₀)
    (hi : t₀.Intact)
    (hruns : ∀ r ∈ race.runs, ∃ key bridges providers account,
      r = .begin key bridges providers account) (turns : List Nat) :
    ∃ t made, (race.after turns).Shared t₀ t made := by
  obtain ⟨t, made, hreached⟩ := (reached_start ht hi hruns).after turns
  exact ⟨t, made, hreached.shared⟩

/-- Two runs of the sample account that ask the same directory. -/
def sampleRace : Race Unit :=
  let r := Run.begin .bridgeAndExternalId [.hub] sampleProviders sampleAccount
  ⟨sampleWorld, [r, r]⟩

/-- Both load the links before either writes: the first makes the new person, and the second is
refused. -/
theorem racing_runs_make_people_once_sample :
    ((sampleRace.after [0, 0, 1, 1, 0, 1]).runs.map fun r =>
        match r.stage with
        | .ended result => some result
        | _ => none) =
      [some (.ok ⟨1, 1, []⟩), some (.error (Query.violated
        "bridge_users.account_id, bridge_users.bridge_id, bridge_users.user_id"))] ∧
    ∃ t made, (sampleRace.after [0, 0, 1, 1, 0, 1]).Shared sampleTables t made := by
  have hkeyed : sampleTables.Keyed :=
    ⟨by decide, by decide, by decide, by decide, by decide, by decide⟩
  have hgrounded : sampleTables.Grounded := by decide
  refine ⟨by decide, racing_runs_make_people_once rfl ⟨hkeyed, hgrounded⟩ ?_ _⟩
  intro r hr
  obtain rfl : r = Run.begin .bridgeAndExternalId [.hub] sampleProviders sampleAccount := by
    simpa [sampleRace] using hr
  exact ⟨_, _, _, _, rfl⟩

end Race

end Sync

end Concierge
