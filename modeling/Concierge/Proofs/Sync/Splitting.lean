import Concierge.Proofs.Sync.Dependence
import Concierge.Proofs.Sync.Outcome

/-!
# One run or two

When users match by directory and external id, one run over two lists of directories comes to the
same as a run over the first list followed by one over the second.

The single run loads all links at its start and then remembers those that it makes.  The second of
two runs loads its links afterwards, so it loads those that the first one made.  Both have different
lists of links in hand, and in a different order.  But every key of a link is there once at most, and
both lists show the rows faithfully for the directory of the user in turn, so the user's first match
is the same.
-/

namespace Concierge

namespace Sync

variable {σ σ₁ σ₂ : Type} {key : MatchKey} {accountId : Uuid} {s s' : Store} {t t' : Tables}
  {users : List RemoteUser} {links links' : List BridgeLink} {counts counts' : Counts}

/-! ## What the links in hand matter for -/

/-- Lists of links in which every user has the same first match serve alike. -/
theorem reconcile_congr
    (h : ∀ user ∈ users, links'.find? (fun l => linkMatches key l user) =
      links.find? fun l => linkMatches key l user) (counts : Counts) :
    reconcile key accountId users links' counts = reconcile key accountId users links counts := by
  induction users generalizing links links' counts with
  | nil => rfl
  | cons user rest ih =>
    have hrest : ∀ u ∈ rest, links'.find? (fun l => linkMatches key l u) =
        links.find? fun l => linkMatches key l u := fun u hu => h u (List.mem_cons_of_mem _ hu)
    simp only [reconcile, h user List.mem_cons_self]
    cases links.find? fun link => linkMatches key link user with
    | some link => simp only [ih hrest]
    | none =>
      have hmade : ∀ (link : BridgeLink), ∀ u ∈ rest,
          (links' ++ [link]).find? (fun l => linkMatches key l u) =
            (links ++ [link]).find? fun l => linkMatches key l u := by
        intro link u hu
        rw [List.find?_append, List.find?_append, hrest u hu]
      simp only [ih (hmade _)]

/-- Counting starts wherever one likes. -/
theorem reconcile_offset (d : Counts)
    (h : reconcile key accountId users links counts s = (.ok counts', s')) :
    reconcile key accountId users links
        ⟨d.created + counts.created, d.updated + counts.updated⟩ s =
      (.ok ⟨d.created + counts'.created, d.updated + counts'.updated⟩, s') := by
  induction users generalizing links counts s with
  | nil =>
    cases h
    rfl
  | cons user rest ih =>
    cases hfind : links.find? fun link => linkMatches key link user with
    | some link =>
      simp only [reconcile, hfind] at h ⊢
      obtain ⟨_, s₁, hrefresh, hrest⟩ := Fallible.of_bind_ok h
      rw [Fallible.bind_of_ok hrefresh]
      exact ih hrest
    | none =>
      simp only [reconcile, hfind] at h ⊢
      obtain ⟨link, s₁, henroll, hrest⟩ := Fallible.of_bind_ok h
      rw [Fallible.bind_of_ok henroll]
      exact ih hrest

/-- After the first users, the others go on with the links that were loaded and those that were
made. -/
theorem reconcile_append {later : List RemoteUser} (ht : s.tables = some t)
    (hpeople : (t.people.map (·.id)).Nodup)
    (h : reconcile key accountId users links counts s = (.ok counts', s')) :
    reconcile key accountId (users ++ later) links counts s =
      reconcile key accountId later
        (links ++ made (resolve key accountId s.supply s.issued links users)) counts' s' := by
  induction users generalizing links counts s t with
  | nil =>
    cases h
    rw [List.nil_append, resolve, made_nil, List.append_nil]
  | cons user rest ih =>
    cases hfind : links.find? fun link => linkMatches key link user with
    | some link =>
      simp only [List.cons_append, reconcile, hfind] at h ⊢
      obtain ⟨_, s₁, hrefresh, hrest⟩ := Fallible.of_bind_ok h
      obtain ⟨-, ht₁, hsupply, hissued⟩ := refresh_ok ht hpeople hrefresh
      have hpeople₁ := (refreshed_ids t.people link.personId user).symm ▸ hpeople
      rw [Fallible.bind_of_ok hrefresh, ih ht₁ hpeople₁ hrest, resolve_of_match hfind,
        made_cons_old, hsupply, hissued]
    | none =>
      simp only [List.cons_append, reconcile, hfind] at h ⊢
      obtain ⟨link, s₁, henroll, hrest⟩ := Fallible.of_bind_ok h
      obtain ⟨rfl, hunused, ht₁, hsupply, hissued⟩ := enroll_ok ht henroll
      rw [Fallible.bind_of_ok henroll, ih ht₁ (Tables.nodup_append_singleton hpeople hunused) hrest, resolve_of_no_match hfind,
        made_cons_new, hsupply, hissued, List.append_assoc, List.singleton_append]

/-! ## Links that mirror rows -/

/-- Links in hand mirror the rows for a directory: each belongs to a row of the account, and every
row of the account for that directory has its link in hand. -/
structure Mirrors (accountId : Uuid) (t : Tables) (bridge : Bridge) (links : List BridgeLink) :
    Prop where
  sound : ∀ link ∈ links, link ∈ t.linksTo accountId link.bridge
  complete : t.linksTo accountId bridge ⊆ links

/-- Links of an account with the same directory and external id are the same. -/
theorem eq_of_linksTo (hk : t.Keyed) {bridge : Bridge} {x y : BridgeLink}
    (hx : x ∈ t.linksTo accountId bridge) (hy : y ∈ t.linksTo accountId bridge)
    (hexternal : x.externalId = y.externalId) : x = y := by
  obtain ⟨hxb, hxa, hxrow⟩ := Tables.mem_linksTo.1 hx
  obtain ⟨hyb, hya, hyrow⟩ := Tables.mem_linksTo.1 hy
  have hkey : Tables.linkKey (.ofLink x) = Tables.linkKey (.ofLink y) := by
    simp [Tables.linkKey, LinkRow.ofLink, hxb, hyb, hxa, hya, hexternal]
  have hrow : LinkRow.ofLink x = LinkRow.ofLink y :=
    List.inj_on_of_nodup_map hk.linkKeys hxrow hyrow hkey
  have hlink := congrArg LinkRow.toLink hrow
  rw [LinkRow.toLink_ofLink, LinkRow.toLink_ofLink] at hlink
  exact Except.ok.inj hlink

/-- Where links mirror the rows for a user's directory, the user's first match is the link to that
directory with the user's external id. -/
theorem Mirrors.find_eq_some_iff (hk : t.Keyed) {user : RemoteUser}
    (h : Mirrors accountId t user.bridge links) {link : BridgeLink} :
    links.find? (fun l => linkMatches .bridgeAndExternalId l user) = some link ↔
      link ∈ t.linksTo accountId user.bridge ∧ link.externalId = user.externalId := by
  have hmatched {x : BridgeLink}
      (hx : links.find? (fun l => linkMatches .bridgeAndExternalId l user) = some x) :
      x ∈ t.linksTo accountId user.bridge ∧ x.externalId = user.externalId := by
    have hmatch := List.find?_some hx
    simp only [linkMatches, Bool.and_eq_true, beq_iff_eq] at hmatch
    exact ⟨hmatch.1 ▸ h.sound x (List.mem_of_find?_eq_some hx), hmatch.2⟩
  refine ⟨hmatched, ?_⟩
  rintro ⟨hlink, hexternal⟩
  cases hfind : links.find? fun l => linkMatches .bridgeAndExternalId l user with
  | none =>
    have hno := List.find?_eq_none.1 hfind link (h.complete hlink)
    simp [linkMatches, (Tables.mem_linksTo.1 hlink).1, hexternal] at hno
  | some x =>
    obtain ⟨hx, hxe⟩ := hmatched hfind
    rw [eq_of_linksTo hk hx hlink (hxe.trans hexternal.symm)]

/-- Lists that both mirror the rows for a user's directory have the same first match. -/
theorem Mirrors.find_eq (hk : t.Keyed) {user : RemoteUser}
    (h : Mirrors accountId t user.bridge links) (h' : Mirrors accountId t user.bridge links') :
    links'.find? (fun l => linkMatches .bridgeAndExternalId l user) =
      links.find? fun l => linkMatches .bridgeAndExternalId l user := by
  ext link
  rw [h'.find_eq_some_iff hk, h.find_eq_some_iff hk]

/-- The links of several directories mirror the rows for each of them. -/
theorem mirrors_flatMap {bridges : List Bridge} {bridge : Bridge} (hbridge : bridge ∈ bridges) :
    Mirrors accountId t bridge (bridges.flatMap (t.linksTo accountId)) where
  sound link hlink := by
    obtain ⟨b, -, hmem⟩ := List.mem_flatMap.1 hlink
    exact (Tables.mem_linksTo.1 hmem).1 ▸ hmem
  complete _ hlink := List.mem_flatMap.2 ⟨bridge, hbridge, hlink⟩

/-- Links that mirrored the rows mirror them still when those that were made since are added. -/
theorem Mirrors.enrolled {made : List BridgeLink} {bridge : Bridge}
    (h : Mirrors accountId t bridge links) (henrolls : t.Enrolls made t')
    (hown : ∀ link ∈ made, link.accountId = accountId) :
    Mirrors accountId t' bridge (links ++ made) where
  sound link hlink := by
    refine Tables.mem_linksTo.2 ⟨rfl, ?_⟩
    rw [henrolls.links]
    rcases List.mem_append.1 hlink with hold | hnew
    · obtain ⟨-, haccount, hrow⟩ := Tables.mem_linksTo.1 (h.sound link hold)
      exact ⟨haccount, List.mem_append_left _ hrow⟩
    · exact ⟨hown link hnew, List.mem_append_right _ (List.mem_map_of_mem hnew)⟩
  complete link hlink := by
    obtain ⟨hbridge, haccount, hrow⟩ := Tables.mem_linksTo.1 hlink
    rw [henrolls.links] at hrow
    rcases List.mem_append.1 hrow with hold | hnew
    · exact List.mem_append_left _ (h.complete (Tables.mem_linksTo.2 ⟨hbridge, haccount, hold⟩))
    · obtain ⟨l, hl, hsame⟩ := List.mem_map.1 hnew
      have hlink := congrArg LinkRow.toLink hsame
      rw [LinkRow.toLink_ofLink, LinkRow.toLink_ofLink] at hlink
      exact List.mem_append_right _ (Except.ok.inj hlink ▸ hl)

/-- Users of two lists are taken over by two reconciliations as by one. -/
theorem reconcile_split {users₁ users₂ : List RemoteUser} {bridges₁ bridges₂ : List Bridge}
    {counts₁ counts₂ : Counts} {s₁ s₂ : Store} {t₁ : Tables} (ht : s.tables = some t) (hk : t.Keyed)
    (ht₁ : s₁.tables = some t₁) (hbridges₁ : ∀ user ∈ users₁, user.bridge ∈ bridges₁)
    (hbridges₂ : ∀ user ∈ users₂, user.bridge ∈ bridges₂)
    (hfirst : reconcile .bridgeAndExternalId accountId users₁
      (bridges₁.flatMap (t.linksTo accountId)) ⟨0, 0⟩ s = (.ok counts₁, s₁))
    (hsecond : reconcile .bridgeAndExternalId accountId users₂
      (bridges₂.flatMap (t₁.linksTo accountId)) ⟨0, 0⟩ s₁ = (.ok counts₂, s₂)) :
    reconcile .bridgeAndExternalId accountId (users₁ ++ users₂)
        ((bridges₁ ++ bridges₂).flatMap (t.linksTo accountId)) ⟨0, 0⟩ s =
      (.ok ⟨counts₁.created + counts₂.created, counts₁.updated + counts₂.updated⟩, s₂) := by
  let links := (bridges₁ ++ bridges₂).flatMap (t.linksTo accountId)
  let plan := resolve .bridgeAndExternalId accountId s.supply s.issued links users₁
  -- The links to the second directories are of no use to the users of the first ones.
  have hmore : reconcile .bridgeAndExternalId accountId users₁ links ⟨0, 0⟩ =
      reconcile .bridgeAndExternalId accountId users₁ (bridges₁.flatMap (t.linksTo accountId)) ⟨0, 0⟩ :=
    reconcile_congr (fun user huser => (mirrors_flatMap (hbridges₁ user huser)).find_eq hk
      (mirrors_flatMap (List.mem_append_left _ (hbridges₁ user huser)))) _
  rw [← hmore] at hfirst
  have hown : ∀ link ∈ made plan, link.accountId = accountId :=
    fun _ hlink => (mem_made_resolve hlink).1
  have henrolls : t.Enrolls (made plan) t₁ := by
    obtain ⟨-, -, htables⟩ := reconcile_ok ht hk.people hfirst
    obtain rfl := Option.some.inj (ht₁.symm.trans htables)
    exact foldl_apply_enrolls hown t
  have hk₁ : t₁.Keyed := by
    have hkeeps := reconcile_keeps_keyed .bridgeAndExternalId accountId users₁ links ⟨0, 0⟩ s
      fun t' ht' => Option.some.inj (ht.symm.trans ht') ▸ hk
    rw [hfirst] at hkeeps
    exact hkeeps t₁ ht₁
  -- To the users of the second directories, remembered links serve like those that are read again.
  have hread : reconcile .bridgeAndExternalId accountId users₂ (links ++ made plan) counts₁ =
      reconcile .bridgeAndExternalId accountId users₂ (bridges₂.flatMap (t₁.linksTo accountId)) counts₁ :=
    reconcile_congr (fun user huser => (mirrors_flatMap (hbridges₂ user huser)).find_eq hk₁
      ((mirrors_flatMap (List.mem_append_right _ (hbridges₂ user huser))).enrolled henrolls hown)) _
  rw [reconcile_append ht hk.people hfirst, hread]
  exact reconcile_offset counts₁ hsecond

/-! ## Runs -/

/-- The reconciliation of a run that succeeds. -/
theorem reconcile_of_run_ok {bridges : List Bridge} {providers : Providers σ} {account : Account}
    {w : World σ} {report : SyncReport} (h : (run key bridges providers account w).1 = .ok report) :
    let fetched := fetchAll providers account bridges w
    ∃ counts, reconcile key account.id (usersOf fetched.1) (linksOf fetched.1) ⟨0, 0⟩
        fetched.2.store = (.ok counts, (run key bridges providers account w).2.store) ∧
      report = ⟨counts.created, counts.updated, skippedOf fetched.1⟩ := by
  intro fetched
  cases hreconcile : reconcile key account.id (usersOf fetched.1) (linksOf fetched.1) ⟨0, 0⟩
      fetched.2.store with
  | mk result store =>
    cases result with
    | error e =>
      rw [run_of_commit_error (Query.transaction_of_error hreconcile)] at h
      cases h
    | ok counts =>
      rw [run_of_commit_ok (Query.transaction_of_ok hreconcile)] at h ⊢
      exact ⟨counts, rfl, (Except.ok.inj h).symm⟩

section Runs

variable {bridges₁ bridges₂ : List Bridge} {providers₁ : Providers σ₁} {providers₂ : Providers σ₂}
  {providers : Providers σ} {account : Account} {w₁ : World σ₁} {w₂ : World σ₂} {w : World σ}
  {report₁ report₂ : SyncReport}

/-- Two runs, one after the other, that both succeed. -/
structure Halves (bridges₁ bridges₂ : List Bridge) (account : Account) (providers₁ : Providers σ₁)
    (w₁ : World σ₁) (report₁ : SyncReport) (providers₂ : Providers σ₂) (w₂ : World σ₂)
    (report₂ : SyncReport) : Prop where
  keyed : ∀ t, w₁.store.tables = some t → t.Keyed
  first : (run .bridgeAndExternalId bridges₁ providers₁ account w₁).1 = .ok report₁
  next : (run .bridgeAndExternalId bridges₁ providers₁ account w₁).2.store.Agree calls w₂.store
  second : (run .bridgeAndExternalId bridges₂ providers₂ account w₂).1 = .ok report₂
  tagged₁ : Tagged (fetchAll providers₁ account bridges₁ w₁).1
  tagged₂ : Tagged (fetchAll providers₂ account bridges₂ w₂).1

/-- A run over the directories of two runs, in which all of them do what they did then. -/
structure Whole (bridges₁ bridges₂ : List Bridge) (account : Account) (providers₁ : Providers σ₁)
    (w₁ : World σ₁) (providers₂ : Providers σ₂) (w₂ : World σ₂) (providers : Providers σ)
    (w : World σ) : Prop where
  store : w₁.store.Agree calls w.store
  outcome : outcomeOf (fetchAll providers account (bridges₁ ++ bridges₂) w).1 =
    outcomeOf (fetchAll providers₁ account bridges₁ w₁).1 ++
      outcomeOf (fetchAll providers₂ account bridges₂ w₂).1

namespace Whole

variable (h : Whole bridges₁ bridges₂ account providers₁ w₁ providers₂ w₂ providers w)

include h

theorem usersOf_eq : usersOf (fetchAll providers account (bridges₁ ++ bridges₂) w).1 =
    usersOf (fetchAll providers₁ account bridges₁ w₁).1 ++
      usersOf (fetchAll providers₂ account bridges₂ w₂).1 := by
  simp only [usersOf_eq_outcome, h.outcome, List.flatMap_append]

theorem skippedOf_eq : skippedOf (fetchAll providers account (bridges₁ ++ bridges₂) w).1 =
    skippedOf (fetchAll providers₁ account bridges₁ w₁).1 ++
      skippedOf (fetchAll providers₂ account bridges₂ w₂).1 := by
  simp only [skippedOf_eq_outcome, h.outcome, List.filter_append, List.map_append]

theorem reached_eq : reached (fetchAll providers account (bridges₁ ++ bridges₂) w).1 =
    reached (fetchAll providers₁ account bridges₁ w₁).1 ++
      reached (fetchAll providers₂ account bridges₂ w₂).1 := by
  simp only [reached_eq_outcome, h.outcome, List.filter_append, List.map_append]

end Whole

/-- The reconciliation of the single run does what those of the two runs do. -/
theorem Whole.reconcile_eq {counts₁ counts₂ : Counts} {s₁ s₂ : Store}
    (h : Whole bridges₁ bridges₂ account providers₁ w₁ providers₂ w₂ providers w)
    (hkeyed : ∀ t, w₁.store.tables = some t → t.Keyed)
    (htagged₁ : Tagged (fetchAll providers₁ account bridges₁ w₁).1)
    (htagged₂ : Tagged (fetchAll providers₂ account bridges₂ w₂).1)
    (htables : w₂.store.tables = s₁.tables)
    (hfirst : reconcile .bridgeAndExternalId account.id
      (usersOf (fetchAll providers₁ account bridges₁ w₁).1)
      (linksOf (fetchAll providers₁ account bridges₁ w₁).1) ⟨0, 0⟩
      (fetchAll providers₁ account bridges₁ w₁).2.store = (.ok counts₁, s₁))
    (hsecond : reconcile .bridgeAndExternalId account.id
      (usersOf (fetchAll providers₂ account bridges₂ w₂).1)
      (linksOf (fetchAll providers₂ account bridges₂ w₂).1) ⟨0, 0⟩ s₁ = (.ok counts₂, s₂)) :
    reconcile .bridgeAndExternalId account.id
        (usersOf (fetchAll providers account (bridges₁ ++ bridges₂) w).1)
        (linksOf (fetchAll providers account (bridges₁ ++ bridges₂) w).1) ⟨0, 0⟩
        (fetchAll providers₁ account bridges₁ w₁).2.store =
      (.ok ⟨counts₁.created + counts₂.created, counts₁.updated + counts₂.updated⟩, s₂) := by
  have hfetched := (fetchAll_countedFrom providers₁ account bridges₁ w₁).tables
  rw [h.usersOf_eq]
  cases ht : w₁.store.tables with
  | none =>
    -- Nothing is reached in either run, so there is nobody to take over.
    have hnone₁ := usersOf_of_nothing_reached
      (reached_of_no_tables providers₁ account bridges₁ ht)
    rw [hnone₁] at hfirst ⊢
    cases hfirst
    have hnone₂ := usersOf_of_nothing_reached
      (reached_of_no_tables providers₂ account bridges₂ (htables.trans (hfetched.trans ht)))
    rw [hnone₂] at hsecond ⊢
    cases hsecond
    rfl
  | some t =>
    have hk := hkeyed t ht
    obtain ⟨-, -, ht₁⟩ := reconcile_ok (hfetched.trans ht) hk.people hfirst
    rw [linksOf_eq_flatMap ht] at hfirst
    rw [linksOf_eq_flatMap (htables.trans ht₁)] at hsecond
    rw [linksOf_eq_flatMap (h.store.tables.trans ht), h.reached_eq]
    exact reconcile_split (hfetched.trans ht) hk ht₁ htagged₁.bridge_mem htagged₂.bridge_mem
      hfirst hsecond

/-- The single run ends as the two runs do together. -/
theorem Halves.run_whole
    (h : Halves bridges₁ bridges₂ account providers₁ w₁ report₁ providers₂ w₂ report₂)
    (hwhole : Whole bridges₁ bridges₂ account providers₁ w₁ providers₂ w₂ providers w) :
    (run .bridgeAndExternalId (bridges₁ ++ bridges₂) providers account w).1 =
        .ok ⟨report₁.created + report₂.created, report₁.updated + report₂.updated,
          report₁.skippedBridges ++ report₂.skippedBridges⟩ ∧
      (run .bridgeAndExternalId bridges₂ providers₂ account w₂).2.store.Agree calls
        (run .bridgeAndExternalId (bridges₁ ++ bridges₂) providers account w).2.store := by
  have hreconciles {users : List RemoteUser} {links : List BridgeLink} :=
    respects_reconcile (List.Subset.refl calls) .bridgeAndExternalId account.id users links ⟨0, 0⟩
  obtain ⟨counts₁, hfirst, rfl⟩ := reconcile_of_run_ok h.first
  obtain ⟨counts₂, hsecond, rfl⟩ := reconcile_of_run_ok h.second
  -- The second reconciliation might as well have started where the first one ended.
  have hbetween := h.next.trans (fetchAll_agree findLinks_not_mem_calls providers₂ account bridges₂ w₂)
  obtain ⟨s₂, hsecond', hend⟩ := hreconciles.of_eq hbetween.symm hsecond
  have hboth := hwhole.reconcile_eq h.keyed h.tagged₁ h.tagged₂ h.next.tables hfirst hsecond'
  have hstart := ((fetchAll_agree findLinks_not_mem_calls providers₁ account bridges₁ w₁).symm.trans
    hwhole.store).trans
      (fetchAll_agree findLinks_not_mem_calls providers account (bridges₁ ++ bridges₂) w)
  obtain ⟨s₃, hwhole', hend'⟩ := hreconciles.of_eq hstart hboth
  rw [run_of_commit_ok (Query.transaction_of_ok hwhole'), hwhole.skippedOf_eq]
  exact ⟨rfl, hend.trans hend'⟩

/-- Where the first of two runs had no rows, the second one has none. -/
theorem Halves.no_tables
    (h : Halves bridges₁ bridges₂ account providers₁ w₁ report₁ providers₂ w₂ report₂)
    (ht : w₁.store.tables = none) : w₂.store.tables = none := by
  obtain ⟨counts₁, hfirst, -⟩ := reconcile_of_run_ok h.first
  rw [usersOf_of_nothing_reached (reached_of_no_tables _ _ _ ht)] at hfirst
  have hstore := (Prod.mk.inj hfirst).2
  rw [h.next.tables, ← hstore, (fetchAll_countedFrom providers₁ account bridges₁ w₁).tables, ht]

/-- After two runs there is a single one in which every directory does what it did then. -/
theorem Halves.exists_whole
    (h : Halves bridges₁ bridges₂ account providers₁ w₁ report₁ providers₂ w₂ report₂) :
    ∃ w : World (List (Option (List RemoteUser))),
      Whole bridges₁ bridges₂ account providers₁ w₁ providers₂ w₂ scripted w := by
  have htables : ∀ bridge users, (bridge, some users) ∈
      outcomeOf (fetchAll providers₁ account bridges₁ w₁).1 ++
        outcomeOf (fetchAll providers₂ account bridges₂ w₂).1 → ∃ t, w₁.store.tables = some t := by
    intro bridge users hmem
    rcases List.mem_append.1 hmem with hfirst | hsecond
    · exact exists_tables_of_outcome hfirst
    · obtain ⟨t₂, ht₂⟩ := exists_tables_of_outcome hsecond
      cases ht : w₁.store.tables with
      | none => cases ht₂.symm.trans (h.no_tables ht)
      | some t => exact ⟨t, rfl⟩
  obtain ⟨w, hstore, houtcome⟩ := exists_outcome account _ w₁.store htables
  rw [List.map_append, outcomeOf_bridges, outcomeOf_bridges] at houtcome
  exact ⟨w, hstore, houtcome⟩

/-- Under matching by directory and external id, one run over several directories comes to the same
as separate runs.  If a run over some directories and then a run over others succeed, then any single
run over all of them in which every directory does what it did then, and there is one, succeeds too,
leaves the same rows, and reports the sums of the counts and first what the one and then what the
other run skipped. -/
theorem run_split
    (h : Halves bridges₁ bridges₂ account providers₁ w₁ report₁ providers₂ w₂ report₂) :
    (∃ w : World (List (Option (List RemoteUser))),
        Whole bridges₁ bridges₂ account providers₁ w₁ providers₂ w₂ scripted w) ∧
      ∀ {σ : Type} (providers : Providers σ) (w : World σ),
        Whole bridges₁ bridges₂ account providers₁ w₁ providers₂ w₂ providers w →
          (run .bridgeAndExternalId (bridges₁ ++ bridges₂) providers account w).1 =
              .ok ⟨report₁.created + report₂.created, report₁.updated + report₂.updated,
                report₁.skippedBridges ++ report₂.skippedBridges⟩ ∧
            (run .bridgeAndExternalId bridges₂ providers₂ account w₂).2.store.Agree calls
              (run .bridgeAndExternalId (bridges₁ ++ bridges₂) providers account w).2.store := by
  exact ⟨h.exists_whole, fun _ _ hwhole => h.run_whole hwhole⟩

/-! ### A directory in both runs

It gives somebody who is enrolled in the first run and refreshed in the second. -/

/-- The world after a run over two directories. -/
def sampleHalfway : World Unit :=
  (run .bridgeAndExternalId [.hub, .hipchat] sampleProviders sampleAccount sampleWorld).2

theorem sample_halves : Halves [.hub, .hipchat] [.slack, .hub] sampleAccount sampleProviders
    sampleWorld ⟨1, 1, [.hipchat]⟩ sampleProviders sampleHalfway ⟨2, 2, []⟩ where
  keyed t ht := by
    obtain rfl := Option.some.inj ht
    exact sample_undisturbed.keyed
  first := by decide +kernel
  next := by
    rw [sampleHalfway]
    exact .refl _ _
  second := by decide +kernel
  tagged₁ := by decide +kernel
  tagged₂ := by decide +kernel

theorem run_split_sample :
    (run .bridgeAndExternalId ([.hub, .hipchat] ++ [.slack, .hub]) sampleProviders sampleAccount
        sampleWorld).1 = .ok ⟨3, 3, [.hipchat]⟩ ∧
      (run .bridgeAndExternalId [.slack, .hub] sampleProviders sampleAccount
          sampleHalfway).2.store.Agree calls
        (run .bridgeAndExternalId ([.hub, .hipchat] ++ [.slack, .hub]) sampleProviders sampleAccount
          sampleWorld).2.store := by
  have hwhole : Whole [.hub, .hipchat] [.slack, .hub] sampleAccount sampleProviders sampleWorld
      sampleProviders sampleHalfway sampleProviders sampleWorld :=
    ⟨.refl _ _, by decide +kernel⟩
  exact (run_split sample_halves).2 sampleProviders sampleWorld hwhole

end Runs

end Sync

end Concierge
