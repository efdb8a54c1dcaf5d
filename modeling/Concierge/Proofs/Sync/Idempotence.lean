import Concierge.Proofs.Directory.Users
import Concierge.Proofs.Sync.LastWriteWins

/-!
# Repeating a run

A run that is repeated on the rows that it left finds a link for every user, because it made one for
everybody who had none.  The links are loaded in another order the second time, by directory and not
as they were made, but a user's first match is the same: either all matches were there before, and
kept their order, or there is just the one that was made.

The second run may still take over phone numbers, which are not taken over when a person is made.
Nothing is left to change after that.
-/

namespace Concierge

namespace Sync

variable {σ : Type} {key : MatchKey} {bridges : List Bridge} {providers providers' : Providers σ}
  {account : Account} {w w' : World σ} {t : Tables}

/-! ## Loading the links again -/

/-- A link that was added is loaded as it was made, for its directory alone. -/
theorem filter_isLinkTo_ofLink {accountId : Uuid} {links : List BridgeLink}
    (haccount : ∀ link ∈ links, link.accountId = accountId) (bridge : Bridge) :
    ((links.map LinkRow.ofLink).filter (Tables.isLinkTo accountId bridge)).map (fun row =>
      (⟨row.id, row.accountId, row.personId, bridge, row.externalId⟩ : BridgeLink)) =
        links.filter (·.bridge == bridge) := by
  have hsame : ∀ link ∈ links, (Tables.isLinkTo accountId bridge ∘ LinkRow.ofLink) link =
      (link.bridge == bridge) := by
    intro link hlink
    have hid : (link.bridge.id == bridge.id) = (link.bridge == bridge) :=
      Bool.eq_iff_iff.2 (by simpa using ⟨Bridge.id_injective, fun h => h ▸ rfl⟩)
    simp [Tables.isLinkTo, LinkRow.ofLink, haccount link hlink, hid]
  rw [List.filter_map, List.filter_congr hsame, List.map_map]
  refine (List.map_congr_left fun link hlink => ?_).trans (List.map_id _)
  have hbridge : link.bridge = bridge := by simpa using (List.mem_filter.1 hlink).2
  subst hbridge
  rfl

/-- Links that were made are loaded after those that were there, directory by directory. -/
theorem linksTo_settled {plan : List Resolution}
    (haccount : ∀ link ∈ made plan, link.accountId = account.id) (bridge : Bridge) :
    (settled account.id plan t).linksTo account.id bridge =
      t.linksTo account.id bridge ++ (made plan).filter (·.bridge == bridge) := by
  rw [Tables.linksTo, settled, List.filter_append, List.map_append,
    filter_isLinkTo_ofLink haccount]
  rfl

/-- What is loaded again is what was loaded and what was made. -/
theorem mem_reloaded {plan : List Resolution} {reachable : List Bridge}
    (haccount : ∀ link ∈ made plan, link.accountId = account.id)
    (hreachable : ∀ link ∈ made plan, link.bridge ∈ reachable) {l : BridgeLink} :
    l ∈ reachable.flatMap ((settled account.id plan t).linksTo account.id) ↔
      l ∈ reachable.flatMap (t.linksTo account.id) ++ made plan := by
  simp only [List.mem_append, List.mem_flatMap, linksTo_settled haccount, List.mem_filter, beq_iff_eq]
  constructor
  · rintro ⟨bridge, hbridge, hold | ⟨hnew, -⟩⟩
    · exact .inl ⟨bridge, hbridge, hold⟩
    · exact .inr hnew
  · rintro (⟨bridge, hbridge, hold⟩ | hnew)
    · exact ⟨bridge, hbridge, .inl hold⟩
    · exact ⟨l.bridge, hreachable l hnew, .inr ⟨hnew, rfl⟩⟩

/-- A user's first match is the same among all links in the order in which they were made and in the
order in which they are loaded again. -/
theorem find_reloaded {plan : List Resolution} {reachable : List Bridge}
    (haccount : ∀ link ∈ made plan, link.accountId = account.id)
    (hreachable : ∀ link ∈ made plan, link.bridge ∈ reachable)
    (honly : ∀ x ∈ made plan, ∀ y ∈ reachable.flatMap (t.linksTo account.id) ++ made plan, ∀ user,
      linkMatches key x user = true → linkMatches key y user = true → y = x)
    {user : RemoteUser} {link : BridgeLink}
    (hfind : (reachable.flatMap (t.linksTo account.id) ++ made plan).find?
      (fun l => linkMatches key l user) = some link) :
    (reachable.flatMap ((settled account.id plan t).linksTo account.id)).find?
      (fun l => linkMatches key l user) = some link := by
  have hmatch : linkMatches key link user = true := by simpa using List.find?_some hfind
  have hlink := List.mem_of_find?_eq_some hfind
  by_cases hmade : ∃ x ∈ made plan, linkMatches key x user = true
  · -- There is just one match, wherever it stands.
    obtain ⟨x, hx, hxuser⟩ := hmade
    obtain rfl := honly x hx link hlink user hxuser hmatch
    cases hagain : (reachable.flatMap ((settled account.id plan t).linksTo account.id)).find?
        (fun l => linkMatches key l user) with
    | none =>
      have hreloaded := (mem_reloaded haccount hreachable).2 hlink
      simpa [hmatch] using List.find?_eq_none.1 hagain link hreloaded
    | some y =>
      have hyuser : linkMatches key y user = true := by simpa using List.find?_some hagain
      have hy := (mem_reloaded haccount hreachable).1 (List.mem_of_find?_eq_some hagain)
      rw [honly link hx y hy user hxuser hyuser]
  · -- All matches were there before, and their order is that of the directories.
    have hnone : (made plan).filter (fun l => linkMatches key l user) = [] := by
      rw [List.filter_eq_nil_iff]
      exact fun l hl hmatch => hmade ⟨l, hl, hmatch⟩
    have hsame : (reachable.flatMap ((settled account.id plan t).linksTo account.id)).filter
        (fun l => linkMatches key l user) =
          (reachable.flatMap (t.linksTo account.id) ++ made plan).filter
            (fun l => linkMatches key l user) := by
      rw [List.filter_append, hnone, List.append_nil, List.filter_flatMap, List.filter_flatMap]
      congr 1
      funext bridge
      rw [linksTo_settled haccount, List.filter_append, List.filter_comm, hnone, List.filter_nil,
        List.append_nil]
    rw [← List.head?_filter, hsame, List.head?_filter, hfind]

/-! ## The plan of a repeated run -/

/-- A plan whose users all have links by now. -/
def again (plan : List Resolution) : List Resolution := plan.map fun r => { r with isNew := false }

@[simp] theorem created_again (plan : List Resolution) : created (again plan) = [] := by
  simp [created, again]

@[simp] theorem made_again (plan : List Resolution) : made (again plan) = [] := by simp [made]

@[simp] theorem again_again (plan : List Resolution) : again (again plan) = again plan := by
  simp [again]

@[simp] theorem usersFor_again (plan : List Resolution) (id : Uuid) :
    usersFor (again plan) id = usersFor plan id := by
  induction plan with
  | nil => rfl
  | cons r rest ih =>
    rw [again, List.map_cons, usersFor_cons, usersFor_cons]
    exact congrArg (fun users => if r.link.personId = id then r.user :: users else users) ih

@[simp] theorem tally_again (plan : List Resolution) : tally (again plan) = ⟨0, plan.length⟩ := by
  simp [tally, again, List.countP_map, Function.comp_def]

/-- Settling a plan again writes the same users over everybody who is there. -/
theorem settled_again (accountId : Uuid) (plan : List Resolution) (t : Tables) :
    settled accountId (again plan) t =
      { t with people := t.people.map fun p => overwritten p (usersFor plan p.id) } := by
  simp [settled]

/-- What a run makes belongs to its account. -/
theorem accountId_of_made {link : BridgeLink}
    (h : link ∈ made (planOf key bridges providers account w)) : link.accountId = account.id :=
  (mem_made_resolve h).1

/-- A link that a run makes is the only one in hand that matches whom it matches. -/
theorem eq_of_made {x y : BridgeLink} {user : RemoteUser}
    (hx : x ∈ made (planOf key bridges providers account w))
    (hy : y ∈ linksOf (fetchAll providers account bridges w).1 ++
      made (planOf key bridges providers account w))
    (hxuser : linkMatches key x user = true) (hyuser : linkMatches key y user = true) : y = x :=
  eq_of_made_resolve hx hy hxuser hyuser

/-- A run resolves everybody by the first match among all links in hand. -/
theorem find_of_mem_planOf {r : Resolution} (h : r ∈ planOf key bridges providers account w) :
    (linksOf (fetchAll providers account bridges w).1 ++
      made (planOf key bridges providers account w)).find?
        (fun l => linkMatches key l r.user) = some r.link :=
  find_of_mem_resolve h

/-- What a run makes belongs to directories that were reached. -/
theorem Undisturbed.made_reached (h : Undisturbed key bridges providers account w t) :
    ∀ link ∈ made (planOf key bridges providers account w),
      link.bridge ∈ reached (fetchAll providers account bridges w).1 := by
  intro link hlink
  obtain ⟨-, user, huser, hbridge, -⟩ := mem_made_resolve hlink
  exact hbridge ▸ h.bridge_mem user huser

/-- A later state on the rows that a run left, in which the run can be repeated: no call is refused
and the directories give the same. -/
structure Repeatable (key : MatchKey) (bridges : List Bridge) (account : Account)
    (providers : Providers σ) (w : World σ) (providers' : Providers σ) (w' : World σ) : Prop where
  tables : w'.store.tables = (run key bridges providers account w).2.store.tables
  unrefused : Unrefused w'.store
  outcome : outcomeOf (fetchAll providers' account bridges w').1 =
    outcomeOf (fetchAll providers account bridges w).1

namespace Repeatable

/-- The rows are those that the plan of the first run amounts to. -/
theorem tables_eq (h : Undisturbed key bridges providers account w t)
    (hrepeat : Repeatable key bridges account providers w providers' w') :
    w'.store.tables =
      some (settled account.id (planOf key bridges providers account w) t) := by
  rw [hrepeat.tables, h.run_tables]

/-- A repeated run loads the links of the first one, and those that it made. -/
theorem mem_linksOf (h : Undisturbed key bridges providers account w t)
    (hrepeat : Repeatable key bridges account providers w providers' w') {link : BridgeLink} :
    link ∈ linksOf (fetchAll providers' account bridges w').1 ↔
      link ∈ linksOf (fetchAll providers account bridges w).1 ++
        made (planOf key bridges providers account w) := by
  rw [linksOf_eq_flatMap (hrepeat.tables_eq h), linksOf_eq_flatMap h.tables,
    reached_congr hrepeat.outcome]
  exact mem_reloaded (fun _ => accountId_of_made) h.made_reached

/-- A repeated run resolves everybody as the first one did. -/
theorem find_link (h : Undisturbed key bridges providers account w t)
    (hrepeat : Repeatable key bridges account providers w providers' w') :
    ∀ r ∈ planOf key bridges providers account w,
      (linksOf (fetchAll providers' account bridges w').1).find?
        (fun l => linkMatches key l r.user) = some r.link := by
  intro r hr
  have hfirst := find_of_mem_planOf hr
  rw [linksOf_eq_flatMap h.tables] at hfirst
  rw [linksOf_eq_flatMap (hrepeat.tables_eq h), reached_congr hrepeat.outcome]
  refine find_reloaded (fun _ => accountId_of_made) h.made_reached ?_ hfirst
  intro x hx y hy user hxuser hyuser
  rw [← linksOf_eq_flatMap h.tables] at hy
  exact eq_of_made hx hy hxuser hyuser

/-- The plan of a repeated run leads everybody where the first one did, and makes nobody. -/
theorem planOf_eq (h : Undisturbed key bridges providers account w t)
    (hrepeat : Repeatable key bridges account providers w providers' w') :
    planOf key bridges providers' account w' = again (planOf key bridges providers account w) := by
  have husers : usersOf (fetchAll providers' account bridges w').1 =
      (planOf key bridges providers account w).map (·.user) := by
    rw [usersOf_congr hrepeat.outcome]
    exact (resolve_users _ _ _ _ _ _).symm
  rw [planOf, husers]
  exact resolve_of_matched (hrepeat.find_link h)

/-- Nothing disturbs a repeated run. -/
theorem undisturbed (h : Undisturbed key bridges providers account w t)
    (hrepeat : Repeatable key bridges account providers w providers' w') :
    Undisturbed key bridges providers' account w'
      (settled account.id (planOf key bridges providers account w) t) where
  tables := hrepeat.tables_eq h
  keyed := h.settled_keyed
  unrefused := hrepeat.unrefused
  tagged := by
    rintro ⟨bridge, _⟩ hfound c rfl user huser
    have hmem : (bridge, some c.users) ∈ outcomeOf (fetchAll providers' account bridges w').1 :=
      List.mem_map.2 ⟨_, hfound, rfl⟩
    rw [hrepeat.outcome] at hmem
    obtain ⟨⟨_, found⟩, hfirst, heq⟩ := List.mem_map.1 hmem
    obtain ⟨rfl, husers⟩ := Prod.mk.inj heq
    obtain ⟨c', rfl, hsame⟩ := Option.map_eq_some_iff.1 husers
    exact h.tagged _ hfirst c' rfl user (hsame ▸ huser)
  grounded link hlink := h.grounded_settled link ((hrepeat.mem_linksOf h).1 hlink)
  fresh := by
    rw [hrepeat.planOf_eq h, made_again]
    exact ⟨List.nodup_nil, List.nodup_nil, by simp, by simp⟩

end Repeatable

/-! ## Nothing left to change -/

/-- Of several users written over a person, the first one leaves no trace. -/
theorem overwritten_of_later (p : Person) (user : RemoteUser) {later : List RemoteUser}
    (h : later ≠ []) : overwritten p (user :: later) = overwritten p later := by
  obtain ⟨next, rest, rfl⟩ := List.exists_cons_of_ne_nil h
  rw [overwritten, List.getLast?_cons_cons, overwritten]

/-- Writing the same users over a person again changes nothing. -/
theorem overwritten_overwritten (p : Person) (users : List RemoteUser) :
    overwritten (overwritten p users) users = overwritten p users := by
  cases hlast : users.getLast? with
  | none => simp [overwritten, hlast]
  | some user => simp [overwritten, hlast]

/-- Once everybody has been written over, repeating the plan changes nothing. -/
theorem settled_again_again (accountId : Uuid) (plan : List Resolution) (t : Tables) :
    settled accountId (again plan) (settled accountId (again plan) t) =
      settled accountId (again plan) t := by
  simp only [settled_again, List.map_map]
  congr 1
  apply List.map_congr_left
  intro p _
  simp only [Function.comp_apply, overwritten_id, overwritten_overwritten]

/-- Whoever was made for a user without a phone number is as the users of the plan say. -/
theorem overwritten_born {accountId : Uuid} {ids : List Uuid} {plan : List Resolution}
    (hsound : Sound ids plan) {r : Resolution} (hr : r ∈ created plan)
    (hphone : r.user.phoneNumber = "") :
    overwritten (born accountId plan r) (usersFor plan r.link.personId) = born accountId plan r := by
  obtain ⟨later, hlater⟩ := hsound.usersFor_created hr
  rw [born, hlater, List.tail_cons]
  cases later with
  | nil => simp [overwritten, hphone]
  | cons next rest => rw [overwritten_of_later _ _ (List.cons_ne_nil _ _), overwritten_overwritten]

/-- Without phone numbers, a plan that was carried out leaves nothing to be changed. -/
theorem settled_again_settled {accountId : Uuid} {plan : List Resolution} {t : Tables}
    (hsound : Sound (t.people.map (·.id)) plan) (hphone : ∀ r ∈ plan, r.user.phoneNumber = "") :
    settled accountId (again plan) (settled accountId plan t) = settled accountId plan t := by
  have hpeople : ∀ p ∈ (settled accountId plan t).people, overwritten p (usersFor plan p.id) = p := by
    intro p hp
    rcases List.mem_append.1 hp with hold | hnew
    · obtain ⟨q, -, rfl⟩ := List.mem_map.1 hold
      rw [overwritten_id, overwritten_overwritten]
    · obtain ⟨r, hr, rfl⟩ := List.mem_map.1 hnew
      have hid : (born accountId plan r).id = r.link.personId := by simp [born]
      rw [hid]
      exact overwritten_born hsound hr (hphone r (List.mem_filter.1 hr).1)
  rw [settled_again, (List.map_congr_left hpeople).trans (List.map_id' _)]

/-- Repeating an undisturbed run on the rows that it left makes nobody, and reports everybody as
refreshed.  It changes nothing at all if no user has a phone number, and none that the directories
on the network give has one.  Repeating it once more changes nothing in any case. -/
theorem run_idempotent {providers₁ providers₂ providers₃ : Providers σ} {w₁ w₂ w₃ : World σ}
    (h : Undisturbed key bridges providers₁ account w₁ t)
    (hsecond : Repeatable key bridges account providers₁ w₁ providers₂ w₂)
    (hthird : Repeatable key bridges account providers₂ w₂ providers₃ w₃) :
    let fetched := (fetchAll providers₁ account bridges w₁).1
    let report : SyncReport := ⟨0, (usersOf fetched).length, skippedOf fetched⟩
    let first := run key bridges providers₁ account w₁
    let second := run key bridges providers₂ account w₂
    let third := run key bridges providers₃ account w₃
    ∃ t₁ t₂, first.2.store.tables = some t₁ ∧ second.2.store.tables = some t₂ ∧
      third.2.store.tables = some t₂ ∧ second.1 = .ok report ∧ third.1 = .ok report ∧
      t₂.people.map (·.id) = t₁.people.map (·.id) ∧ t₂.links = t₁.links ∧
      ((∀ user ∈ usersOf fetched, user.phoneNumber = "") → t₂ = t₁) ∧
      ∀ (settings : ProviderSettings) bridge, Fallible.Yields (settings.users account bridge)
        fun users => ∀ user ∈ users, user.phoneNumber = "" := by
  intro fetched report first second third
  have hagain := hsecond.planOf_eq h
  have hundisturbed := hsecond.undisturbed h
  have hundisturbed₃ := hthird.undisturbed hundisturbed
  have hagain₃ := hthird.planOf_eq hundisturbed
  rw [hagain, again_again] at hagain₃
  rw [hagain] at hundisturbed₃
  have husers : (planOf key bridges providers₁ account w₁).map (·.user) = usersOf fetched :=
    resolve_users _ _ _ _ _ _
  have hlength : (planOf key bridges providers₁ account w₁).length = (usersOf fetched).length := by
    rw [← husers, List.length_map]
  have hskipped := skippedOf_congr hsecond.outcome
  have hsecond₁ := hundisturbed.run_report
  rw [hagain, tally_again, hlength, hskipped] at hsecond₁
  have hsecond₂ := hundisturbed.run_tables
  rw [hagain] at hsecond₂
  have hthird₁ := hundisturbed₃.run_report
  rw [hagain₃, tally_again, hlength, skippedOf_congr hthird.outcome, hskipped] at hthird₁
  have hthird₂ := hundisturbed₃.run_tables
  rw [hagain₃, settled_again_again] at hthird₂
  refine ⟨_, _, h.run_tables, hsecond₂, hthird₂, hsecond₁, hthird₁, ?_, ?_, ?_, ?_⟩
  · simp [settled_again]
  · rw [settled_again]
  · intro hphone
    refine settled_again_settled h.sound fun r hr => hphone r.user ?_
    rw [← husers]
    exact List.mem_map_of_mem hr
  · intro settings bridge o users o' hgiven user huser
    exact (settings.users_yields account bridge o users o' hgiven user huser).2

/-- The world after the sample run. -/
def sampleWorld₂ : World Unit :=
  (run .externalId sampleBridges sampleProviders sampleAccount sampleWorld).2

/-- The world after the sample run was repeated. -/
def sampleWorld₃ : World Unit :=
  (run .externalId sampleBridges sampleProviders sampleAccount sampleWorld₂).2

theorem sample_repeatable : Repeatable .externalId sampleBridges sampleAccount
    sampleProviders sampleWorld sampleProviders sampleWorld₂ where
  tables := by rw [sampleWorld₂]
  unrefused := by
    unfold Unrefused
    decide +kernel
  outcome := by decide +kernel

theorem sample_repeatable_again : Repeatable .externalId sampleBridges sampleAccount
    sampleProviders sampleWorld₂ sampleProviders sampleWorld₃ where
  tables := by rw [sampleWorld₃]
  unrefused := by
    unfold Unrefused
    decide +kernel
  outcome := by decide +kernel

theorem run_idempotent_sample :
    (run .externalId sampleBridges sampleProviders sampleAccount sampleWorld₂).1 =
        .ok ⟨0, 4, [.hipchat]⟩ ∧
      (run .externalId sampleBridges sampleProviders sampleAccount sampleWorld₃).2.store.tables =
        (run .externalId sampleBridges sampleProviders sampleAccount sampleWorld₂).2.store.tables := by
  have husers : (usersOf (fetchAll sampleProviders sampleAccount sampleBridges sampleWorld).1).length =
      4 := by decide
  have hskipped : skippedOf (fetchAll sampleProviders sampleAccount sampleBridges sampleWorld).1 =
      [.hipchat] := by decide
  obtain ⟨t₁, t₂, -, hsecond, hthird, hreport, -⟩ :=
    run_idempotent sample_undisturbed sample_repeatable sample_repeatable_again
  rw [husers, hskipped] at hreport
  exact ⟨hreport, hthird.trans hsecond.symm⟩

end Sync

end Concierge
