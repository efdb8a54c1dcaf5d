import Concierge.Proofs.History
import Concierge.Proofs.Sync.Idempotence

/-!
# External ids as names of people

If users are recognized by their external id alone, an external id ought to name one person of the
account, whatever directory it came from.  But a directory that cannot be reached contributes no
links, so a user of another directory who was linked through it is not recognized and made once more.

That is the only way in which it goes wrong: external ids name one person at all times exactly if no
run that succeeds overlooks all links of a user in this way.
-/

namespace Concierge

namespace Sync

open History

variable {σ : Type} {t t' : Tables} {w : World σ} {accountId : Uuid}

/-- No two links of an account with one external id lead to different people. -/
def Unambiguous (accountId : Uuid) (t : Tables) : Prop :=
  ∀ x ∈ t.links, ∀ y ∈ t.links, x.accountId = accountId → y.accountId = accountId →
    x.externalId = y.externalId → x.personId = y.personId

/-- The account has links with the external id of a user, but none to a directory that was reached. -/
def Overlooked (accountId : Uuid) (t : Tables) (fetched : List (Bridge × Option Contribution))
    (user : RemoteUser) : Prop :=
  (∃ row ∈ t.links, row.accountId = accountId ∧ row.externalId = user.externalId) ∧
    ∀ row ∈ t.links, row.accountId = accountId → row.externalId = user.externalId →
      ∀ bridge ∈ reached fetched, row.bridgeId ≠ bridge.id

/-! ## One run -/

/-- What is loaded are the links of the account to the directories that were reached. -/
theorem mem_linksOf_fetchAll {providers : Providers σ} {account : Account} {bridges : List Bridge}
    (ht : w.store.tables = some t) {link : BridgeLink} :
    link ∈ linksOf (fetchAll providers account bridges w).1 ↔
      link.bridge ∈ reached (fetchAll providers account bridges w).1 ∧
        link.accountId = account.id ∧ .ofLink link ∈ t.links := by
  rw [linksOf_eq_flatMap ht]
  simp only [List.mem_flatMap, Tables.mem_linksTo]
  constructor
  · rintro ⟨bridge, hbridge, rfl, hlink⟩
    exact ⟨hbridge, hlink⟩
  · rintro ⟨hbridge, hlink⟩
    exact ⟨link.bridge, hbridge, rfl, hlink⟩

/-- A user is overlooked if the account has links with their external id and none is loaded. -/
theorem overlooked_iff {providers : Providers σ} {account : Account} {bridges : List Bridge}
    (ht : w.store.tables = some t) {user : RemoteUser} :
    Overlooked account.id t (fetchAll providers account bridges w).1 user ↔
      (∃ row ∈ t.links, row.accountId = account.id ∧ row.externalId = user.externalId) ∧
        ∀ link ∈ linksOf (fetchAll providers account bridges w).1,
          link.externalId ≠ user.externalId := by
  refine and_congr_right fun _ => ⟨fun h link hlink hsame => ?_, fun h row hrow haccount hsame => ?_⟩
  · obtain ⟨hbridge, haccount, hrow⟩ := (mem_linksOf_fetchAll ht).1 hlink
    exact h _ hrow haccount hsame _ hbridge rfl
  · intro bridge hbridge hid
    refine h ⟨row.id, row.accountId, row.personId, bridge, row.externalId⟩ ?_ hsame
    refine (mem_linksOf_fetchAll ht).2 ⟨hbridge, haccount, ?_⟩
    rw [LinkRow.ofLink, ← hid]
    exact hrow

section Enrolment

variable {supply : Nat → Uuid} {n : Nat} {links : List BridgeLink} {users : List RemoteUser}

/-- Somebody who was made was not there before. -/
theorem personId_not_mem_of_made {made : List BridgeLink} (h : t.Enrolls made t') (hk : t'.Keyed)
    {link : BridgeLink} (hlink : link ∈ made) : ∀ p ∈ t.people, p.id ≠ link.personId := by
  have hids : t'.people.map (·.id) = t.people.map (·.id) ++ made.map (·.personId) := by
    have hkeys := congrArg (List.map Prod.fst) h.people
    simpa [List.map_map, Function.comp_def, Tables.personKey, Tables.target] using hkeys
  have hnodup := hk.people
  rw [hids] at hnodup
  exact fun p hp => (List.nodup_append.1 hnodup).2.2 _ (List.mem_map_of_mem hp) _
    (List.mem_map_of_mem hlink)

/-- If a user's external id has links and none is in hand, a second person is made for it. -/
theorem not_unambiguous_of_overlooked (hi : t.Intact) (hk : t'.Keyed)
    (henrolls : t.Enrolls (made (resolve .externalId accountId supply n links users)) t')
    {user : RemoteUser} (huser : user ∈ users) {row : LinkRow} (hrow : row ∈ t.links)
    (haccount : row.accountId = accountId) (hsame : row.externalId = user.externalId)
    (hnone : ∀ link ∈ links, link.externalId ≠ user.externalId) : ¬ Unambiguous accountId t' := by
  intro hone
  rw [← resolve_users .externalId accountId supply n links users] at huser
  obtain ⟨r, hr, rfl⟩ := List.mem_map.1 huser
  have hfind := find_of_mem_resolve hr
  have hmatches : r.link.externalId = r.user.externalId := by
    simpa [linkMatches] using List.find?_some hfind
  have hmade : r.link ∈ made (resolve .externalId accountId supply n links users) :=
    (List.mem_append.1 (List.mem_of_find?_eq_some hfind)).resolve_left fun hloaded =>
      hnone _ hloaded hmatches
  have hperson : row.personId = r.link.personId := by
    refine hone row (henrolls.grows.links.subset hrow) (.ofLink r.link) ?_ haccount
      (mem_made_resolve hmade).1 (hsame.trans hmatches.symm)
    rw [henrolls.links]
    exact List.mem_append_right _ (List.mem_map_of_mem hmade)
  obtain ⟨p, hp, hid, -⟩ := hi.grounded row hrow
  exact personId_not_mem_of_made henrolls hk hmade p hp (hid.trans hperson)

/-- Every user whose external id the account has links with has one in hand. -/
def AllSeen (accountId : Uuid) (t : Tables) (links : List BridgeLink) (users : List RemoteUser) :
    Prop :=
  ∀ user ∈ users, (∃ row ∈ t.links, row.accountId = accountId ∧ row.externalId = user.externalId) →
    ∃ link ∈ links, link.externalId = user.externalId

/-- If all are seen, links with the external id of one that was made lead to the same person. -/
theorem personId_eq_of_made (hone : Unambiguous accountId t)
    (hloaded : ∀ link ∈ links, .ofLink link ∈ t.links)
    (henrolls : t.Enrolls (made (resolve .externalId accountId supply n links users)) t')
    (hseen : AllSeen accountId t links users) {link : BridgeLink}
    (hlink : link ∈ made (resolve .externalId accountId supply n links users)) {row : LinkRow}
    (hrow : row ∈ t'.links) (haccount : row.accountId = accountId)
    (hsame : row.externalId = link.externalId) : row.personId = link.personId := by
  obtain ⟨hown, user, huser, -, hid⟩ := mem_made_resolve hlink
  have hmatches : ∀ l : BridgeLink, l.externalId = user.externalId →
      linkMatches .externalId l user = true := fun l hl => by simp [linkMatches, hl]
  -- A link that was made is the only one in hand with its external id.
  have honly : ∀ l ∈ links ++ made (resolve .externalId accountId supply n links users),
      l.externalId = user.externalId → l = link := fun l hl hlId =>
    eq_of_made_resolve hlink hl (hmatches link hid) (hmatches l hlId)
  rw [henrolls.links] at hrow
  rcases List.mem_append.1 hrow with hold | hnew
  · obtain ⟨l, hl, hlId⟩ := hseen user huser ⟨row, hold, haccount, hsame.trans hid⟩
    obtain rfl := honly l (List.mem_append_left _ hl) hlId
    exact hone row hold _ (hloaded l hl) haccount hown hsame
  · obtain ⟨l, hl, rfl⟩ := List.mem_map.1 hnew
    obtain rfl := honly l (List.mem_append_right _ hl) (hsame.trans hid)
    rfl

/-- If all are seen, nobody is made a second time. -/
theorem unambiguous_of_allSeen (hone : Unambiguous accountId t)
    (hloaded : ∀ link ∈ links, .ofLink link ∈ t.links)
    (henrolls : t.Enrolls (made (resolve .externalId accountId supply n links users)) t')
    (hseen : AllSeen accountId t links users) : Unambiguous accountId t' := by
  have hsplit : ∀ row ∈ t'.links, row ∈ t.links ∨
      ∃ link ∈ made (resolve .externalId accountId supply n links users), .ofLink link = row := by
    intro row hrow
    rw [henrolls.links] at hrow
    exact (List.mem_append.1 hrow).imp_right List.mem_map.1
  intro x hx y hy hxAccount hyAccount hsame
  rcases hsplit x hx with hxOld | ⟨link, hlink, rfl⟩
  · rcases hsplit y hy with hyOld | ⟨link, hlink, rfl⟩
    · exact hone x hxOld y hyOld hxAccount hyAccount hsame
    · exact personId_eq_of_made hone hloaded henrolls hseen hlink hx hxAccount hsame
  · exact (personId_eq_of_made hone hloaded henrolls hseen hlink hy hyAccount hsame.symm).symm

end Enrolment

/-- After a run that succeeded, external ids name one person of the account exactly if no user was
overlooked. -/
theorem run_unambiguous_iff {bridges : List Bridge} {providers : Providers σ} {account : Account}
    {w' : World σ} {report : SyncReport} (ht : w.tables = some t) (hi : t.Intact)
    (hone : Unambiguous account.id t)
    (hrun : run .externalId bridges providers account w = (.ok report, w')) :
    ∃ t', w'.tables = some t' ∧ (Unambiguous account.id t' ↔
      ∀ user ∈ usersOf (fetchAll providers account bridges w).1,
        ¬ Overlooked account.id t (fetchAll providers account bridges w).1 user) := by
  rcases run_cases .externalId bridges providers account ht hi.keyed with
    ⟨w'', t', hsame, ht', hk', henrolls⟩ | ⟨e, w'', hsame, -⟩
  · obtain ⟨-, rfl⟩ := Prod.mk.inj (hrun.symm.trans hsame)
    refine ⟨t', ht', fun h user huser hover => ?_, fun h => ?_⟩
    · obtain ⟨⟨row, hrow, haccount, hid⟩, hnone⟩ := (overlooked_iff ht).1 hover
      exact not_unambiguous_of_overlooked hi hk' henrolls huser hrow haccount hid hnone h
    · refine unambiguous_of_allSeen hone
        (fun link hlink => ((mem_linksOf_fetchAll ht).1 hlink).2.2) henrolls ?_
      intro user huser hlinked
      by_contra hnone
      exact h user huser ((overlooked_iff ht).2
        ⟨hlinked, fun link hlink hid => hnone ⟨link, hlink, hid⟩⟩)
  · cases hrun.symm.trans hsame

/-! ## Histories -/

/-- A step is a run for the account that succeeds and overlooks somebody. -/
def Overlooks (accountId : Uuid) (w : World σ) (step : Step σ) : Prop :=
  ∃ service account, step = .sync service account ∧ account.id = accountId ∧
    (∃ report, (service.syncPeople account w).1 = .ok report) ∧
    ∃ t, w.tables = some t ∧
      ∃ user ∈ usersOf (fetchAll service.fetching account service.settings.syncBridges w).1,
        Overlooked accountId t
          (fetchAll service.fetching account service.settings.syncBridges w).1 user

/-- People made for another account do not matter. -/
theorem Unambiguous.of_others (h : Unambiguous accountId t) {made : List BridgeLink}
    (henrolls : t.Enrolls made t') (hothers : ∀ link ∈ made, link.accountId ≠ accountId) :
    Unambiguous accountId t' := by
  have hold : ∀ row ∈ t'.links, row.accountId = accountId → row ∈ t.links := by
    intro row hrow haccount
    rw [henrolls.links] at hrow
    refine (List.mem_append.1 hrow).resolve_right fun hnew => ?_
    obtain ⟨link, hlink, rfl⟩ := List.mem_map.1 hnew
    exact hothers link hlink haccount
  exact fun x hx y hy hxAccount hyAccount =>
    h x (hold x hx hxAccount) y (hold y hy hyAccount) hxAccount hyAccount

/-- A synchronization leaves external ids unambiguous exactly if it overlooks nobody. -/
theorem unambiguous_syncPeople_iff {service : Service σ} {account : Account} (ht : w.tables = some t)
    (hi : t.Intact) (hone : Unambiguous accountId t)
    (hkey : account.id = accountId → service.settings.matchKey = .externalId) :
    ∃ t', (service.syncPeople account w).2.tables = some t' ∧ t'.Intact ∧
      (Unambiguous accountId t' ↔ ¬ Overlooks accountId w (.sync service account)) := by
  obtain ⟨t', ht', hi', hadds⟩ := syncPeople_adds service account ht hi
  refine ⟨t', ht', hi', ?_⟩
  cases hresult : (service.syncPeople account w).1 with
  | error e =>
    rw [hresult] at hadds
    obtain rfl : t' = t := hadds
    refine ⟨fun _ => ?_, fun _ => hone⟩
    rintro ⟨_, _, heq, -, ⟨report, hok⟩, -⟩
    cases heq
    cases hresult.symm.trans hok
  | ok report =>
    by_cases hown : account.id = accountId
    · subst hown
      have hrun : run .externalId service.settings.syncBridges service.fetching account w =
          (.ok report, (service.syncPeople account w).2) := by
        rw [← hkey rfl]
        exact Prod.ext hresult rfl
      obtain ⟨t₁, ht₁, hiff⟩ := run_unambiguous_iff ht hi hone hrun
      cases ht'.symm.trans ht₁
      rw [hiff]
      constructor
      · rintro h ⟨_, _, heq, -, -, t₂, ht₂, user, huser, hover⟩
        cases heq
        cases ht.symm.trans ht₂
        exact h user huser hover
      · exact fun h user huser hover =>
          h ⟨service, account, rfl, rfl, ⟨report, hresult⟩, t, ht, user, huser, hover⟩
    · rw [hresult] at hadds
      obtain ⟨made, -, hmade, henrolls⟩ := hadds
      refine ⟨fun _ => ?_, fun _ =>
        hone.of_others henrolls fun link hlink h => hown ((hmade link hlink).symm.trans h)⟩
      rintro ⟨_, _, heq, haccount, -⟩
      cases heq
      exact hown haccount

/-- A step leaves external ids unambiguous exactly if it overlooks nobody. -/
theorem unambiguous_apply_iff {step : Step σ} (ht : w.tables = some t) (hi : t.Intact)
    (hone : Unambiguous accountId t)
    (hkey : ∀ service account, step = .sync service account → account.id = accountId →
      service.settings.matchKey = .externalId) :
    ∃ t', (step.apply w).tables = some t' ∧ t'.Intact ∧
      (Unambiguous accountId t' ↔ ¬ Overlooks accountId w step) := by
  by_cases hsync : ∃ service account, step = .sync service account
  · obtain ⟨service, account, rfl⟩ := hsync
    exact unambiguous_syncPeople_iff ht hi hone (hkey service account rfl)
  · have hstep : ∀ service account, step ≠ .sync service account :=
      fun service account h => hsync ⟨service, account, h⟩
    obtain ⟨t', ht', hlinkless⟩ := Step.apply_linkless hstep ht hi
    refine ⟨t', ht', hlinkless.intact, fun _ => ?_, fun _ => ?_⟩
    · rintro ⟨service, account, heq, -⟩
      exact hstep service account heq
    · rw [Unambiguous, hlinkless.links]
      exact hone

/-- In a history in which an account is synchronized by external ids alone, these name one person at
all times exactly if no step overlooks somebody.  In particular an account may start without links. -/
theorem always_unambiguous_iff {steps : List (Step σ)} (ht : w.tables = some t) (hi : t.Intact)
    (hone : Unambiguous accountId t)
    (hkey : ∀ service account, .sync service account ∈ steps → account.id = accountId →
      service.settings.matchKey = .externalId) :
    (∀ before, before <+: steps →
        ∃ t', (after w before).tables = some t' ∧ Unambiguous accountId t') ↔
      ∀ before step, before ++ [step] <+: steps → ¬ Overlooks accountId (after w before) step := by
  -- A proper prefix starts with the first step; what follows is a prefix of the rest, for the world
  -- after that step.
  induction steps generalizing w t with
  | nil =>
    refine ⟨fun _ before step h => by simp at h, fun _ before h => ?_⟩
    obtain rfl := List.prefix_nil.1 h
    exact ⟨t, ht, hone⟩
  | cons step rest ih =>
    obtain ⟨t₁, ht₁, hi₁, hiff⟩ := unambiguous_apply_iff ht hi hone fun service account heq =>
      hkey service account (heq ▸ List.mem_cons_self)
    have hrest := fun hone₁ => ih ht₁ hi₁ hone₁ fun service account hmem =>
      hkey service account (List.mem_cons_of_mem _ hmem)
    constructor
    · intro hall
      obtain ⟨t₂, ht₂, hone₁⟩ := hall [step] (by simp)
      cases ht₁.symm.trans ht₂
      intro before next hprefix
      cases before with
      | nil =>
        obtain ⟨rfl, -⟩ := List.cons_prefix_cons.1 hprefix
        exact hiff.1 hone₁
      | cons first before =>
        obtain ⟨rfl, hlater⟩ := List.cons_prefix_cons.1 hprefix
        refine (hrest hone₁).1 (fun earlier hearlier => ?_) before next hlater
        exact hall (first :: earlier) (List.cons_prefix_cons.2 ⟨rfl, hearlier⟩)
    · intro hnone before hprefix
      have hone₁ := hiff.2 (hnone [] step (by simp))
      cases before with
      | nil => exact ⟨t, ht, hone⟩
      | cons first before =>
        obtain ⟨rfl, hlater⟩ := List.cons_prefix_cons.1 hprefix
        refine (hrest hone₁).2 (fun earlier next hearlier => ?_) before hlater
        exact hnone (first :: earlier) next (List.cons_prefix_cons.2 ⟨rfl, hearlier⟩)

/-! ### Two outages

One user is known to two directories, and in each of two runs one of the directories is down. -/

/-- Only one directory can be reached, and it gives one user. -/
def sampleOnly (bridge : Bridge) : Service Unit where
  providers :=
    { notifier? := fun _ _ => none
      users := fun _ b => if b = bridge then pure [sampleUser b "42" "Ada" ""] else .fail .timeout }
  settings := { ServiceSettings.standard with matchKey := .externalId }

/-- A world in which nothing was done yet. -/
def sampleStart : World Unit := start (fun n => .ofNat (100 + n)) ⟨(), []⟩

/-- Each directory has an outage while the other one answers. -/
def sampleOutages : List (Step Unit) :=
  [.createAccount sampleAccount, .sync (sampleOnly .hub) sampleAccount,
    .sync (sampleOnly .hipchat) sampleAccount]

theorem always_unambiguous_iff_sample :
    sampleStart.tables = some .empty ∧ Tables.Intact .empty ∧
      Unambiguous sampleAccount.id .empty ∧
      ((∀ before, before <+: sampleOutages →
          ∃ t', (after sampleStart before).tables = some t' ∧ Unambiguous sampleAccount.id t') ↔
        ∀ before step, before ++ [step] <+: sampleOutages →
          ¬ Overlooks sampleAccount.id (after sampleStart before) step) := by
  have hone : Unambiguous sampleAccount.id .empty := fun x hx => absurd hx List.not_mem_nil
  refine ⟨rfl, Tables.intact_empty, hone, always_unambiguous_iff rfl Tables.intact_empty hone ?_⟩
  intro service account hmem _
  simp only [sampleOutages, List.mem_cons, reduceCtorEq, List.not_mem_nil, or_false, false_or,
    Step.sync.injEq] at hmem
  rcases hmem with ⟨rfl, -⟩ | ⟨rfl, -⟩ <;> rfl

/-- After the outages the user is two people of the account. -/
theorem outages_make_two_people : ∃ t x y, (after sampleStart sampleOutages).tables = some t ∧
    x ∈ t.links ∧ y ∈ t.links ∧ x.accountId = sampleAccount.id ∧ y.accountId = sampleAccount.id ∧
      x.externalId = y.externalId ∧ x.personId ≠ y.personId := by
  have htables : (after sampleStart sampleOutages).tables.map (·.links) =
      some [⟨.ofNat 101, .ofNat 1, .ofNat 100, 1, "42"⟩, ⟨.ofNat 103, .ofNat 1, .ofNat 102, 3, "42"⟩] := by
    decide
  obtain ⟨t, ht, hlinks⟩ := Option.map_eq_some_iff.1 htables
  refine ⟨t, ⟨.ofNat 101, .ofNat 1, .ofNat 100, 1, "42"⟩,
    ⟨.ofNat 103, .ofNat 1, .ofNat 102, 3, "42"⟩, ht, ?_, ?_, rfl, rfl, rfl, by decide⟩
  · simp [hlinks]
  · simp [hlinks]

end Sync

end Concierge
