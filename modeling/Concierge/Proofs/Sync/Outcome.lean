import Concierge.Proofs.Store.Growth
import Concierge.Proofs.Sync.Fetch
import Concierge.Proofs.Sync.LastWriteWins

/-!
# What becomes of a reconciliation

Nothing is assumed here about refused calls, about what was loaded or about fresh identifiers.  If a
reconciliation succeeds all the same, it carried out its plan, so the links that it made and the
people that it made are in step.  If it fails, the storage failed, or a link in hand leads to nobody
in the account.

For a whole run this leaves two cases.  It succeeds and enrolled exactly whom it reports, or it fails
and the tables are as they were.
-/

namespace Concierge

namespace Sync

variable {σ : Type} {key : MatchKey} {accountId : Uuid} {s s' : Store} {t t' : Tables}
  {user : RemoteUser} {users : List RemoteUser} {link : BridgeLink} {links : List BridgeLink}
  {counts counts' : Counts} {e : ServiceError}

/-! ## Success -/

/-- A refresh that succeeds rewrites the person of the link, who is there. -/
theorem refresh_ok (ht : s.tables = some t) (hpeople : (t.people.map (·.id)).Nodup)
    (h : refresh accountId link.personId user s = (.ok (), s')) :
    link.personId ∈ t.people.map (·.id) ∧
      s'.tables = some (Resolution.apply accountId t ⟨user, link, false⟩) ∧
      s'.supply = s.supply ∧ s'.issued = s.issued := by
  obtain ⟨found, s₁, hfind, hrest⟩ := Fallible.of_bind_ok h
  rw [Query.findPerson_eq_call] at hfind
  obtain ⟨t₁, _, ht₁, hread, rfl⟩ := Query.call_ok hfind
  cases ht.symm.trans ht₁
  simp only [Except.ok.injEq, Prod.mk.injEq] at hread
  obtain ⟨hperson, rfl⟩ := hread
  cases found with
  | none => cases hrest
  | some person =>
    obtain ⟨hmem, hid, haccount⟩ := Tables.mem_of_person? hperson
    obtain ⟨_, s₂, hupdate, hdone⟩ := Fallible.of_bind_ok hrest
    cases hdone
    rw [Query.updatePerson_eq_call] at hupdate
    obtain ⟨t₂, t₃, ht₂, hreplace, rfl⟩ := Query.call_ok hupdate
    simp only [Option.some.injEq] at ht₂
    subst ht₂
    rw [replacePerson_refreshed user hpeople hmem hid haccount] at hreplace
    cases hreplace
    exact ⟨List.mem_map.2 ⟨person, hmem, hid⟩, rfl, by simp, by simp⟩

/-- An enrolment that succeeds adds a person who was not there, and the link for the user. -/
theorem enroll_ok (ht : s.tables = some t) (h : enroll accountId user s = (.ok link, s')) :
    link = linkFor accountId s.supply s.issued user ∧ (∀ p ∈ t.people, p.id ≠ link.personId) ∧
      s'.tables = some (Resolution.apply accountId t ⟨user, link, true⟩) ∧
      s'.supply = s.supply ∧ s'.issued = s.issued + 2 := by
  obtain ⟨id, s₁, hfresh, h⟩ := Fallible.of_bind_ok h
  cases hfresh
  obtain ⟨person, s₂, hcreate, h⟩ := Fallible.of_bind_ok h
  rw [Query.createPerson_eq_call] at hcreate
  obtain ⟨t₁, t₂, ht₁, hadd, rfl⟩ := Query.call_ok hcreate
  cases ht.symm.trans ht₁
  obtain ⟨hunused, rfl, rfl⟩ := Tables.addPerson_ok hadd
  obtain ⟨linkId, s₃, hfresh, h⟩ := Fallible.of_bind_ok h
  cases hfresh
  rw [Query.createLink_eq_call] at h
  obtain ⟨t₃, t₄, ht₃, htie, rfl⟩ := Query.call_ok h
  cases ht₃
  obtain ⟨-, -, rfl, rfl⟩ := Tables.addLink_ok htie
  exact ⟨by simp [linkFor, newPerson], hunused, rfl, by simp, by simp⟩

/-- A reconciliation that succeeds carried out its plan, and the plan was sound. -/
theorem reconcile_ok (ht : s.tables = some t) (hpeople : (t.people.map (·.id)).Nodup)
    (h : reconcile key accountId users links counts s = (.ok counts', s')) :
    let plan := resolve key accountId s.supply s.issued links users
    Sound (t.people.map (·.id)) plan ∧
      counts' = ⟨counts.created + (tally plan).created, counts.updated + (tally plan).updated⟩ ∧
      s'.tables = some (plan.foldl (Resolution.apply accountId) t) := by
  induction users generalizing links counts s t with
  | nil =>
    cases h
    exact ⟨trivial, rfl, ht⟩
  | cons user rest ih =>
    cases hfind : links.find? fun link => linkMatches key link user with
    | some link =>
      simp only [reconcile, hfind] at h
      obtain ⟨_, s₁, hrefresh, hrest⟩ := Fallible.of_bind_ok h
      obtain ⟨hthere, ht₁, hsupply, hissued⟩ := refresh_ok ht hpeople hrefresh
      have hids := refreshed_ids t.people link.personId user
      obtain ⟨hsound, hcounts, htables⟩ := ih ht₁ (hids.symm ▸ hpeople) hrest
      rw [hsupply, hissued] at hsound hcounts htables
      simp only [resolve_of_match hfind, tally_cons_old, List.foldl_cons]
      refine ⟨⟨hthere, hids ▸ hsound⟩, ?_, htables⟩
      rw [hcounts, Nat.add_right_comm, Nat.add_assoc]
    | none =>
      simp only [reconcile, hfind] at h
      obtain ⟨link, s₁, henroll, hrest⟩ := Fallible.of_bind_ok h
      obtain ⟨rfl, hunused, ht₁, hsupply, hissued⟩ := enroll_ok ht henroll
      obtain ⟨hsound, hcounts, htables⟩ :=
        ih ht₁ (Tables.nodup_append_singleton hpeople hunused) hrest
      rw [hsupply, hissued] at hsound hcounts htables
      simp only [resolve_of_no_match hfind, tally_cons_new, List.foldl_cons]
      have hnew : (linkFor accountId s.supply s.issued user).personId ∉ t.people.map (·.id) := by
        simpa using hunused
      have hids : (Resolution.apply accountId t
          ⟨user, linkFor accountId s.supply s.issued user, true⟩).people.map (·.id) =
            t.people.map (·.id) ++ [(linkFor accountId s.supply s.issued user).personId] :=
        List.map_append
      refine ⟨⟨hnew, hids ▸ hsound⟩, ?_, htables⟩
      rw [hcounts, Nat.add_right_comm, Nat.add_assoc]

/-- Taking over one user enrolls them if a link is made for them, and nobody otherwise. -/
theorem apply_enrolls {r : Resolution} (h : ∀ link ∈ made [r], link.accountId = accountId)
    (t : Tables) : t.Enrolls (made [r]) (r.apply accountId t) := by
  obtain ⟨user, link, isNew⟩ := r
  cases isNew with
  | false =>
    have hkeys : (Resolution.apply accountId t ⟨user, link, false⟩).people.map Tables.personKey =
        t.people.map Tables.personKey := by
      apply Tables.map_key_map
      intro p _
      by_cases hp : p.id = link.personId <;> simp [hp, refreshed, Tables.personKey]
    exact ⟨rfl, rfl, by simpa using hkeys, (List.append_nil _).symm⟩
  | true =>
    have hown : link.accountId = accountId := h link List.mem_cons_self
    exact ⟨rfl, rfl, by simp [Resolution.apply, Tables.personKey, Tables.target, newPerson, hown], rfl⟩

/-- Carrying out a plan enrolls those for whom a link is made, whatever the links lead to. -/
theorem foldl_apply_enrolls {plan : List Resolution}
    (h : ∀ link ∈ made plan, link.accountId = accountId) (t : Tables) :
    t.Enrolls (made plan) (plan.foldl (Resolution.apply accountId) t) := by
  induction plan generalizing t with
  | nil => exact .refl t
  | cons r rest ih =>
    have hsplit : made (r :: rest) = made [r] ++ made rest := by
      simp only [made, created, ← List.map_append, ← List.filter_append, List.singleton_append]
    rw [hsplit] at h ⊢
    exact (apply_enrolls (fun l hl => h l (List.mem_append_left _ hl)) t).trans
      (ih (fun l hl => h l (List.mem_append_right _ hl)) _)

/-- A plan makes as many links as it makes people. -/
theorem length_made (plan : List Resolution) : (made plan).length = (tally plan).created := by
  rw [made, List.length_map, created, tally, List.countP_eq_length_filter]

/-! ## Failure -/

/-- Why a reconciliation can fail. -/
inductive Failure (accountId : Uuid) (t : Tables) (links : List BridgeLink) : ServiceError → Prop where
  /-- The storage failed: a call was refused, or a row broke a rule of its table. -/
  | storage (reason : String) : Failure accountId t links (.database reason)
  /-- A link in hand leads to nobody in the account. -/
  | dangling {link : BridgeLink} (hlink : link ∈ links)
      (nobody : t.person? accountId link.personId = none) :
      Failure accountId t links (.notFound .person link.personId)

/-- A call fails in the storage's words, unless its function fails otherwise. -/
theorem storage_of_call_error {α : Type} {c : Call} {f : Tables → Except ServiceError (α × Tables)}
    (ht : s.tables = some t) (hf : ∀ e, f t = .error e → ∃ reason, e = .database reason)
    (h : Query.call c f s = (.error e, s')) : ∃ reason, e = .database reason := by
  obtain ⟨-, rfl | rfl | ⟨t₁, ht₁, hfault⟩⟩ := Query.call_error h
  · exact ⟨_, rfl⟩
  · exact ⟨_, rfl⟩
  · cases ht.symm.trans ht₁
    exact hf e hfault

/-- A refresh fails with the storage, or because the account has no such person. -/
theorem refresh_error (ht : s.tables = some t) (hpeople : (t.people.map (·.id)).Nodup)
    (hlink : link ∈ links) (h : refresh accountId link.personId user s = (.error e, s')) :
    Failure accountId t links e := by
  unfold refresh at h
  rw [Query.findPerson_eq_call] at h
  rcases Fallible.of_bind_error h with hfind | ⟨found, s₁, hfind, hrest⟩
  · obtain ⟨reason, rfl⟩ := storage_of_call_error ht (fun _ hf => by cases hf) hfind
    exact .storage reason
  · obtain ⟨t₁, _, ht₁, hread, rfl⟩ := Query.call_ok hfind
    cases ht.symm.trans ht₁
    simp only [Except.ok.injEq, Prod.mk.injEq] at hread
    obtain ⟨hperson, rfl⟩ := hread
    cases found with
    | none =>
      cases hrest
      exact .dangling hlink hperson
    | some person =>
      obtain ⟨hmem, hid, haccount⟩ := Tables.mem_of_person? hperson
      rcases Fallible.of_bind_error hrest with hupdate | ⟨_, _, _, hdone⟩
      · rw [Query.updatePerson_eq_call] at hupdate
        have hreplace := replacePerson_refreshed user hpeople hmem hid haccount
        obtain ⟨reason, rfl⟩ := storage_of_call_error rfl
          (fun _ hf => by rw [hreplace] at hf; cases hf) hupdate
        exact .storage reason
      · cases hdone

/-- An enrolment fails with the storage. -/
theorem enroll_error (ht : s.tables = some t) (h : enroll accountId user s = (.error e, s')) :
    ∃ reason, e = .database reason := by
  rcases Fallible.of_bind_error h with hfresh | ⟨id, s₁, hfresh, h⟩
  · cases hfresh
  cases hfresh
  rcases Fallible.of_bind_error h with hcreate | ⟨person, s₂, hcreate, h⟩
  · rw [Query.createPerson_eq_call] at hcreate
    have ht₁ : ({ s with issued := s.issued + 1 } : Store).tables = some t := ht
    exact storage_of_call_error ht₁ (fun _ he => Tables.addPerson_error he) hcreate
  rw [Query.createPerson_eq_call] at hcreate
  obtain ⟨_, t₂, -, -, rfl⟩ := Query.call_ok hcreate
  rcases Fallible.of_bind_error h with hfresh | ⟨linkId, s₃, hfresh, htie⟩
  · cases hfresh
  cases hfresh
  rw [Query.createLink_eq_call] at htie
  exact storage_of_call_error rfl (fun _ he => Tables.addLink_error he) htie

/-- What is in the way later was in the way before, if everybody who was there still is and new
links lead to people who are there. -/
theorem Failure.of_later {links' : List BridgeLink} (h : Failure accountId t' links' e)
    (hpeople : t.people.map Tables.personKey ⊆ t'.people.map Tables.personKey)
    (hlinks : ∀ link ∈ links', link ∈ links ∨
      (link.personId, accountId) ∈ t'.people.map Tables.personKey) :
    Failure accountId t links e := by
  cases h with
  | storage reason => exact .storage reason
  | @dangling link hlink nobody =>
    have habsent := Tables.person?_eq_none_iff.1 nobody
    rcases hlinks link hlink with hold | hthere
    · exact .dangling hold (Tables.person?_eq_none_iff.2 fun hmem => habsent (hpeople hmem))
    · exact absurd hthere habsent

/-- Why a reconciliation failed that failed.  Links that it made itself are never in the way. -/
theorem reconcile_error (ht : s.tables = some t) (hpeople : (t.people.map (·.id)).Nodup)
    (h : reconcile key accountId users links counts s = (.error e, s')) :
    Failure accountId t links e := by
  induction users generalizing links counts s t with
  | nil => cases h
  | cons user rest ih =>
    cases hfind : links.find? fun link => linkMatches key link user with
    | some link =>
      simp only [reconcile, hfind] at h
      rcases Fallible.of_bind_error h with hrefresh | ⟨_, s₁, hrefresh, hrest⟩
      · exact refresh_error ht hpeople (List.mem_of_find?_eq_some hfind) hrefresh
      · -- Refreshing removes nobody, so whoever is missing later was missing before.
        obtain ⟨-, ht₁, -, -⟩ := refresh_ok ht hpeople hrefresh
        have hpeople₁ := (refreshed_ids t.people link.personId user).symm ▸ hpeople
        have hnobody : ∀ l ∈ made [⟨user, link, false⟩], l.accountId = accountId := by simp
        have henrolls := apply_enrolls hnobody t
        exact (ih ht₁ hpeople₁ hrest).of_later henrolls.grows.people.subset fun _ hl => .inl hl
    | none =>
      simp only [reconcile, hfind] at h
      rcases Fallible.of_bind_error h with henroll | ⟨link, s₁, henroll, hrest⟩
      · obtain ⟨reason, rfl⟩ := enroll_error ht henroll
        exact .storage reason
      · -- The link that was made leads to the person that was made, so it is never in the way.
        obtain ⟨rfl, hunused, ht₁, -, -⟩ := enroll_ok ht henroll
        have hown : ∀ l ∈ made [⟨user, linkFor accountId s.supply s.issued user, true⟩],
            l.accountId = accountId := by simp [linkFor]
        have henrolls := apply_enrolls hown t
        refine (ih ht₁ (Tables.nodup_append_singleton hpeople hunused) hrest).of_later
          henrolls.grows.people.subset fun l hl => ?_
        rcases List.mem_append.1 hl with hold | hnew
        · exact .inl hold
        · obtain rfl := List.mem_singleton.1 hnew
          rw [henrolls.people]
          exact .inr (List.mem_append_right _ List.mem_cons_self)

/-! ## Runs -/

/-- What can become of the transaction of a run.  It succeeds with its plan and enrolls those for
whom the plan makes a link, or it fails and leaves the tables as they were. -/
theorem commit_cases (key : MatchKey) (accountId : Uuid) (ht : s.tables = some t) (hk : t.Keyed)
    (fetched : List (Bridge × Option Contribution)) :
    let plan := resolve key accountId s.supply s.issued (linksOf fetched) (usersOf fetched)
    (∃ s' t', commit key accountId fetched s = (.ok (tally plan), s') ∧ s'.tables = some t' ∧
        t'.Keyed ∧ t.Enrolls (made plan) t') ∨
      ∃ e s', commit key accountId fetched s = (.error e, s') ∧ s'.tables = some t ∧
        Failure accountId t (linksOf fetched) e := by
  intro plan
  have hkeeps := reconcile_keeps_keyed key accountId (usersOf fetched) (linksOf fetched) ⟨0, 0⟩ s
    fun t' ht' => Option.some.inj (ht.symm.trans ht') ▸ hk
  cases hreconcile : reconcile key accountId (usersOf fetched) (linksOf fetched) ⟨0, 0⟩ s with
  | mk result s' =>
    rw [hreconcile] at hkeeps
    cases result with
    | error e =>
      exact .inr ⟨e, _, Query.transaction_of_error hreconcile, ht,
        reconcile_error ht hk.people hreconcile⟩
    | ok counts =>
      obtain ⟨-, hcounts, ht'⟩ := reconcile_ok ht hk.people hreconcile
      simp only [Nat.zero_add] at hcounts
      have henrolls : t.Enrolls (made plan) (plan.foldl (Resolution.apply accountId) t) :=
        foldl_apply_enrolls (fun _ hlink => (mem_made_resolve hlink).1) t
      refine .inl ⟨s', _, ?_, ht', hkeeps _ ht', henrolls⟩
      rw [commit, Query.transaction_of_ok hreconcile, hcounts]

/-- What can become of the end of a run. -/
theorem conclude_cases (key : MatchKey) (accountId : Uuid) {w : World σ}
    (ht : w.store.tables = some t) (hk : t.Keyed) (fetched : List (Bridge × Option Contribution)) :
    let plan := resolve key accountId w.store.supply w.store.issued (linksOf fetched) (usersOf fetched)
    (∃ w' t', conclude key accountId fetched w =
          (.ok ⟨(tally plan).created, (tally plan).updated, skippedOf fetched⟩, w') ∧
        w'.store.tables = some t' ∧ t'.Keyed ∧ t.Enrolls (made plan) t') ∨
      ∃ e w', conclude key accountId fetched w = (.error e, w') ∧ w'.store.tables = some t ∧
        Failure accountId t (linksOf fetched) e := by
  rcases commit_cases key accountId ht hk fetched with
    ⟨s', t', hcommit, ht', hk', henrolls⟩ | ⟨e, s', hcommit, ht', hfailure⟩
  · exact .inl ⟨_, t', conclude_of_commit_ok hcommit, ht', hk', henrolls⟩
  · exact .inr ⟨e, _, conclude_of_commit_error hcommit, ht', hfailure⟩

/-- What can become of a run. -/
theorem run_cases (key : MatchKey) (bridges : List Bridge) (providers : Providers σ)
    (account : Account) {w : World σ} (ht : w.store.tables = some t) (hk : t.Keyed) :
    let plan := planOf key bridges providers account w
    let fetched := (fetchAll providers account bridges w).1
    (∃ w' t', run key bridges providers account w =
          (.ok ⟨(tally plan).created, (tally plan).updated, skippedOf fetched⟩, w') ∧
        w'.store.tables = some t' ∧ t'.Keyed ∧ t.Enrolls (made plan) t') ∨
      ∃ e w', run key bridges providers account w = (.error e, w') ∧ w'.store.tables = some t ∧
        Failure account.id t (linksOf fetched) e := by
  intro plan fetched
  have hfetch := fetchAll_countedFrom providers account bridges w
  have hplan : resolve key account.id (fetchAll providers account bridges w).2.store.supply
      (fetchAll providers account bridges w).2.store.issued (linksOf fetched) (usersOf fetched) =
        plan := by
    rw [hfetch.supply, hfetch.issued]
    rfl
  have hcases := conclude_cases key account.id (hfetch.tables.trans ht) hk fetched
  rw [hplan, ← run_eq_conclude] at hcases
  exact hcases

end Sync

end Concierge
