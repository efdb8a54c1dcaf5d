import Concierge.Proofs.Sync.Dependence
import Concierge.Proofs.Sync.LastWriteWins

/-!
# A skipped directory is as good as an unconfigured one

A directory is out of service at its turn if its users cannot be fetched, or if they can but its
links cannot be loaded.  Either way it contributes neither, so a run ends as a run over the other
directories does, and differs in nothing but the list of what was skipped.

Turns count, not directories: one that is configured twice may be out of service at one turn only.
What a provider answers may depend on everything that happened before, so the run over the others is
any run in which they give the same users and in which their links can be loaded.  There always is
one.
-/

namespace Concierge

namespace Sync

variable {σ τ : Type} {key : MatchKey} {bridges : List Bridge} {providers : Providers σ}
  {providers' : Providers τ} {account : Account} {w : World σ} {w' : World τ}

/-! ## Outages -/

/-- A directory is out of service: its users cannot be fetched, or its links cannot be loaded. -/
def outOfService (providers : Providers σ) (account : Account) (bridge : Bridge) (w : World σ) :
    Bool :=
  match (providers.users account bridge w.outside).1 with
  | .error _ => true
  | .ok _ =>
    match (Query.findLinks account.id bridge w.store).1 with
    | .error _ => true
    | .ok _ => false

/-- Which directories are out of service at their turns. -/
def outages (providers : Providers σ) (account : Account) : List Bridge → World σ → List Bool
  | [], _ => []
  | bridge :: rest, w =>
    outOfService providers account bridge w ::
      outages providers account rest (fetch providers account bridge w).2

/-- The entries of a list at the marked positions. -/
def marked {α : Type} (marks : List Bool) (xs : List α) : List α :=
  ((xs.zip marks).filter (·.2)).map (·.1)

/-- Where the marks are read off the entries, the marked ones are filtered. -/
theorem marked_map {α β : Type} (mark : α → Bool) (f : α → β) (xs : List α) :
    marked (xs.map mark) (xs.map f) = (xs.filter mark).map f := by
  rw [marked, List.zip_map', List.filter_map, List.map_map]
  rfl

/-- A directory contributes both its users and its links, or it is out of service and contributes
neither. -/
theorem fetch_both_or_neither (providers : Providers σ) (account : Account) (bridge : Bridge)
    (w : World σ) :
    (outOfService providers account bridge w = true ∧
        (fetch providers account bridge w).1 = none) ∨
      (outOfService providers account bridge w = false ∧
        ∃ users t, (providers.users account bridge w.outside).1 = .ok users ∧
          w.store.tables = some t ∧
          (fetch providers account bridge w).1 = some ⟨users, t.linksTo account.id bridge⟩) := by
  unfold fetch outOfService
  cases husers : providers.users account bridge w.outside with
  | mk given outside =>
    rcases given with (e | ⟨e, last⟩) | users
    · exact .inl ⟨rfl, rfl⟩
    · exact .inl ⟨rfl, rfl⟩
    · cases hlinks : Query.findLinks account.id bridge w.store with
      | mk loaded store =>
        cases loaded with
        | error e => exact .inl ⟨rfl, rfl⟩
        | ok links =>
          rw [Query.findLinks_eq_call] at hlinks
          obtain ⟨t, ht, rfl⟩ := Store.CountedFrom.answer_of_reading hlinks
          exact .inr ⟨rfl, users, t, rfl, ht, rfl⟩

/-- What is out of service contributes nothing, and what contributes nothing is out of service. -/
theorem isNone_fetch (providers : Providers σ) (account : Account) (bridge : Bridge) (w : World σ) :
    (fetch providers account bridge w).1.isNone = outOfService providers account bridge w := by
  rcases fetch_both_or_neither providers account bridge w with
    ⟨hout, hnone⟩ | ⟨hin, users, t, -, -, hsome⟩
  · rw [hout, hnone]
    rfl
  · rw [hin, hsome]
    rfl

theorem outages_eq_isNone (providers : Providers σ) (account : Account) (bridges : List Bridge)
    (w : World σ) :
    outages providers account bridges w =
      (fetchAll providers account bridges w).1.map (·.2.isNone) := by
  induction bridges generalizing w with
  | nil => rfl
  | cons bridge rest ih =>
    rw [outages, ih, ← isNone_fetch]
    rfl

/-- What is skipped is what is out of service. -/
theorem skippedOf_eq_marked (providers : Providers σ) (account : Account) (bridges : List Bridge)
    (w : World σ) :
    skippedOf (fetchAll providers account bridges w).1 =
      marked (outages providers account bridges w) bridges := by
  have h := marked_map (·.2.isNone) (·.1) (fetchAll providers account bridges w).1
  rw [fetchAll_bridges, ← outages_eq_isNone] at h
  exact h.symm

/-- The configured directories without those that are out of service. -/
def inService (providers : Providers σ) (account : Account) (bridges : List Bridge) (w : World σ) :
    List Bridge :=
  marked ((outages providers account bridges w).map (! ·)) bridges

/-- What is reached is what is in service. -/
theorem reached_eq_inService (providers : Providers σ) (account : Account) (bridges : List Bridge)
    (w : World σ) :
    reached (fetchAll providers account bridges w).1 = inService providers account bridges w := by
  have h := marked_map (fun found => ! found.2.isNone) (·.1) (fetchAll providers account bridges w).1
  rw [fetchAll_bridges] at h
  rw [inService, outages_eq_isNone, List.map_map]
  refine (h.trans ?_).symm
  simp [reached]

/-! ## The run over the others -/

/-- A second run, over the directories that were in service in a first one, starts from the same
rows and identifiers, gets the same users from them and can load their links. -/
structure Unconfigured (bridges : List Bridge) (account : Account) (providers : Providers σ)
    (w : World σ) (providers' : Providers τ) (w' : World τ) : Prop where
  store : w.store.Agree calls w'.store
  outcome : outcomeOf (fetchAll providers' account (inService providers account bridges w) w').1 =
    (outcomeOf (fetchAll providers account bridges w).1).filter (·.2.isSome)

namespace Unconfigured

variable (h : Unconfigured bridges account providers w providers' w')

include h

theorem users : usersOf (fetchAll providers' account (inService providers account bridges w) w').1 =
    usersOf (fetchAll providers account bridges w).1 := by
  rw [usersOf_eq_outcome, usersOf_eq_outcome, h.outcome]
  generalize outcomeOf (fetchAll providers account bridges w).1 = outcome
  induction outcome with
  | nil => rfl
  | cons found rest ih =>
    obtain ⟨bridge, _ | users⟩ := found
    · simpa using ih
    · simpa using ih

theorem links : linksOf (fetchAll providers' account (inService providers account bridges w) w').1 =
    linksOf (fetchAll providers account bridges w).1 := by
  refine linksOf_congr h.store.tables ?_
  rw [reached_eq_outcome, reached_eq_outcome, h.outcome, List.filter_filter]
  simp

theorem skipped :
    skippedOf (fetchAll providers' account (inService providers account bridges w) w').1 = [] := by
  rw [skippedOf_eq_outcome, h.outcome, List.filter_filter]
  simp

/-- Both runs come to the same transaction. -/
theorem commit_agree (key : MatchKey) :
    let fetched := fetchAll providers account bridges w
    let fetched' := fetchAll providers' account (inService providers account bridges w) w'
    (commit key account.id fetched'.1 fetched'.2.store).1 =
        (commit key account.id fetched.1 fetched.2.store).1 ∧
      (commit key account.id fetched.1 fetched.2.store).2.Agree calls
        (commit key account.id fetched'.1 fetched'.2.store).2 := by
  intro fetched fetched'
  have hstore : fetched.2.store.Agree calls fetched'.2.store :=
    ((fetchAll_agree findLinks_not_mem_calls ..).symm.trans h.store).trans
      (fetchAll_agree findLinks_not_mem_calls ..)
  have hcommit : commit key account.id fetched'.1 = commit key account.id fetched.1 := by
    rw [commit, commit, h.users, h.links]
  rw [hcommit]
  exact respects_commit (List.Subset.refl calls) key account.id fetched.1 hstore

end Unconfigured

/-- Whatever happened in a run, there is one over the directories that were in service. -/
theorem exists_unconfigured (bridges : List Bridge) (account : Account) (providers : Providers σ)
    (w : World σ) :
    ∃ w' : World (List (Option (List RemoteUser))),
      Unconfigured bridges account providers w scripted w' := by
  let script := (outcomeOf (fetchAll providers account bridges w).1).filter (·.2.isSome)
  have hbridges : script.map (·.1) = inService providers account bridges w := by
    rw [← reached_eq_inService, reached_eq_outcome]
  obtain ⟨w', hstore, houtcome⟩ := exists_outcome account script w.store
    fun bridge users hmem => exists_tables_of_outcome (List.mem_filter.1 hmem).1
  rw [hbridges] at houtcome
  exact ⟨w', hstore, houtcome⟩

/-! ## Both runs -/

/-- Two runs end alike, except that the first one reports directories as skipped. -/
structure EndsAlike (skipped : List Bridge) (first : Except ServiceError SyncReport × World σ)
    (second : Except ServiceError SyncReport × World τ) : Prop where
  answer : second.1 = first.1.map fun report => { report with skippedBridges := [] }
  skipped : ∀ report, first.1 = .ok report → report.skippedBridges = skipped
  store : first.2.store.Agree calls second.2.store

theorem Unconfigured.endsAlike (h : Unconfigured bridges account providers w providers' w')
    (key : MatchKey) :
    EndsAlike (marked (outages providers account bridges w) bridges)
      (run key bridges providers account w)
      (run key (inService providers account bridges w) providers' account w') := by
  obtain ⟨hanswer, hstore⟩ := h.commit_agree key
  rw [← skippedOf_eq_marked]
  cases hfirst : commit key account.id (fetchAll providers account bridges w).1
      (fetchAll providers account bridges w).2.store with
  | mk result store =>
    cases hsecond : commit key account.id
        (fetchAll providers' account (inService providers account bridges w) w').1
        (fetchAll providers' account (inService providers account bridges w) w').2.store with
    | mk result' store' =>
      rw [hfirst, hsecond] at hanswer hstore
      obtain rfl : result' = result := hanswer
      cases result' with
      | ok counts =>
        rw [run_of_commit_ok hfirst, run_of_commit_ok hsecond, h.skipped]
        refine ⟨rfl, fun report hreport => ?_, hstore⟩
        cases hreport
        rfl
      | error e =>
        rw [run_of_commit_error hfirst, run_of_commit_error hsecond]
        exact ⟨rfl, fun report hreport => (by cases hreport), hstore⟩

/-- What a directory contributes is fetched at its turn. -/
theorem fetchAll_turn (providers : Providers σ) (account : Account) (before : List Bridge)
    (bridge : Bridge) (after : List Bridge) (w : World σ) :
    let turn := (fetchAll providers account before w).2
    (fetchAll providers account (before ++ bridge :: after) w).1[before.length]? =
        some (bridge, (fetch providers account bridge turn).1) ∧
      (outages providers account (before ++ bridge :: after) w)[before.length]? =
        some (outOfService providers account bridge turn) := by
  induction before generalizing w with
  | nil => exact ⟨rfl, rfl⟩
  | cons first rest ih => exact ih _

/-- Skipped directories are as good as unconfigured.  Every directory is, at its turn, out of
service and contributes neither users nor links, or contributes all users that its provider gave and
all links of the account.  A run over all of them and any run over those in service, and there is
one, succeed with the same counts or fail with the same error, leave the same rows, and the first
one reports exactly the others as skipped. -/
theorem run_skips_as_unconfigured (key : MatchKey) (bridges : List Bridge)
    (providers : Providers σ) (account : Account) (w : World σ) :
    (∀ before bridge after, bridges = before ++ bridge :: after →
      let turn := (fetchAll providers account before w).2
      ∃ found, (fetchAll providers account bridges w).1[before.length]? = some (bridge, found) ∧
        (((outages providers account bridges w)[before.length]? = some true ∧ found = none) ∨
          ((outages providers account bridges w)[before.length]? = some false ∧
            ∃ users t, (providers.users account bridge turn.outside).1 = .ok users ∧
              turn.store.tables = some t ∧
              found = some ⟨users, t.linksTo account.id bridge⟩))) ∧
      (∃ w' : World (List (Option (List RemoteUser))),
        Unconfigured bridges account providers w scripted w') ∧
      ∀ {τ : Type} (providers' : Providers τ) (w' : World τ),
        Unconfigured bridges account providers w providers' w' →
          EndsAlike (marked (outages providers account bridges w) bridges)
            (run key bridges providers account w)
            (run key (inService providers account bridges w) providers' account w') := by
  refine ⟨?_, exists_unconfigured bridges account providers w, fun _ _ h => h.endsAlike key⟩
  rintro before bridge after rfl turn
  obtain ⟨hfound, hout⟩ := fetchAll_turn providers account before bridge after w
  refine ⟨_, hfound, ?_⟩
  rw [hout]
  rcases fetch_both_or_neither providers account bridge turn with ⟨h, hnone⟩ | ⟨h, hsome⟩
  · exact .inl ⟨by rw [h], hnone⟩
  · exact .inr ⟨by rw [h], hsome⟩

/-! ### A directory that is configured twice

It is fetched at both turns, but its links can be loaded at the first one only. -/

/-- The directories that are asked, one of them twice. -/
def sampleTwice : List Bridge := [.hub, .hipchat, .slack, .hub]

/-- The sample world, in which the third attempt to load links is refused. -/
def sampleRefusing : World Unit :=
  { sampleWorld with store := sampleWorld.store.refuse .findLinks [2] }

theorem run_skips_as_unconfigured_sample :
    outages sampleProviders sampleAccount sampleTwice sampleRefusing = [false, true, false, true] ∧
      EndsAlike [.hipchat, .hub]
        (run .externalId sampleTwice sampleProviders sampleAccount sampleRefusing)
        (run .externalId [.hub, .slack] sampleProviders sampleAccount sampleWorld) := by
  have houtages : outages sampleProviders sampleAccount sampleTwice sampleRefusing =
      [false, true, false, true] := by decide
  have hservice : inService sampleProviders sampleAccount sampleTwice sampleRefusing =
      [.hub, .slack] := by decide
  obtain ⟨-, -, hruns⟩ := run_skips_as_unconfigured .externalId sampleTwice sampleProviders
    sampleAccount sampleRefusing
  have h := hruns sampleProviders sampleWorld
    ⟨⟨rfl, rfl, rfl, fun c hc => by
      have hne : c ≠ .findLinks := fun heq => findLinks_not_mem_calls (heq ▸ hc)
      simp [sampleRefusing, sampleWorld, Store.refuse, hne]⟩, by decide⟩
  rw [houtages, hservice] at h
  exact ⟨houtages, h⟩

end Sync

end Concierge
