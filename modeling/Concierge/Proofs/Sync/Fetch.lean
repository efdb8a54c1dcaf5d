import Concierge.Proofs.Store.Calls
import Concierge.Sync

/-!
# Fetching leaves the rows alone

Fetching the directories reads links and writes nothing: the only trace in the store is that some
calls that read links were counted.  A directory that contributes anything contributes exactly the
links that the account has to it, next to the users that the provider gave.

A run is a fetch followed by a reconciliation, and ends as the reconciliation does.
-/

namespace Concierge

/-- A store after calls of one query were counted. -/
structure Store.CountedFrom (c : Call) (s s' : Store) : Prop where
  tables : s'.tables = s.tables
  supply : s'.supply = s.supply
  issued : s'.issued = s.issued
  refusals : ∀ d, d ≠ c → s'.refusals d = s.refusals d

namespace Store.CountedFrom

theorem refl (c : Call) (s : Store) : CountedFrom c s s := ⟨rfl, rfl, rfl, fun _ _ => rfl⟩

theorem trans {c : Call} {s₁ s₂ s₃ : Store} (h₁ : CountedFrom c s₁ s₂) (h₂ : CountedFrom c s₂ s₃) :
    CountedFrom c s₁ s₃ where
  tables := h₂.tables.trans h₁.tables
  supply := h₂.supply.trans h₁.supply
  issued := h₂.issued.trans h₁.issued
  refusals d hd := (h₂.refusals d hd).trans (h₁.refusals d hd)

theorem count (c : Call) (s : Store) : CountedFrom c s (s.count c) :=
  ⟨by simp, by simp, by simp, fun _ hd => s.count_refusals_of_ne hd⟩

/-- A call that only reads leaves a store that was counted. -/
theorem of_reading {α : Type} {c : Call} {read : Tables → α} (s : Store) :
    CountedFrom c s (Query.call c (fun t => .ok (read t, t)) s).2 := by
  cases hc : s.admits c with
  | false =>
    rw [Query.call_of_refused hc]
    exact count c s
  | true =>
    rw [Query.call_of_admitted hc]
    cases ht : s.tables with
    | none =>
      rw [Query.onTables_of_none (by simpa using ht)]
      exact count c s
    | some t =>
      rw [Query.onTables_of_unchanged (t := t) (by simp [ht]) rfl]
      exact count c s

/-- What a call that only reads answers with, if it answers. -/
theorem answer_of_reading {α : Type} {c : Call} {read : Tables → α} {s s' : Store} {a : α}
    (h : Query.call c (fun t => .ok (read t, t)) s = (.ok a, s')) :
    ∃ t, s.tables = some t ∧ a = read t := by
  cases hc : s.admits c with
  | false =>
    rw [Query.call_of_refused hc] at h
    cases h
  | true =>
    rw [Query.call_of_admitted hc] at h
    cases ht : s.tables with
    | none =>
      rw [Query.onTables_of_none (by simpa using ht)] at h
      cases h
    | some t =>
      rw [Query.onTables_of_unchanged (t := t) (by simp [ht]) rfl] at h
      cases h
      exact ⟨t, rfl, rfl⟩

end Store.CountedFrom

namespace Sync

variable {σ : Type}

/-- Fetching one directory at most counts a call that reads links. -/
theorem fetch_countedFrom (providers : Providers σ) (account : Account) (bridge : Bridge)
    (w : World σ) :
    Store.CountedFrom .findLinks w.store (fetch providers account bridge w).2.store := by
  have hread : Store.CountedFrom .findLinks w.store
      (Query.findLinks account.id bridge w.store).2 := by
    rw [Query.findLinks_eq_call]
    exact .of_reading w.store
  unfold fetch
  split
  · exact .refl _ _
  · exact .refl _ _
  · split
    · rename_i hlinks
      rwa [hlinks] at hread
    · rename_i hlinks
      rwa [hlinks] at hread

/-- A directory contributes all links of the account to it. -/
theorem fetch_links {providers : Providers σ} {account : Account} {bridge : Bridge} {w : World σ}
    {c : Contribution} (h : (fetch providers account bridge w).1 = some c) :
    ∃ t, w.store.tables = some t ∧ c.links = t.linksTo account.id bridge := by
  unfold fetch at h
  split at h
  · contradiction
  · contradiction
  · split at h
    · rename_i hlinks
      rw [Query.findLinks_eq_call] at hlinks
      obtain ⟨t, ht, hanswer⟩ := Store.CountedFrom.answer_of_reading hlinks
      obtain rfl := Option.some.inj h
      exact ⟨t, ht, hanswer⟩
    · contradiction

/-- Fetching directories at most counts calls that read links. -/
theorem fetchAll_countedFrom (providers : Providers σ) (account : Account) (bridges : List Bridge)
    (w : World σ) :
    Store.CountedFrom .findLinks w.store (fetchAll providers account bridges w).2.store := by
  induction bridges generalizing w with
  | nil => exact .refl _ _
  | cons bridge rest ih =>
    exact (fetch_countedFrom providers account bridge w).trans (ih _)

/-- Every directory that contributes anything contributes all links of the account to it. -/
theorem exists_tables_of_fetchAll {providers : Providers σ} {account : Account}
    {bridges : List Bridge} {w : World σ} {bridge : Bridge} {c : Contribution}
    (h : (bridge, some c) ∈ (fetchAll providers account bridges w).1) :
    ∃ t, w.store.tables = some t ∧ c.links = t.linksTo account.id bridge := by
  induction bridges generalizing w with
  | nil => simp [fetchAll] at h
  | cons first rest ih =>
    rcases List.mem_cons.1 h with heq | hrest
    · obtain ⟨rfl, hfound⟩ := Prod.mk.inj heq
      exact fetch_links hfound.symm
    · obtain ⟨t, ht, hlinks⟩ := ih hrest
      exact ⟨t, (fetch_countedFrom providers account first w).tables.symm.trans ht, hlinks⟩

theorem fetchAll_links {providers : Providers σ} {account : Account} {bridges : List Bridge}
    {w : World σ} {t : Tables} (ht : w.store.tables = some t) {bridge : Bridge} {c : Contribution}
    (h : (bridge, some c) ∈ (fetchAll providers account bridges w).1) :
    c.links = t.linksTo account.id bridge := by
  obtain ⟨t', ht', hlinks⟩ := exists_tables_of_fetchAll h
  obtain rfl := Option.some.inj (ht.symm.trans ht')
  exact hlinks

/-- Every directory is fetched at its turn. -/
theorem fetchAll_bridges (providers : Providers σ) (account : Account) (bridges : List Bridge)
    (w : World σ) : (fetchAll providers account bridges w).1.map (·.1) = bridges := by
  induction bridges generalizing w with
  | nil => rfl
  | cons bridge rest ih => exact congrArg (bridge :: ·) (ih _)

/-- The directories that contribute something, in order. -/
def reached (fetched : List (Bridge × Option Contribution)) : List Bridge :=
  (fetched.filter fun (_, c) => c.isSome).map (·.1)

theorem mem_reached {fetched : List (Bridge × Option Contribution)} {bridge : Bridge} :
    bridge ∈ reached fetched ↔ ∃ c, (bridge, some c) ∈ fetched := by
  simp only [reached, List.mem_map, List.mem_filter, Option.isSome_iff_exists]
  constructor
  · rintro ⟨⟨b, c⟩, ⟨hmem, c', rfl⟩, rfl⟩
    exact ⟨c', hmem⟩
  · rintro ⟨c, hmem⟩
    exact ⟨(bridge, some c), ⟨hmem, c, rfl⟩, rfl⟩

theorem mem_usersOf {fetched : List (Bridge × Option Contribution)} {user : RemoteUser} :
    user ∈ usersOf fetched ↔ ∃ bridge c, (bridge, some c) ∈ fetched ∧ user ∈ c.users := by
  simp only [usersOf, List.mem_flatMap]
  constructor
  · rintro ⟨⟨bridge, _ | c⟩, hmem, huser⟩
    · simp [Contribution.none] at huser
    · exact ⟨bridge, c, hmem, huser⟩
  · rintro ⟨bridge, c, hmem, huser⟩
    exact ⟨(bridge, some c), hmem, huser⟩

theorem mem_linksOf {fetched : List (Bridge × Option Contribution)} {link : BridgeLink} :
    link ∈ linksOf fetched ↔ ∃ bridge c, (bridge, some c) ∈ fetched ∧ link ∈ c.links := by
  simp only [linksOf, List.mem_flatMap]
  constructor
  · rintro ⟨⟨bridge, _ | c⟩, hmem, hlink⟩
    · simp [Contribution.none] at hlink
    · exact ⟨bridge, c, hmem, hlink⟩
  · rintro ⟨bridge, c, hmem, hlink⟩
    exact ⟨(bridge, some c), hmem, hlink⟩

/-- Users are tagged with the directory that gave them. -/
def Tagged (fetched : List (Bridge × Option Contribution)) : Prop :=
  ∀ found ∈ fetched, ∀ c ∈ found.2, ∀ user ∈ c.users, user.bridge = found.1

instance (fetched : List (Bridge × Option Contribution)) : Decidable (Tagged fetched) :=
  inferInstanceAs (Decidable (∀ found ∈ fetched, ∀ c ∈ found.2, ∀ user ∈ c.users,
    user.bridge = found.1))

/-- Tagged users come from directories that were reached. -/
theorem Tagged.bridge_mem {fetched : List (Bridge × Option Contribution)} (h : Tagged fetched) :
    ∀ user ∈ usersOf fetched, user.bridge ∈ reached fetched := by
  intro user huser
  obtain ⟨bridge, c, hc, hmem⟩ := mem_usersOf.1 huser
  rw [h (bridge, some c) hc c rfl user hmem]
  exact mem_reached.2 ⟨c, hc⟩

/-! ## What fetching found -/

/-- What fetching found: the users of each directory, unless it was skipped. -/
def outcomeOf (fetched : List (Bridge × Option Contribution)) :
    List (Bridge × Option (List RemoteUser)) :=
  fetched.map fun (bridge, c) => (bridge, c.map (·.users))

/-- What fetching found, it found at the turns of the directories. -/
theorem outcomeOf_bridges (providers : Providers σ) (account : Account) (bridges : List Bridge)
    (w : World σ) : (outcomeOf (fetchAll providers account bridges w).1).map (·.1) = bridges := by
  rw [outcomeOf, List.map_map]
  exact fetchAll_bridges providers account bridges w

/-- The users are part of the outcome. -/
theorem usersOf_eq_outcome (fetched : List (Bridge × Option Contribution)) :
    usersOf fetched = (outcomeOf fetched).flatMap fun found => found.2.getD [] := by
  rw [usersOf, outcomeOf, List.flatMap_map]
  congr 1
  funext found
  obtain ⟨bridge, _ | c⟩ := found <;> rfl

/-- What was skipped is part of the outcome. -/
theorem skippedOf_eq_outcome (fetched : List (Bridge × Option Contribution)) :
    skippedOf fetched = ((outcomeOf fetched).filter fun found => found.2.isNone).map (·.1) := by
  simp [skippedOf, outcomeOf, List.filter_map, Function.comp_def]

/-- What was reached is part of the outcome. -/
theorem reached_eq_outcome (fetched : List (Bridge × Option Contribution)) :
    reached fetched = ((outcomeOf fetched).filter fun found => found.2.isSome).map (·.1) := by
  simp [reached, outcomeOf, List.filter_map, Function.comp_def]

theorem usersOf_congr {fetched fetched' : List (Bridge × Option Contribution)}
    (h : outcomeOf fetched = outcomeOf fetched') : usersOf fetched = usersOf fetched' := by
  rw [usersOf_eq_outcome, h, ← usersOf_eq_outcome]

theorem skippedOf_congr {fetched fetched' : List (Bridge × Option Contribution)}
    (h : outcomeOf fetched = outcomeOf fetched') : skippedOf fetched = skippedOf fetched' := by
  rw [skippedOf_eq_outcome, h, ← skippedOf_eq_outcome]

theorem reached_congr {fetched fetched' : List (Bridge × Option Contribution)}
    (h : outcomeOf fetched = outcomeOf fetched') : reached fetched = reached fetched' := by
  rw [reached_eq_outcome, h, ← reached_eq_outcome]

/-- The loaded links are those to the directories that were reached. -/
theorem linksOf_eq_flatMap {providers : Providers σ} {account : Account} {bridges : List Bridge}
    {w : World σ} {t : Tables} (ht : w.store.tables = some t) :
    linksOf (fetchAll providers account bridges w).1 =
      (reached (fetchAll providers account bridges w).1).flatMap (t.linksTo account.id) := by
  have hlinks : ∀ bridge c, (bridge, some c) ∈ (fetchAll providers account bridges w).1 →
      c.links = t.linksTo account.id bridge := fun _ _ h => fetchAll_links ht h
  generalize (fetchAll providers account bridges w).1 = fetched at hlinks
  induction fetched with
  | nil => rfl
  | cons found rest ih =>
    have hrest := ih fun bridge c hc => hlinks bridge c (List.mem_cons_of_mem _ hc)
    obtain ⟨bridge, _ | c⟩ := found
    · simpa [linksOf, reached, Contribution.none] using hrest
    · have hc := hlinks bridge c List.mem_cons_self
      simp only [linksOf, reached, List.flatMap_cons, Option.getD_some, hc, Option.isSome_some,
        List.filter_cons_of_pos, List.map_cons] at hrest ⊢
      rw [hrest]

/-- Without tables no directory is reached. -/
theorem reached_of_no_tables (providers : Providers σ) (account : Account) (bridges : List Bridge)
    {w : World σ} (ht : w.store.tables = none) :
    reached (fetchAll providers account bridges w).1 = [] := by
  rw [List.eq_nil_iff_forall_not_mem]
  intro bridge hbridge
  obtain ⟨c, hc⟩ := mem_reached.1 hbridge
  obtain ⟨t, ht', -⟩ := exists_tables_of_fetchAll hc
  cases ht.symm.trans ht'

/-- Where nothing was reached there are no users. -/
theorem usersOf_of_nothing_reached {fetched : List (Bridge × Option Contribution)}
    (h : reached fetched = []) : usersOf fetched = [] := by
  rw [List.eq_nil_iff_forall_not_mem]
  intro user huser
  obtain ⟨bridge, c, hc, -⟩ := mem_usersOf.1 huser
  exact List.not_mem_nil (h ▸ mem_reached.2 ⟨c, hc⟩)

/-- Where nothing was reached no links were loaded. -/
theorem linksOf_of_nothing_reached {fetched : List (Bridge × Option Contribution)}
    (h : reached fetched = []) : linksOf fetched = [] := by
  rw [List.eq_nil_iff_forall_not_mem]
  intro link hlink
  obtain ⟨bridge, c, hc, -⟩ := mem_linksOf.1 hlink
  exact List.not_mem_nil (h ▸ mem_reached.2 ⟨c, hc⟩)

/-- On the same rows, the same links are loaded if the same directories are reached. -/
theorem linksOf_congr {τ : Type} {providers : Providers σ} {providers' : Providers τ}
    {account : Account} {bridges bridges' : List Bridge} {w : World σ} {w' : World τ}
    (htables : w'.store.tables = w.store.tables)
    (hreached : reached (fetchAll providers' account bridges' w').1 =
      reached (fetchAll providers account bridges w).1) :
    linksOf (fetchAll providers' account bridges' w').1 =
      linksOf (fetchAll providers account bridges w).1 := by
  cases ht : w.store.tables with
  | none =>
    have hnone := reached_of_no_tables providers account bridges ht
    rw [linksOf_of_nothing_reached hnone, linksOf_of_nothing_reached (hreached.trans hnone)]
  | some t => rw [linksOf_eq_flatMap ht, linksOf_eq_flatMap (htables.trans ht), hreached]

/-! ## Runs -/

/-- The end of a run: reconcile what was fetched, and log how that went. -/
def conclude (key : MatchKey) (accountId : Uuid) (fetched : List (Bridge × Option Contribution)) :
    Action σ SyncReport := fun w =>
  match commit key accountId fetched w.store with
  | (.ok counts, store) =>
    (.ok ⟨counts.created, counts.updated, skippedOf fetched⟩, World.report { w with store }
      (.syncCommitted counts.created counts.updated (skippedOf fetched).length))
  | (.error e, store) => (.error e, World.report { w with store } (.syncRolledBack e))

theorem conclude_of_commit_ok {key : MatchKey} {accountId : Uuid}
    {fetched : List (Bridge × Option Contribution)} {w : World σ} {counts : Counts} {store : Store}
    (h : commit key accountId fetched w.store = (.ok counts, store)) :
    conclude key accountId fetched w =
      (.ok ⟨counts.created, counts.updated, skippedOf fetched⟩, World.report { w with store }
        (.syncCommitted counts.created counts.updated (skippedOf fetched).length)) := by
  simp only [conclude, h]

theorem conclude_of_commit_error {key : MatchKey} {accountId : Uuid}
    {fetched : List (Bridge × Option Contribution)} {w : World σ} {e : ServiceError} {store : Store}
    (h : commit key accountId fetched w.store = (.error e, store)) :
    conclude key accountId fetched w =
      (.error e, World.report { w with store } (.syncRolledBack e)) := by
  simp only [conclude, h]

/-- A run is a fetch with such an end. -/
theorem run_eq_conclude (key : MatchKey) (bridges : List Bridge) (providers : Providers σ)
    (account : Account) (w : World σ) :
    run key bridges providers account w =
      conclude key account.id (fetchAll providers account bridges w).1
        (fetchAll providers account bridges w).2 := rfl

/-- A run succeeds with its reconciliation. -/
theorem run_of_commit_ok {key : MatchKey} {bridges : List Bridge} {providers : Providers σ}
    {account : Account} {w : World σ} {counts : Counts} {store : Store}
    (h : commit key account.id (fetchAll providers account bridges w).1
      (fetchAll providers account bridges w).2.store = (.ok counts, store)) :
    run key bridges providers account w =
      (.ok ⟨counts.created, counts.updated, skippedOf (fetchAll providers account bridges w).1⟩,
        World.report { (fetchAll providers account bridges w).2 with store }
          (.syncCommitted counts.created counts.updated
            (skippedOf (fetchAll providers account bridges w).1).length)) :=
  conclude_of_commit_ok h

/-- A run fails with its reconciliation. -/
theorem run_of_commit_error {key : MatchKey} {bridges : List Bridge} {providers : Providers σ}
    {account : Account} {w : World σ} {e : ServiceError} {store : Store}
    (h : commit key account.id (fetchAll providers account bridges w).1
      (fetchAll providers account bridges w).2.store = (.error e, store)) :
    run key bridges providers account w =
      (.error e, World.report { (fetchAll providers account bridges w).2 with store }
        (.syncRolledBack e)) :=
  conclude_of_commit_error h

end Sync

end Concierge
