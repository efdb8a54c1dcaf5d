import Concierge.Proofs.Store.Agreement
import Concierge.Proofs.Sync.Fetch
import Concierge.Proofs.Sync.Plan

/-!
# What a run depends on

A reconciliation makes four kinds of calls, and fetching makes a fifth.  What a store refuses to
other queries makes no difference to a run, and what is refused to fetching makes none to the
reconciliation that follows.

What is fetched is up to the providers: any outcome can be had on any rows.
-/

namespace Concierge

open Fallible

/-- Two worlds have stores that agree, and are otherwise the same. -/
structure World.Agree {σ : Type} (cs : List Call) (w w' : World σ) : Prop where
  store : w.store.Agree cs w'.store
  outside : w'.outside = w.outside
  pending : w'.pending = w.pending

namespace Sync

variable {σ : Type} {cs : List Call}

theorem respects_refresh (hcalls : calls ⊆ cs) (accountId personId : Uuid) (user : RemoteUser) :
    Respects (Store.Agree cs) (refresh accountId personId user) := by
  unfold refresh
  rw [Query.findPerson_eq_call]
  refine respects_bind (Query.respects_call (hcalls (by simp [calls])) _) fun found => ?_
  cases found with
  | none => exact respects_throw _
  | some person =>
    have hupdate : Respects (Store.Agree cs) (Query.updatePerson accountId (refreshed person user)) := by
      rw [Query.updatePerson_eq_call]
      exact Query.respects_call (hcalls (by simp [calls])) _
    exact respects_bind hupdate fun _ => respects_pure _

theorem respects_enroll (hcalls : calls ⊆ cs) (accountId : Uuid) (user : RemoteUser) :
    Respects (Store.Agree cs) (enroll accountId user) := by
  refine respects_bind Query.respects_fresh fun id => ?_
  rw [Query.createPerson_eq_call]
  refine respects_bind (Query.respects_call (hcalls (by simp [calls])) _) fun person => ?_
  refine respects_bind Query.respects_fresh fun linkId => ?_
  rw [Query.createLink_eq_call]
  exact Query.respects_call (hcalls (by simp [calls])) _

/-- A reconciliation depends on the refusals of its own calls. -/
theorem respects_reconcile (hcalls : calls ⊆ cs) (key : MatchKey) (accountId : Uuid)
    (users : List RemoteUser) (links : List BridgeLink) (counts : Counts) :
    Respects (Store.Agree cs) (reconcile key accountId users links counts) :=
  reconcile_of_parts (P := Respects (Store.Agree cs)) respects_pure respects_bind
    (respects_refresh hcalls accountId) (respects_enroll hcalls accountId) key users links counts

theorem respects_commit (hcalls : calls ⊆ cs) (key : MatchKey) (accountId : Uuid)
    (fetched : List (Bridge × Option Contribution)) :
    Respects (Store.Agree cs) (commit key accountId fetched) :=
  Query.respects_transaction (respects_reconcile hcalls key accountId _ _ _)

/-- Fetching leaves a store that agrees on everything but the calls that load links. -/
theorem fetchAll_agree (hlinks : Call.findLinks ∉ cs) (providers : Providers σ) (account : Account)
    (bridges : List Bridge) (w : World σ) :
    w.store.Agree cs (fetchAll providers account bridges w).2.store := by
  have hcounted := fetchAll_countedFrom providers account bridges w
  exact ⟨hcounted.tables, hcounted.supply, hcounted.issued,
    fun c hc => hcounted.refusals c fun heq => hlinks (heq ▸ hc)⟩

/-- Reconciliations do not load links. -/
theorem findLinks_not_mem_calls : Call.findLinks ∉ calls := by simp [calls]

theorem respects_fetch (hlinks : Call.findLinks ∈ cs) (providers : Providers σ) (account : Account)
    (bridge : Bridge) : Respects (World.Agree cs) (fetch providers account bridge) := by
  intro w w' h
  have hload := Query.respects_call hlinks (fun t => .ok (t.linksTo account.id bridge, t)) h.store
  rw [← Query.findLinks_eq_call] at hload
  cases husers : providers.users account bridge w.outside with
  | mk result outside =>
    have husers' : providers.users account bridge w'.outside = (result, outside) := by
      rw [h.outside, husers]
    rcases result with (e | ⟨e, last⟩) | users
    · simp only [fetch, husers, husers']
      exact ⟨trivial, h.store, rfl, h.pending⟩
    · simp only [fetch, husers, husers']
      exact ⟨trivial, h.store, rfl, h.pending⟩
    · cases hfind : Query.findLinks account.id bridge w.store with
      | mk found store =>
        cases hfind' : Query.findLinks account.id bridge w'.store with
        | mk found' store' =>
          rw [hfind, hfind'] at hload
          obtain ⟨hfound, hstore⟩ := hload
          obtain rfl : found' = found := hfound
          cases found' with
          | ok links =>
            simp only [fetch, husers, husers', hfind, hfind']
            exact ⟨trivial, hstore, rfl, h.pending⟩
          | error e =>
            simp only [fetch, husers, husers', hfind, hfind']
            exact ⟨trivial, hstore, rfl, h.pending⟩

theorem respects_fetchAll (hlinks : Call.findLinks ∈ cs) (providers : Providers σ)
    (account : Account) (bridges : List Bridge) :
    Respects (World.Agree cs) (fetchAll providers account bridges) := by
  induction bridges with
  | nil => exact respects_const _
  | cons bridge others ih =>
    exact (respects_fetch hlinks providers account bridge).andThen fun found =>
      ih.andThen (f := fun rest w => ((bridge, found) :: rest, w)) fun _ => respects_const _

theorem respects_conclude (hcalls : calls ⊆ cs) (key : MatchKey) (accountId : Uuid)
    (fetched : List (Bridge × Option Contribution)) :
    Respects (World.Agree cs) (conclude (σ := σ) key accountId fetched) := by
  intro w w' h
  have hcommit := respects_commit hcalls key accountId fetched h.store
  cases hrun : commit key accountId fetched w.store with
  | mk result store =>
    cases hrun' : commit key accountId fetched w'.store with
    | mk result' store' =>
      rw [hrun, hrun'] at hcommit
      obtain ⟨hanswer, hstore⟩ := hcommit
      obtain rfl : result' = result := hanswer
      cases result' with
      | ok counts =>
        rw [conclude_of_commit_ok hrun, conclude_of_commit_ok hrun']
        exact ⟨rfl, hstore, by simp only [World.report, h.outside], h.pending⟩
      | error e =>
        rw [conclude_of_commit_error hrun, conclude_of_commit_error hrun']
        exact ⟨rfl, hstore, by simp only [World.report, h.outside], h.pending⟩

/-- A run depends on the refusals of its own calls. -/
theorem respects_run (hcalls : calls ⊆ cs) (hlinks : Call.findLinks ∈ cs) (key : MatchKey)
    (bridges : List Bridge) (providers : Providers σ) (account : Account) :
    Respects (World.Agree cs) (run key bridges providers account) :=
  (respects_fetchAll hlinks providers account bridges).andThen (f := conclude key account.id)
    fun fetched => respects_conclude hcalls key account.id fetched

/-! ## Any outcome can be had -/

/-- Directories that answer in turn as a script outside says, or fail where it says nothing. -/
def scripted : Providers (List (Option (List RemoteUser))) where
  notifier? _ _ := none
  users _ _ := fun o =>
    match o.state with
    | some users :: rest => (.ok users, { o with state := rest })
    | _ => (.error (.failed .timeout), { o with state := o.state.tail })

/-- What scripted directories do at their turns, as long as links can be loaded. -/
theorem outcomeOf_scripted (account : Account) (script : List (Bridge × Option (List RemoteUser)))
    {w : World (List (Option (List RemoteUser)))} (hwilling : w.store.refusals .findLinks = [])
    (hstate : w.outside.state = script.map (·.2))
    (htables : ∀ bridge users, (bridge, some users) ∈ script → ∃ t, w.store.tables = some t) :
    outcomeOf (fetchAll scripted account (script.map (·.1)) w).1 = script := by
  induction script generalizing w with
  | nil => rfl
  | cons first rest ih =>
    have hrest {outside : Outside (List (Option (List RemoteUser)))}
        (hstate : outside.state = rest.map (·.2)) :
        outcomeOf (fetchAll scripted account (rest.map (·.1)) { w with outside }).1 = rest :=
      ih hwilling hstate fun bridge users hmem => htables bridge users (List.mem_cons_of_mem _ hmem)
    obtain ⟨bridge, answer⟩ := first
    cases answer with
    | none =>
      let outside : Outside (List (Option (List RemoteUser))) :=
        { w.outside with state := rest.map (·.2) }
      have husers : scripted.users account bridge w.outside =
          (.error (.failed .timeout), outside) := by
        simp [scripted, hstate, outside]
      have hfetch : fetch scripted account bridge w =
          (none, { w with outside := outside.report (.fetchFailed bridge .timeout) }) := by
        simp only [fetch, husers]
      simp only [List.map_cons, fetchAll, hfetch]
      exact congrArg ((bridge, none) :: ·) (hrest rfl)
    | some users =>
      obtain ⟨t, ht⟩ := htables bridge users List.mem_cons_self
      let outside : Outside (List (Option (List RemoteUser))) :=
        { w.outside with state := rest.map (·.2) }
      have husers : scripted.users account bridge w.outside = (.ok users, outside) := by
        simp [scripted, hstate, outside]
      have hlinks : Query.findLinks account.id bridge w.store =
          (.ok (t.linksTo account.id bridge), w.store) := by
        rw [Query.findLinks_eq_call]
        exact Query.call_of_reading hwilling ht rfl
      have hfetch : fetch scripted account bridge w =
          (some ⟨users, t.linksTo account.id bridge⟩, { w with outside }) := by
        simp only [fetch, husers, hlinks]
      simp only [List.map_cons, fetchAll, hfetch]
      exact congrArg ((bridge, some users) :: ·) (hrest rfl)

/-- Where users were fetched there are rows. -/
theorem exists_tables_of_outcome {providers : Providers σ} {account : Account}
    {bridges : List Bridge} {w : World σ} {bridge : Bridge} {users : List RemoteUser}
    (h : (bridge, some users) ∈ outcomeOf (fetchAll providers account bridges w).1) :
    ∃ t, w.store.tables = some t := by
  obtain ⟨⟨b, c⟩, hfound, heq⟩ := List.mem_map.1 h
  obtain ⟨c, rfl, -⟩ := Option.map_eq_some_iff.1 (Prod.mk.inj heq).2
  obtain ⟨t, ht, -⟩ := exists_tables_of_fetchAll hfound
  exact ⟨t, ht⟩

/-- Any outcome that needs no rows where there are none can be had in a store like a given one. -/
theorem exists_outcome (account : Account) (script : List (Bridge × Option (List RemoteUser)))
    (s : Store) (htables : ∀ bridge users, (bridge, some users) ∈ script → ∃ t, s.tables = some t) :
    ∃ w : World (List (Option (List RemoteUser))), s.Agree calls w.store ∧
      outcomeOf (fetchAll scripted account (script.map (·.1)) w).1 = script := by
  refine ⟨⟨s.refuse .findLinks [], ⟨script.map (·.2), []⟩, []⟩, ⟨rfl, rfl, rfl, fun c hc => ?_⟩,
    outcomeOf_scripted account script (by simp [Store.refuse]) rfl htables⟩
  have hne : c ≠ .findLinks := fun heq => findLinks_not_mem_calls (heq ▸ hc)
  simp [Store.refuse, hne]

end Sync

end Concierge
