import Concierge.Proofs.Sync.Fetch

/-!
# All or nothing

A reconciliation is written out as a script, which tells call by call what is asked of the store and
how the answer is used.  Running a script while every call is recorded shows which call fails first
and that none comes after it; the script's run is the reconciliation's own.

The statement is about all stores, with and without dangling links, and about every pattern of
refused calls.  Fetching is no part of the script: what goes wrong there is never a run's failure.
-/

namespace Concierge

namespace Sync

/-! ## Commands and scripts -/

/-- A call of a reconciliation, with what it is given. -/
inductive Command where
  | find (accountId id : Uuid)
  | create (accountId : Uuid) (person : Person)
  | update (accountId : Uuid) (person : Person)
  | tie (accountId : Uuid) (link : BridgeLink)
  deriving DecidableEq, Repr

namespace Command

/-- What a call answers with. -/
def Answer : Command → Type
  | find _ _ => Option Person
  | create _ _ => Person
  | update _ _ => Person
  | tie _ _ => BridgeLink

/-- Make a call. -/
def query : (c : Command) → Query c.Answer
  | find accountId id => Query.findPerson accountId id
  | create accountId person => Query.createPerson accountId person
  | update accountId person => Query.updatePerson accountId person
  | tie accountId link => Query.createLink accountId link

/-- The failure that an answer amounts to: the person of a link has to exist. -/
def missing? : (c : Command) → c.Answer → Option ServiceError
  | find _ id, (found : Option Person) => if found.isNone then some (.notFound .person id) else none
  | create _ _, _ => none
  | update _ _, _ => none
  | tie _ _, _ => none

/-- The failure that a call brings. -/
def fault? (c : Command) : Except ServiceError c.Answer → Option ServiceError
  | .error e => some e
  | .ok answer => c.missing? answer

end Command

/-- What is asked of a store, call by call. -/
inductive Script (α : Type) where
  | done (a : α)
  | stop (e : ServiceError)
  /-- Take the next identifier. -/
  | draw (next : Uuid → Script α)
  | call (c : Command) (next : c.Answer → Script α)

/-- A call that was made, and the failure that it brought. -/
structure Entry where
  command : Command
  fault : Option ServiceError
  deriving DecidableEq, Repr

namespace Script

variable {α : Type}

/-- Run a script. -/
def query : Script α → Query α
  | done a => pure a
  | stop e => throw e
  | draw next => do (next (← Query.fresh)).query
  | call c next => do (next (← c.query)).query

/-- Run a script and record its calls. -/
def record : Script α → Store → (Except ServiceError α × Store) × List Entry
  | done a, s => ((.ok a, s), [])
  | stop e, s => ((.error e, s), [])
  | draw next, s => (next (s.supply s.issued)).record { s with issued := s.issued + 1 }
  | call c next, s =>
    match c.query s with
    | (.ok answer, s') =>
      let (result, entries) := (next answer).record s'
      (result, ⟨c, c.fault? (.ok answer)⟩ :: entries)
    | (.error e, s') => ((.error e, s'), [⟨c, c.fault? (.error e)⟩])

/-- A script that stops exactly where a call brings a failure, and with that failure. -/
def Careful : Script α → Prop
  | done _ => True
  | stop _ => False
  | draw next => ∀ id, (next id).Careful
  | call c next => ∀ answer, match c.missing? answer with
    | some e => next answer = stop e
    | none => (next answer).Careful

/-- Recording does not change a run. -/
theorem record_fst (script : Script α) (s : Store) : (script.record s).1 = script.query s := by
  induction script generalizing s with
  | done a => rfl
  | stop e => rfl
  | draw next ih => exact ih _ _
  | call c next ih =>
    unfold record query
    split
    · rename_i answer s' hcall
      rw [Fallible.bind_of_ok hcall, ← ih answer s']
    · rename_i e s' hcall
      rw [Fallible.bind_of_error hcall]

/-- A run in which no call brings a failure succeeds. -/
theorem Careful.succeeds {script : Script α} (h : script.Careful) {s : Store}
    (hclean : ∀ entry ∈ (script.record s).2, entry.fault = none) :
    ∃ a s', script.query s = (.ok a, s') := by
  induction script generalizing s with
  | done a => exact ⟨a, s, rfl⟩
  | stop e => exact h.elim
  | draw next ih => exact ih _ (h _) hclean
  | call c next ih =>
    unfold record at hclean
    split at hclean
    · rename_i answer s' hcall
      have hfound : c.missing? answer = none := hclean _ List.mem_cons_self
      have hnext := h answer
      simp only [hfound] at hnext
      obtain ⟨a, s'', hrest⟩ := ih answer hnext fun entry hentry =>
        hclean entry (List.mem_cons_of_mem _ hentry)
      exact ⟨a, s'', by rw [query, Fallible.bind_of_ok hcall, hrest]⟩
    · have hfault := hclean _ List.mem_cons_self
      simp [Command.fault?] at hfault

/-- A run ends with the first call that brings a failure, in that failure. -/
theorem Careful.fails {script : Script α} (h : script.Careful) {s : Store} {before after : List Entry}
    {last : Entry} {e : ServiceError} (hsplit : (script.record s).2 = before ++ last :: after)
    (hclean : ∀ entry ∈ before, entry.fault = none) (hlast : last.fault = some e) :
    after = [] ∧ ∃ s', script.query s = (.error e, s') := by
  induction script generalizing s before with
  | done a => simp [record] at hsplit
  | stop e => exact h.elim
  | draw next ih => exact ih _ (h _) hsplit hclean
  | call c next ih =>
    unfold record at hsplit
    split at hsplit
    · rename_i answer s' hcall
      have hnext := h answer
      cases hmissing : c.missing? answer with
      | none =>
        simp only [hmissing] at hnext
        cases before with
        | nil =>
          obtain ⟨rfl, -⟩ := List.cons.inj hsplit
          simp [Command.fault?, hmissing] at hlast
        | cons first others =>
          obtain ⟨-, hrest⟩ := List.cons.inj hsplit
          obtain ⟨hafter, s'', hquery⟩ := ih answer hnext hrest fun entry hentry =>
            hclean entry (List.mem_cons_of_mem _ hentry)
          exact ⟨hafter, s'', by rw [query, Fallible.bind_of_ok hcall, hquery]⟩
      | some e' =>
        simp only [hmissing] at hnext
        rw [hnext] at hsplit
        cases before with
        | nil =>
          obtain ⟨rfl, hafter⟩ := List.cons.inj hsplit
          obtain rfl : e' = e := by simpa [Command.fault?, hmissing] using hlast
          exact ⟨hafter.symm, s', by rw [query, Fallible.bind_of_ok hcall, hnext]; rfl⟩
        | cons first others =>
          obtain ⟨-, hrest⟩ := List.cons.inj hsplit
          simp [record] at hrest
    · rename_i e' s' hcall
      cases before with
      | nil =>
        obtain ⟨rfl, hafter⟩ := List.cons.inj hsplit
        obtain rfl : e' = e := by simpa [Command.fault?] using hlast
        exact ⟨hafter.symm, s', by rw [query, Fallible.bind_of_error hcall]⟩
      | cons first others =>
        obtain ⟨-, hrest⟩ := List.cons.inj hsplit
        simp at hrest

end Script

/-! ## The script of a reconciliation -/

/-- Refresh the person of a link. -/
def refreshScript {α : Type} (accountId personId : Uuid) (user : RemoteUser) (next : Script α) :
    Script α :=
  .call (.find accountId personId) fun
    | some person => .call (.update accountId (refreshed person user)) fun _ => next
    | none => .stop (.notFound .person personId)

/-- Make a person and their link. -/
def enrollScript {α : Type} (accountId : Uuid) (user : RemoteUser) (next : BridgeLink → Script α) :
    Script α :=
  .draw fun personId =>
    .call (.create accountId (newPerson personId accountId user)) fun person =>
      .draw fun linkId =>
        .call (.tie accountId ⟨linkId, accountId, Person.id person, user.bridge, user.externalId⟩) next

/-- Take over users in order. -/
def reconcileScript (key : MatchKey) (accountId : Uuid) :
    List RemoteUser → List BridgeLink → Counts → Script Counts
  | [], _, counts => .done counts
  | user :: rest, links, counts =>
    match links.find? fun link => linkMatches key link user with
    | some link =>
      refreshScript accountId link.personId user
        (reconcileScript key accountId rest links { counts with updated := counts.updated + 1 })
    | none =>
      enrollScript accountId user fun link =>
        reconcileScript key accountId rest (links ++ [link])
          { counts with created := counts.created + 1 }

/-- The script of a reconciliation runs as the reconciliation does. -/
theorem query_reconcileScript (key : MatchKey) (accountId : Uuid) (users : List RemoteUser)
    (links : List BridgeLink) (counts : Counts) :
    (reconcileScript key accountId users links counts).query =
      reconcile key accountId users links counts := by
  induction users generalizing links counts with
  | nil => rfl
  | cons user rest ih =>
    cases hfind : links.find? fun link => linkMatches key link user with
    | some link =>
      simp only [reconcileScript, reconcile, hfind, refreshScript, Script.query, refresh, bind_assoc]
      refine bind_congr fun found => ?_
      cases found with
      | none => rfl
      | some person =>
        simp only [Script.query, bind_assoc, pure_bind, ih]
        rfl
    | none =>
      simp only [reconcileScript, reconcile, hfind, enrollScript, Script.query, enroll, bind_assoc, ih]
      rfl

/-- The script of a reconciliation stops exactly where a call brings a failure. -/
theorem careful_reconcileScript (key : MatchKey) (accountId : Uuid) (users : List RemoteUser)
    (links : List BridgeLink) (counts : Counts) :
    (reconcileScript key accountId users links counts).Careful := by
  induction users generalizing links counts with
  | nil => trivial
  | cons user rest ih =>
    unfold reconcileScript
    split
    · intro found
      cases found with
      | none => rfl
      | some person => exact fun _ => ih _ _
    · exact fun _ _ _ link => ih _ _

/-! ## Runs -/

section Runs

variable {σ : Type}

/-- Among calls of which one brings a failure there is a first that does. -/
theorem exists_first_fault {entries : List Entry} (h : ¬ ∀ entry ∈ entries, entry.fault = none) :
    ∃ before last after e, entries = before ++ last :: after ∧
      (∀ entry ∈ before, entry.fault = none) ∧ last.fault = some e := by
  cases hfind : entries.find? (·.fault.isSome) with
  | none =>
    refine absurd (fun entry hentry => ?_) h
    simpa using List.find?_eq_none.1 hfind entry hentry
  | some last =>
    obtain ⟨hlast, before, after, hsplit, hclean⟩ := List.find?_eq_some_iff_append.1 hfind
    obtain ⟨e, he⟩ := Option.isSome_iff_exists.1 hlast
    exact ⟨before, last, after, e, hsplit, fun entry hentry => by simpa using hclean entry hentry, he⟩

/-- A run is all or nothing.  If no call of its reconciliation brings a failure, it succeeds,
whatever happened to the directories.  Otherwise it ends with the first call that does, in that
failure, and leaves the tables as they were. -/
theorem run_all_or_nothing (key : MatchKey) (bridges : List Bridge) (providers : Providers σ)
    (account : Account) (w : World σ) :
    let fetched := (fetchAll providers account bridges w).1
    let w₁ := (fetchAll providers account bridges w).2
    let script := reconcileScript key account.id (usersOf fetched) (linksOf fetched) ⟨0, 0⟩
    let entries := (script.record w₁.store).2
    (script.record w₁.store).1 =
        reconcile key account.id (usersOf fetched) (linksOf fetched) ⟨0, 0⟩ w₁.store ∧
      ((∀ entry ∈ entries, entry.fault = none) →
        ∃ report w', run key bridges providers account w = (.ok report, w')) ∧
      (∀ before last after e, entries = before ++ last :: after →
        (∀ entry ∈ before, entry.fault = none) → last.fault = some e →
        after = [] ∧ ∃ w', run key bridges providers account w = (.error e, w') ∧
          w'.store.tables = w.store.tables) ∧
      ∀ e w', run key bridges providers account w = (.error e, w') →
        ∃ entry ∈ entries, entry.fault = some e := by
  intro fetched w₁ script entries
  have hcareful : script.Careful := careful_reconcileScript _ _ _ _ _
  have hquery : script.query = reconcile key account.id (usersOf fetched) (linksOf fetched) ⟨0, 0⟩ :=
    query_reconcileScript _ _ _ _ _
  have hsucceeds (hclean : ∀ entry ∈ entries, entry.fault = none) :
      ∃ report w', run key bridges providers account w = (.ok report, w') := by
    obtain ⟨counts, s', hscript⟩ := hcareful.succeeds hclean
    exact ⟨_, _, run_of_commit_ok (Query.transaction_of_ok (hquery ▸ hscript))⟩
  have hfails (before last after e) (hsplit : entries = before ++ last :: after)
      (hclean : ∀ entry ∈ before, entry.fault = none) (hlast : last.fault = some e) :
      after = [] ∧ ∃ w', run key bridges providers account w = (.error e, w') ∧
        w'.store.tables = w.store.tables := by
    obtain ⟨hafter, s', hscript⟩ := hcareful.fails hsplit hclean hlast
    have hrun := run_of_commit_error (Query.transaction_of_error (hquery ▸ hscript))
    exact ⟨hafter, _, hrun, (fetchAll_countedFrom providers account bridges w).tables⟩
  refine ⟨hquery ▸ script.record_fst w₁.store, hsucceeds, hfails, ?_⟩
  intro e w' hrun
  by_cases hclean : ∀ entry ∈ entries, entry.fault = none
  · obtain ⟨report, w'', hok⟩ := hsucceeds hclean
    rw [hrun] at hok
    cases hok
  · obtain ⟨before, last, after, e', hsplit, hbefore, hlast⟩ := exists_first_fault hclean
    obtain ⟨-, w'', herror, -⟩ := hfails before last after e' hsplit hbefore hlast
    rw [hrun] at herror
    cases herror
    exact ⟨last, hsplit ▸ List.mem_append_right _ List.mem_cons_self, hlast⟩

end Runs

end Sync

end Concierge
