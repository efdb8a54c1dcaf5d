import Concierge.Proofs.Store.Calls
import Concierge.Proofs.Store.Keys
import Concierge.Proofs.Sync.Fetch

/-!
# Whom links are made for

A link that a synchronization leaves behind was there before, or was made for a user that it fetched and
bears that user's tag and external id.  Nothing is assumed of the tables here, nor of refused calls: a
run that fails takes back what it made.
-/

namespace Concierge

/-- The links of a store, if it has tables. -/
def Store.links (s : Store) : List LinkRow := (s.tables.map (·.links)).getD []

namespace Query

variable {α β : Type} {wanted : LinkRow → Prop}

/-- Every link that a query leaves was there before, or is one of the wanted. -/
def AddsOnly (wanted : LinkRow → Prop) (q : Query α) : Prop :=
  ∀ s, ∀ row ∈ (q s).2.links, row ∈ s.links ∨ wanted row

theorem AddsOnly.mono {wanted' : LinkRow → Prop} {q : Query α} (hq : AddsOnly wanted q)
    (h : ∀ row, wanted row → wanted' row) : AddsOnly wanted' q :=
  fun s row hrow => (hq s row hrow).imp_right (h row)

theorem addsOnly_pure (x : α) : AddsOnly wanted (pure x) := fun _ _ hrow => .inl hrow

theorem addsOnly_throw (e : ServiceError) : AddsOnly wanted (throw e : Query α) :=
  fun _ _ hrow => .inl hrow

theorem addsOnly_fresh : AddsOnly wanted fresh := fun _ _ hrow => .inl hrow

theorem addsOnly_bind {q : Query α} {f : α → Query β} (hq : AddsOnly wanted q)
    (hf : ∀ x, AddsOnly wanted (f x)) : AddsOnly wanted (q >>= f) := by
  intro s row hrow
  cases hfirst : q s with
  | mk result s₁ =>
    have hold : row ∈ s₁.links → row ∈ s.links ∨ wanted row := by
      have hadds := hq s row
      rwa [hfirst] at hadds
    cases result with
    | error e =>
      rw [Fallible.bind_of_error hfirst] at hrow
      exact hold hrow
    | ok x =>
      rw [Fallible.bind_of_ok hfirst] at hrow
      obtain hrow | hwanted := hf x s₁ row hrow
      · exact hold hrow
      · exact .inr hwanted

/-- A call adds what its function adds to the tables. -/
theorem addsOnly_call {c : Call} {f : Tables → Except ServiceError (α × Tables)}
    (hf : ∀ t x t', f t = .ok (x, t') → ∀ row ∈ t'.links, row ∈ t.links ∨ wanted row) :
    AddsOnly wanted (call c f) := by
  intro s row hrow
  cases hresult : call c f s with
  | mk result s' =>
    rw [hresult] at hrow
    cases result with
    | error e =>
      obtain ⟨rfl, -⟩ := call_error hresult
      rw [Store.links, Store.count_tables] at hrow
      exact .inl hrow
    | ok x =>
      obtain ⟨t, t', ht, hadd, rfl⟩ := call_ok hresult
      rw [Store.links, ht]
      exact hf t x t' hadd row hrow

/-- What a failed transaction made is taken back. -/
theorem addsOnly_transaction {q : Query α} (hq : AddsOnly wanted q) :
    AddsOnly wanted (transaction q) := by
  intro s row hrow
  cases hresult : q s with
  | mk result s' =>
    cases result with
    | error e =>
      rw [transaction_of_error hresult] at hrow
      exact .inl hrow
    | ok x =>
      rw [transaction_of_ok hresult] at hrow
      have hadds := hq s row
      rw [hresult] at hadds
      exact hadds hrow

theorem findPerson_addsOnly (accountId id : Uuid) : AddsOnly wanted (findPerson accountId id) := by
  rw [findPerson_eq_call]
  refine addsOnly_call fun t x t' hread row hrow => ?_
  cases hread
  exact .inl hrow

theorem createPerson_addsOnly (accountId : Uuid) (person : Person) :
    AddsOnly wanted (createPerson accountId person) := by
  rw [createPerson_eq_call]
  refine addsOnly_call fun t x t' hadd row hrow => ?_
  obtain ⟨-, -, rfl⟩ := Tables.addPerson_ok hadd
  exact .inl hrow

theorem updatePerson_addsOnly (accountId : Uuid) (person : Person) :
    AddsOnly wanted (updatePerson accountId person) := by
  rw [updatePerson_eq_call]
  refine addsOnly_call fun t x t' hreplace row hrow => ?_
  obtain ⟨-, -, rfl⟩ := Tables.replacePerson_ok hreplace
  exact .inl hrow

theorem createLink_addsOnly {accountId : Uuid} {link : BridgeLink}
    (h : wanted (.ofLink { link with accountId })) : AddsOnly wanted (createLink accountId link) := by
  rw [createLink_eq_call]
  refine addsOnly_call fun t x t' hadd row hrow => ?_
  obtain ⟨-, -, rfl, rfl⟩ := Tables.addLink_ok hadd
  obtain hold | hnew := List.mem_append.1 hrow
  · exact .inl hold
  · exact .inr (List.mem_singleton.1 hnew ▸ h)

end Query

namespace Sync

open Query

variable {σ : Type}

/-- A link of a user: it bears the user's tag and external id. -/
def IsOf (row : LinkRow) (user : RemoteUser) : Prop :=
  row.bridgeId = user.bridge.id ∧ row.externalId = user.externalId

theorem refresh_addsOnly {wanted : LinkRow → Prop} (accountId personId : Uuid) (user : RemoteUser) :
    AddsOnly wanted (refresh accountId personId user) := by
  refine addsOnly_bind (findPerson_addsOnly _ _) fun found => ?_
  cases found with
  | none => exact addsOnly_throw _
  | some person => exact addsOnly_bind (updatePerson_addsOnly _ _) fun _ => addsOnly_pure _

theorem enroll_addsOnly (accountId : Uuid) (user : RemoteUser) :
    AddsOnly (IsOf · user) (enroll accountId user) :=
  addsOnly_bind addsOnly_fresh fun _ => addsOnly_bind (createPerson_addsOnly _ _) fun _ =>
    addsOnly_bind addsOnly_fresh fun _ => createLink_addsOnly ⟨rfl, rfl⟩

theorem reconcile_addsOnly (key : MatchKey) (accountId : Uuid) (users : List RemoteUser)
    (links : List BridgeLink) (counts : Counts) :
    AddsOnly (fun row => ∃ user ∈ users, IsOf row user)
      (reconcile key accountId users links counts) := by
  induction users generalizing links counts with
  | nil => exact addsOnly_pure _
  | cons user rest ih =>
    have hrest (links : List BridgeLink) (counts : Counts) :
        AddsOnly (fun row => ∃ other ∈ user :: rest, IsOf row other)
          (reconcile key accountId rest links counts) :=
      (ih links counts).mono fun _ ⟨other, hother, hof⟩ => ⟨other, List.mem_cons_of_mem _ hother, hof⟩
    unfold reconcile
    split
    · exact addsOnly_bind (refresh_addsOnly _ _ _) fun _ => hrest _ _
    · exact addsOnly_bind ((enroll_addsOnly accountId user).mono fun _ hof =>
        ⟨user, List.mem_cons_self, hof⟩) fun _ => hrest _ _

/-- After a run, the links are those from before and links of users that the run fetched. -/
theorem run_links (key : MatchKey) (bridges : List Bridge) (providers : Providers σ)
    (account : Account) (w : World σ) :
    ∀ row ∈ (run key bridges providers account w).2.store.links, row ∈ w.store.links ∨
      ∃ user ∈ usersOf (fetchAll providers account bridges w).1, IsOf row user := by
  intro row hrow
  have hadds := addsOnly_transaction (reconcile_addsOnly key account.id
    (usersOf (fetchAll providers account bridges w).1)
    (linksOf (fetchAll providers account bridges w).1) ⟨0, 0⟩)
    (fetchAll providers account bridges w).2.store row
  rw [← commit] at hadds
  have hloaded : (fetchAll providers account bridges w).2.store.links = w.store.links := by
    rw [Store.links, (fetchAll_countedFrom providers account bridges w).tables, Store.links]
  rw [hloaded] at hadds
  cases hcommit : commit key account.id (fetchAll providers account bridges w).1
      (fetchAll providers account bridges w).2.store with
  | mk result store =>
    rw [hcommit] at hadds
    cases result with
    | ok counts =>
      rw [run_of_commit_ok hcommit] at hrow
      exact hadds hrow
    | error e =>
      rw [run_of_commit_error hcommit] at hrow
      exact hadds hrow

end Sync

end Concierge
