import Concierge.Proofs.Isolation.Operations

/-!
# Tenants do not see each other

Two worlds in which an account has the same rows cannot be told apart by anything that is asked for
it, however different the rows of others are, and nothing that is asked for it touches those.  A
request on a host that belongs to no account does nothing at all.
-/

namespace Concierge

variable {σ : Type}

/-- What can be asked for an account. -/
inductive Operation where
  /-- A request over HTTP, on the host of the account. -/
  | request (r : Api.Request)
  | knock (doorId personId : Uuid)
  | syncPeople
  | accountCreated (personId : Uuid) (password : String)

/-- What is answered. -/
inductive Outcome where
  | response (r : Api.Response)
  | knock (result : Except ClientError KnockOutcome)
  | syncPeople (result : Except ClientError SyncReport)
  | accountCreated (result : Except ClientError Unit)

namespace Operation

/-- Carry out an operation for the account with an identifier. -/
def perform (service : Service σ) (accountId : Uuid) (op : Operation) (w : World σ) :
    Outcome × World σ :=
  match op with
  | request r =>
    let (response, w) := Api.respond service r w
    (.response response, w)
  | knock doorId personId =>
    let (result, w) := Client.knock service accountId doorId personId w
    (.knock result, w)
  | syncPeople =>
    let (result, w) := Client.syncPeople service accountId w
    (.syncPeople result, w)
  | accountCreated personId password =>
    let (result, w) := Client.accountCreated service accountId personId password w
    (.accountCreated result, w)

/-- A request is made on the host of the account. -/
def IsFor (account : Account) : Operation → Prop
  | request r => Tenant.label? r.host = some account.host
  | _ => True

/-- Every operation for an account is confined to it. -/
theorem perform_confined (service : Service σ) {account : Account} {rest : Option Tables}
    {op : Operation} (h : op.IsFor account) :
    World.ConfinedTo account rest (op.perform service account.id) fun _ => True := by
  cases op with
  | request r => exact (Api.respond_confined service h).map Outcome.response
  | knock doorId personId =>
    exact (Client.knock_confined service doorId personId).map Outcome.knock
  | syncPeople => exact (Client.syncPeople_confined service).map Outcome.syncPeople
  | accountCreated personId password =>
    exact (Client.accountCreated_confined service personId password).map Outcome.accountCreated

end Operation

/-! ## Hosts of no account -/

namespace Api

/-- The host of a request belongs to no account. -/
def Unserved (r : Request) (w : World σ) : Prop :=
  ∀ label, Tenant.label? r.host = some label → ∀ t, w.store.tables = some t →
    ∀ a ∈ t.accounts, a.host ≠ label

/-- No rows, promises or providers are touched. -/
structure Untouched (w w' : World σ) : Prop where
  tables : w'.store.tables = w.store.tables
  pending : w'.pending = w.pending
  state : w'.outside.state = w.outside.state

/-- Looking for an account that is not there fails, and does nothing but count the call. -/
theorem accountByHost_unserved {label : String} {w : World σ}
    (h : ∀ t, w.store.tables = some t → ∀ a ∈ t.accounts, a.host ≠ label) :
    ∃ e, Service.accountByHost label w =
      (.error e, { w with store := w.store.count .findAccountByHost }) := by
  have hfind : (∃ e, Query.findAccountByHost label w.store =
      (.error e, w.store.count .findAccountByHost)) ∨
        Query.findAccountByHost label w.store = (.ok none, w.store.count .findAccountByHost) := by
    rw [Query.findAccountByHost_eq_call]
    cases hadmits : w.store.admits .findAccountByHost with
    | false => exact .inl ⟨_, Query.call_of_refused hadmits⟩
    | true =>
      rw [Query.call_of_admitted hadmits]
      cases ht : (w.store.count .findAccountByHost).tables with
      | none => exact .inl ⟨_, Query.onTables_of_none ht⟩
      | some t =>
        have hnone : t.accounts.find? (·.host == label) = none := by
          rw [Store.count_tables] at ht
          simpa [List.find?_eq_none] using h t ht
        right
        rw [Query.onTables_of_unchanged ht rfl, hnone]
  rcases hfind with ⟨e, hfind⟩ | hfind
  · exact ⟨e, Fallible.bind_of_error (Action.query_of_eq hfind)⟩
  · exact ⟨_, Fallible.bind_of_ok (Action.query_of_eq hfind)⟩

theorem refused_untouched (r : Request) (e : ServiceError) (w : World σ) :
    Untouched w (refused r e w).2 := by
  unfold refused
  rw [World.foldl_report]
  exact ⟨rfl, rfl, rfl⟩

/-- A request on a host of no account is refused, whatever it asks for. -/
theorem respond_unserved (service : Service σ) {r : Request} {w : World σ} (h : Unserved r w) :
    Untouched w (respond service r w).2 := by
  have htenant : ∃ response w', tenantOf r w = (.error response, w') ∧ Untouched w w' := by
    unfold tenantOf
    cases hlabel : Tenant.label? r.host with
    | none => exact ⟨_, w, rfl, rfl, rfl, rfl⟩
    | some label =>
      obtain ⟨e, he⟩ := accountByHost_unserved (h label hlabel)
      have huntouched := refused_untouched r e { w with store := w.store.count .findAccountByHost }
      refine ⟨_, _, by simp only [he]; rfl, ?_, huntouched.pending, huntouched.state⟩
      rw [huntouched.tables]
      exact w.store.count_tables _
  obtain ⟨response, w', htenant, huntouched⟩ := htenant
  unfold respond
  cases Route.routes.lookup r.path with
  | none => exact ⟨rfl, rfl, rfl⟩
  | some route =>
    cases route with
    | health => exact ⟨rfl, rfl, rfl⟩
    | tenant endpoint =>
      simp only [respondOn, htenant]
      exact huntouched

end Api

/-- Tenants are isolated: what is done for an account depends on its own rows alone, as if there were
no others, and leaves the rows of others as they are.  On a host of no account nothing is done. -/
theorem tenants_isolated (service : Service σ) {account : Account} {rest₁ rest₂ : Option Tables}
    {w₁ w₂ : World σ} (op : Operation) (hop : op.IsFor account)
    (h₁ : w₁.store.Holds account rest₁) (h₂ : w₂.store.Holds account rest₂)
    (hsame : w₁.only account.id = w₂.only account.id) :
    let r₁ := op.perform service account.id w₁
    let r₂ := op.perform service account.id w₂
    r₁.1 = r₂.1 ∧ r₁.2.only account.id = r₂.2.only account.id ∧
      r₁.2.pending = r₂.2.pending ∧
      (service.drain r₁.2).outside = (service.drain r₂.2).outside ∧
      r₁.2.store.tables.map (·.others account.id) = w₁.store.tables.map (·.others account.id) ∧
      r₂.2.store.tables.map (·.others account.id) = w₂.store.tables.map (·.others account.id) ∧
      op.perform service account.id (w₁.only account.id) = (r₁.1, r₁.2.only account.id) ∧
      ∀ (r : Api.Request) (w : World σ), Api.Unserved r w →
        Api.Untouched w (Api.respond service r w).2 := by
  intro r₁ r₂
  have hconfined₁ : World.ConfinedTo account rest₁ (op.perform service account.id) fun _ => True :=
    op.perform_confined service hop
  have hconfined₂ : World.ConfinedTo account rest₂ (op.perform service account.id) fun _ => True :=
    op.perform_confined service hop
  have halone₁ := hconfined₁.commutes w₁ h₁
  have halone₂ := hconfined₂.commutes w₂ h₂
  have hboth : (r₁.1, r₁.2.only account.id) = (r₂.1, r₂.2.only account.id) := by
    rw [← halone₁, ← halone₂, hsame]
  obtain ⟨hanswer, hstate⟩ := Prod.mk.inj hboth
  have hpending : r₁.2.pending = r₂.2.pending := by simpa using congrArg World.pending hstate
  have houtside : r₁.2.outside = r₂.2.outside := by simpa using congrArg World.outside hstate
  refine ⟨hanswer, hstate, hpending, ?_, ?_, ?_, halone₁, fun r w hr => Api.respond_unserved service hr⟩
  · simp only [Service.drain, hpending, houtside]
  · exact (hconfined₁.keeps w₁ h₁).others.trans h₁.others.symm
  · exact (hconfined₂.keeps w₂ h₂).others.trans h₂.others.symm

/-! ### A link to somebody else's person

One tenant has a link that leads to a person of a neighbour, or to nobody if the neighbour is not
there. -/

/-- The tenant. -/
def sampleTenant : Account := ⟨.ofNat 1, "Acme", "acme", "", "", default, default⟩

/-- The rows of the tenant. -/
def sampleAlone : Tables := ⟨[sampleTenant], [], [], [⟨.ofNat 21, .ofNat 1, .ofNat 12, 1, "7"⟩]⟩

/-- The same rows among those of a neighbour. -/
def sampleBeside : Tables where
  accounts := [⟨.ofNat 2, "Else", "else", "", "", default, default⟩, sampleTenant]
  people := [⟨.ofNat 12, .ofNat 2, "Ann", "", "ann", "", true, true, .all⟩]
  doors := [⟨.ofNat 31, .ofNat 2, "Front"⟩]
  links := [⟨.ofNat 21, .ofNat 1, .ofNat 12, 1, "7"⟩, ⟨.ofNat 22, .ofNat 2, .ofNat 12, 1, "7"⟩]

/-- A world with these rows. -/
def sampleWorldOf (t : Tables) : World Unit := ⟨.new (some t) fun _ => .ofNat 100, ⟨(), []⟩, []⟩

/-- A service that knows one user. -/
def sampleService : Service Unit where
  providers := ⟨fun _ _ => none, fun _ bridge => match bridge with
    | .hub => pure [⟨.hub, "7", "Ann", "ann", "", ""⟩]
    | _ => Attempt.fail .timeout⟩
  settings := .standard

/-- The rows of a sample hold the tenant. -/
theorem sample_holds {t : Tables} (hkeyed : t.Keyed) (htenant : sampleTenant ∈ t.accounts)
    (hunused : (t.others sampleTenant.id).Unused (.ofNat 100)) :
    (sampleWorldOf t).store.Holds sampleTenant (some (t.others sampleTenant.id)) where
  others := rfl
  keyed t' ht' := by
    cases ht'
    exact hkeyed
  account t' ht' := by
    cases ht'
    exact htenant
  unused t' ht' _ _ := by
    cases ht'
    exact hunused

theorem tenants_isolated_sample :
    (Operation.syncPeople.perform sampleService sampleTenant.id (sampleWorldOf sampleBeside)).1 =
        (Operation.syncPeople.perform sampleService sampleTenant.id (sampleWorldOf sampleAlone)).1 ∧
      (Operation.syncPeople.perform sampleService sampleTenant.id
          (sampleWorldOf sampleBeside)).2.store.tables.map (·.others sampleTenant.id) =
        some (sampleBeside.others sampleTenant.id) := by
  have hbeside := sample_holds (t := sampleBeside)
    ⟨by decide, by decide, by decide, by decide, by decide, by decide⟩ (by decide)
    ⟨by decide, by decide⟩
  have halone := sample_holds (t := sampleAlone)
    ⟨by decide, by decide, by decide, by decide, by decide, by decide⟩ (by decide)
    ⟨by decide, by decide⟩
  obtain ⟨hanswer, -, -, -, hothers, -⟩ :=
    tenants_isolated sampleService .syncPeople trivial hbeside halone rfl
  exact ⟨hanswer, hothers⟩

end Concierge
