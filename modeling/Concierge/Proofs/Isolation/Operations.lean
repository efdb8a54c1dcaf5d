import Concierge.Api.Router
import Concierge.Client
import Concierge.Proofs.Isolation.Confinement
import Concierge.Proofs.Lookups
import Concierge.Proofs.Sync.Plan

/-!
# Isolation of accounts

Everything that can be asked of the service for an account is confined to the account: what is
answered, which messages are promised and what becomes of the account's rows depends on nothing but
those rows, and the rows of other accounts stay.
-/

namespace Concierge

variable {σ α ρ : Type} {account : Account} {rest : Option Tables}

/-- The world with the rows of one account. -/
def World.only (w : World σ) (accountId : Uuid) : World σ := { w with store := w.store.only accountId }

@[simp] theorem World.only_pending (w : World σ) (accountId : Uuid) :
    (w.only accountId).pending = w.pending := rfl

@[simp] theorem World.only_outside (w : World σ) (accountId : Uuid) :
    (w.only accountId).outside = w.outside := rfl

/-- What is done in the world for an account is done on the account's rows. -/
abbrev World.ConfinedTo (account : Account) (rest : Option Tables) (a : World σ → ρ × World σ)
    (P : ρ → Prop) : Prop :=
  Confined (·.only account.id) (·.store.Holds account rest) a P

/-! ## Actions -/

/-- Logging and promising do not touch rows. -/
theorem confined_of_store {r : ρ} {P : ρ → Prop} {change : World σ → World σ}
    (hchange : ∀ w, (change w).store = w.store)
    (honly : ∀ w, change (w.only account.id) = (change w).only account.id) (h : P r) :
    World.ConfinedTo account rest (fun w => (r, change w)) P where
  commutes w _ := by rw [honly]
  keeps w hw := by rw [hchange]; exact hw
  yields _ _ := h

namespace Action

/-- A query answers in the world as it does in the store. -/
theorem query_of_eq {q : Query α} {w : World σ} {result : Except ServiceError α} {store : Store}
    (h : q w.store = (result, store)) :
    (Action.query q : Action σ α) w = (result, { w with store }) := by
  simp only [Action.query, h]

theorem query_confined {q : Query α} {P : α → Prop} (h : Query.ConfinedTo account rest q P) :
    World.ConfinedTo account rest (Action.query q : Action σ α) (OnSuccess P) where
  commutes w hw := by
    rw [query_of_eq (h.commutes w.store hw)]
    rfl
  keeps w hw := h.keeps w.store hw
  yields w hw := h.yields w.store hw

theorem report_confined (e : Event) :
    World.ConfinedTo account rest (report e : Action σ Unit) (OnSuccess fun _ => True) :=
  confined_of_store (fun _ => rfl) (fun _ => rfl) (onSuccess_ok trivial)

theorem promise_confined (d : Delivery) :
    World.ConfinedTo account rest (promise d : Action σ Unit) (OnSuccess fun _ => True) :=
  confined_of_store (fun _ => rfl) (fun _ => rfl) (onSuccess_ok trivial)

end Action

/-! ## Synchronization -/

namespace Sync

theorem refresh_confined (personId : Uuid) (user : RemoteUser) :
    Query.ConfinedTo account rest (refresh account.id personId user) fun _ => True := by
  refine (Query.findPerson_confined personId).bind fun found _ => ?_
  cases found with
  | none => exact confined_throw _ _
  | some person =>
    exact (Query.updatePerson_confined _).bind fun _ _ => confined_pure trivial

theorem enroll_confined (user : RemoteUser) :
    Query.ConfinedTo account rest (enroll account.id user) fun _ => True := by
  refine Query.fresh_confined.bind fun id hid => ?_
  refine (Query.createPerson_confined hid).bind fun person _ => ?_
  exact Query.fresh_confined.bind fun linkId hlink => Query.createLink_confined hlink

theorem reconcile_confined (key : MatchKey) (users : List RemoteUser) (links : List BridgeLink)
    (counts : Counts) :
    Query.ConfinedTo account rest (reconcile key account.id users links counts) fun _ => True :=
  reconcile_of_parts (P := fun q => Query.ConfinedTo account rest q fun _ => True)
    (fun _ => confined_pure trivial) (fun ha hf => ha.bind fun x _ => hf x) refresh_confined
    enroll_confined key users links counts

theorem fetch_confined (providers : Providers σ) (bridge : Bridge) :
    World.ConfinedTo account rest (fetch providers account bridge) fun _ => True := by
  refine confined_of_forall fun w hw => ?_
  have hcommutes := (Query.findLinks_confined bridge).commutes w.store hw
  have hkeeps := (Query.findLinks_confined bridge).keeps w.store hw
  cases husers : providers.users account bridge w.outside with
  | mk result outside =>
    rcases result with (e | ⟨e, last⟩) | users
    · simp only [fetch, World.only, husers]
      exact ⟨trivial, hw, trivial⟩
    · simp only [fetch, World.only, husers]
      exact ⟨trivial, hw, trivial⟩
    · cases hlinks : Query.findLinks account.id bridge w.store with
      | mk found store =>
        rw [hlinks] at hcommutes hkeeps
        cases found with
        | ok links =>
          simp only [fetch, World.only, husers, hlinks, hcommutes]
          exact ⟨trivial, hkeeps, trivial⟩
        | error e =>
          simp only [fetch, World.only, husers, hlinks, hcommutes]
          exact ⟨trivial, hkeeps, trivial⟩

theorem fetchAll_confined (providers : Providers σ) (bridges : List Bridge) :
    World.ConfinedTo account rest (fetchAll providers account bridges) fun _ => True := by
  induction bridges with
  | nil => exact confined_const trivial
  | cons bridge others ih =>
    exact (fetch_confined providers bridge).andThen fun found _ =>
      ih.andThen (f := fun rest w => ((bridge, found) :: rest, w)) fun _ _ => confined_const trivial

theorem commit_confined (key : MatchKey) (fetched : List (Bridge × Option Contribution)) :
    Query.ConfinedTo account rest (commit key account.id fetched) fun _ => True :=
  Query.transaction_confined (reconcile_confined key _ _ _)

theorem conclude_confined (key : MatchKey) (fetched : List (Bridge × Option Contribution)) :
    World.ConfinedTo account rest (conclude (σ := σ) key account.id fetched)
      (OnSuccess fun _ => True) := by
  refine confined_of_forall fun w hw => ?_
  have hcommutes := (commit_confined key fetched).commutes w.store hw
  have hkeeps := (commit_confined key fetched).keeps w.store hw
  cases hcommit : commit key account.id fetched w.store with
  | mk result store =>
    rw [hcommit] at hcommutes hkeeps
    cases result with
    | ok counts =>
      simp only [conclude, World.only, hcommit, hcommutes]
      exact ⟨rfl, hkeeps, onSuccess_ok trivial⟩
    | error e =>
      simp only [conclude, World.only, hcommit, hcommutes]
      exact ⟨rfl, hkeeps, onSuccess_error _ _⟩

theorem run_confined (key : MatchKey) (bridges : List Bridge) (providers : Providers σ) :
    World.ConfinedTo account rest (run key bridges providers account) (OnSuccess fun _ => True) :=
  (fetchAll_confined providers bridges).andThen (f := conclude key account.id) fun fetched _ =>
    conclude_confined key fetched

end Sync

/-! ## The service -/

namespace Service

variable (service : Service σ)

/-- The account is found by its identifier. -/
theorem account_confined :
    World.ConfinedTo account rest (Service.account account.id : Action σ Account)
      (OnSuccess (· = account)) := by
  refine (Action.query_confined Query.findAccount_confined).bind fun found hfound => ?_
  subst hfound
  exact confined_pure rfl

/-- The account is found by its host name. -/
theorem accountByHost_confined :
    World.ConfinedTo account rest (accountByHost account.host : Action σ Account)
      (OnSuccess (· = account)) := by
  refine (Action.query_confined Query.findAccountByHost_confined).bind fun found hfound => ?_
  subst hfound
  exact confined_pure rfl

theorem person_confined (id : Uuid) :
    World.ConfinedTo account rest (person account id : Action σ Person)
      (OnSuccess fun _ => True) := by
  refine (Action.query_confined (Query.findPerson_confined id)).bind fun found _ => ?_
  cases found with
  | none => exact confined_throw _ _
  | some p => exact confined_pure trivial

theorem door_confined (id : Uuid) :
    World.ConfinedTo account rest (door account id : Action σ Door) (OnSuccess fun _ => True) := by
  refine (Action.query_confined (Query.findDoor_confined id)).bind fun found _ => ?_
  cases found with
  | none => exact confined_throw _ _
  | some d => exact confined_pure trivial

theorem dispatch_confined (door : Door) (person : Person) :
    World.ConfinedTo account rest (service.dispatch account door person)
      (OnSuccess fun _ => True) := by
  unfold dispatch
  cases Delivery.candidates service.providers account person with
  | nil => exact (Action.report_confined _).bind fun _ _ => confined_pure trivial
  | cons candidate others => exact (Action.promise_confined _).bind fun _ _ => confined_pure trivial

theorem knock_confined (doorId personId : Uuid) :
    World.ConfinedTo account rest (service.knock account doorId personId)
      (OnSuccess fun _ => True) := by
  refine (person_confined personId).bind fun person _ => ?_
  by_cases hreachable : person.isVisible = true ∧ person.isAvailable = true
  · simp only [hreachable, and_self, not_true_eq_false, if_false]
    exact (door_confined doorId).bind fun door _ => service.dispatch_confined door person
  · simp only [hreachable, not_false_eq_true, if_true]
    exact confined_throw _ _

theorem syncPeople_confined :
    World.ConfinedTo account rest (service.syncPeople account) (OnSuccess fun _ => True) :=
  Sync.run_confined _ _ _

theorem accountCreated_confined (personId : Uuid) (password : String) :
    World.ConfinedTo account rest (service.accountCreated account personId password)
      (OnSuccess fun _ => True) := by
  refine (person_confined personId).bind fun person _ => ?_
  cases Delivery.welcomeNotifier? service.providers account with
  | some notifier => exact (Action.promise_confined _).bind fun _ _ => confined_pure trivial
  | none => exact (Action.report_confined _).bind fun _ _ => confined_pure trivial

end Service

/-! ## Requests -/

namespace Client

variable (service : Service σ)

theorem request_confined {a : Action σ α}
    (h : World.ConfinedTo account rest a (OnSuccess fun _ => True)) :
    World.ConfinedTo account rest (request a) fun _ => True :=
  h.map (Except.mapError ServiceError.toClient)

theorem knock_confined (doorId personId : Uuid) :
    World.ConfinedTo account rest (knock service account.id doorId personId) fun _ => True := by
  refine request_confined (Service.account_confined.bind fun found hfound => ?_)
  subst hfound
  exact service.knock_confined doorId personId

theorem syncPeople_confined :
    World.ConfinedTo account rest (syncPeople service account.id) fun _ => True := by
  refine request_confined (Service.account_confined.bind fun found hfound => ?_)
  subst hfound
  exact service.syncPeople_confined

theorem accountCreated_confined (personId : Uuid) (password : String) :
    World.ConfinedTo account rest (accountCreated service account.id personId password)
      fun _ => True := by
  refine request_confined (Service.account_confined.bind fun found hfound => ?_)
  subst hfound
  exact (service.accountCreated_confined personId password).bind fun _ _ => confined_pure trivial

end Client

namespace Api

variable (service : Service σ)

theorem refused_confined (r : Request) (e : ServiceError) :
    World.ConfinedTo account rest (refused (σ := σ) r e) fun _ => True :=
  confined_of_store (fun w => by rw [World.foldl_report])
    (fun w => by rw [World.foldl_report, World.foldl_report]; rfl) trivial

theorem answering_confined (r : Request) {a : Action σ α} (respond : α → Response)
    (h : World.ConfinedTo account rest a (OnSuccess fun _ => True)) :
    World.ConfinedTo account rest (answering r a respond) fun _ => True := by
  refine (h.andThen (Q := fun _ => True) (f := fun result w => match result with
    | .ok x => (respond x, w)
    | .error e => refused r e w) fun result _ => ?_).congr fun w => ?_
  · cases result with
    | ok x => exact confined_const trivial
    | error e => exact refused_confined r e
  · unfold answering
    rcases a w with ⟨_ | _, _⟩ <;> rfl

theorem serve_confined (endpoint : Endpoint) (r : Request) :
    World.ConfinedTo account rest (serve service endpoint account r) fun _ => True := by
  cases endpoint with
  | sync => exact answering_confined r _ service.syncPeople_confined
  | knock =>
    unfold serve
    cases r.knock with
    | error fault => exact confined_const trivial
    | ok knock => exact answering_confined r _ (service.knock_confined knock.doorId knock.personId)

/-- On the host of the account, a request is for the account or fails. -/
theorem tenantOf_confined {r : Request} (h : Tenant.label? r.host = some account.host) :
    World.ConfinedTo account rest (tenantOf (σ := σ) r) (OnSuccess (· = account)) := by
  refine (Service.accountByHost_confined.andThen (Q := OnSuccess (· = account))
    (f := fun result w => (match result with
      | .ok a => (.ok a, w)
      | .error e => (.error (refused r e w).1, (refused r e w).2) : Except Response Account × World σ))
    fun result hresult => ?_).congr fun w => ?_
  · cases result with
    | ok a => exact confined_const (onSuccess_ok (hresult a rfl))
    | error e =>
      exact (refused_confined r e).andThen
        (f := fun response w => (Except.error response, w)) fun _ _ =>
          confined_const (onSuccess_error _ _)
  · unfold tenantOf
    rw [h]
    rcases hfound : Service.accountByHost account.host w with ⟨_ | _, _⟩ <;> simp only [hfound]

theorem respondOn_confined (route : Route) {r : Request} (allowed : Bool)
    (h : Tenant.label? r.host = some account.host) :
    World.ConfinedTo account rest (respondOn service route r allowed) fun _ => True := by
  cases route with
  | health => exact confined_const trivial
  | tenant endpoint =>
    refine ((tenantOf_confined h).andThen (Q := fun _ => True) (f := fun result w => match result with
      | .error response => (response, w)
      | .ok a => if allowed then serve service endpoint a r w else (.plain 405, w))
      fun result hresult => ?_).congr fun w => ?_
    · cases result with
      | error response => exact confined_const trivial
      | ok a =>
        obtain rfl := hresult a rfl
        cases allowed with
        | false => exact confined_const trivial
        | true => exact serve_confined service endpoint r
    · unfold respondOn
      rcases tenantOf r w with ⟨_ | _, _⟩ <;> rfl

theorem respond_confined {r : Request} (h : Tenant.label? r.host = some account.host) :
    World.ConfinedTo account rest (respond service r) fun _ => True := by
  unfold respond
  cases Route.routes.lookup r.path with
  | none => exact confined_const trivial
  | some route =>
    exact (respondOn_confined service route _ h).map fun response =>
      { (if r.method = "HEAD" then response.withoutContent else response) with
        allow := if route.methods.contains r.method then none
          else some (",".intercalate route.methods) }

end Api

end Concierge
