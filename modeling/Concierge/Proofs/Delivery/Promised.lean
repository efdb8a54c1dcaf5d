import Concierge.Proofs.Api.Hosts
import Concierge.Proofs.Isolation.Tenants
import Concierge.Proofs.Outside

/-!
# Which operations promise a message

An operation promises one message at most.  It does so if it comes to a knock and the service accepts
that, or if it asks for the message for a new account and there is a channel for it; nothing that is
refused, and no synchronization, promises anything.

No operation reaches a notifier.  Only directories are asked for something, so a part of the outside
that they do not touch is left by every operation.
-/

namespace Concierge

open Fallible

variable {σ γ : Type}

/-- Asking the directories leaves a part of what is outside. -/
def Providers.Spares (providers : Providers σ) (part : σ → γ) : Prop :=
  ∀ account bridge, Leaves (fun o : Outside σ => part o.state) (providers.users account bridge)

/-- The promised messages and a part of what is outside. -/
def World.aside (part : σ → γ) (w : World σ) : List Delivery × γ := (w.pending, part w.outside.state)

/-! ## Operations without promises -/

namespace Sync

variable {providers : Providers σ} {part : σ → γ}

theorem fetch_aside (h : providers.Spares part) (account : Account) (bridge : Bridge) (w : World σ) :
    (fetch providers account bridge w).2.aside part = w.aside part := by
  have hspares := h account bridge w.outside
  unfold fetch
  cases husers : providers.users account bridge w.outside with
  | mk result outside =>
    rw [husers] at hspares
    rcases result with (e | ⟨e, last⟩) | users
    · exact congrArg (w.pending, ·) hspares
    · exact congrArg (w.pending, ·) hspares
    · cases hlinks : Query.findLinks account.id bridge w.store with
      | mk found store => cases found <;> exact congrArg (w.pending, ·) hspares

theorem fetchAll_aside (h : providers.Spares part) (account : Account) (bridges : List Bridge)
    (w : World σ) : (fetchAll providers account bridges w).2.aside part = w.aside part := by
  induction bridges generalizing w with
  | nil => rfl
  | cons bridge rest ih => exact (ih _).trans (fetch_aside h account bridge w)

theorem run_aside (h : providers.Spares part) (key : MatchKey) (bridges : List Bridge)
    (account : Account) (w : World σ) :
    (run key bridges providers account w).2.aside part = w.aside part := by
  refine Eq.trans ?_ (fetchAll_aside h account bridges w)
  unfold run
  cases fetchAll providers account bridges w with
  | mk fetched w₁ =>
    simp only
    cases commit key account.id fetched w₁.store with
    | mk result store => cases result <;> rfl

end Sync

/-- What attempts spare they spare within a limit. -/
theorem Providers.Spares.within {providers : Providers σ} {part : σ → γ} (h : providers.Spares part)
    (limitMs : Nat) : (providers.within limitMs).Spares part := fun account bridge o =>
  (congrArg part (Attempt.within_state limitMs _ o)).trans (h account bridge o)

theorem Service.syncPeople_aside {service : Service σ} {part : σ → γ}
    (h : service.providers.Spares part) (account : Account) (w : World σ) :
    (service.syncPeople account w).2.aside part = w.aside part :=
  Sync.run_aside (h.within _) _ _ account w

namespace Api

theorem refused_aside (part : σ → γ) (r : Request) (e : ServiceError) (w : World σ) :
    (refused r e w).2.aside part = w.aside part := by
  unfold refused
  rw [World.foldl_report]
  rfl

/-- An answer leaves what the action behind it leaves. -/
theorem answering_aside (part : σ → γ) {α : Type} (r : Request) (a : Action σ α)
    (respond : α → Response) (w : World σ) :
    (answering r a respond w).2.aside part = (a w).2.aside part := by
  unfold answering
  cases a w with
  | mk result w' =>
    cases result with
    | ok x => rfl
    | error e => exact refused_aside part _ e w'

end Api

/-! ## The account of an operation -/

/-- An operation was found to be for an account; so far only a call was counted. -/
structure Admits (w w' : World σ) (t : Tables) (account : Account) : Prop where
  before : w.store.tables = some t
  after : w'.store.tables = some t
  account : account ∈ t.accounts
  pending : w'.pending = w.pending
  state : w'.outside.state = w.outside.state

theorem Service.account_admits {id : Uuid} {w w' : World σ} {account : Account}
    (h : Service.account id w = (.ok account, w')) :
    ∃ t, Admits w w' t account ∧ account.id = id := by
  rcases account_cases id w with ⟨reason, -, hfailed⟩ | ⟨t, ht, hfound⟩
  · cases h.symm.trans hfailed
  · rw [h] at hfound
    cases hfind : t.accounts.find? (·.id == id) with
    | none =>
      rw [hfind] at hfound
      cases hfound
    | some a =>
      rw [hfind] at hfound
      cases hfound
      exact ⟨t, ⟨ht, (w.store.count_tables _).trans ht, List.mem_of_find?_eq_some hfind, rfl, rfl⟩,
        by simpa using List.find?_some hfind⟩

theorem Service.account_aside (part : σ → γ) (id : Uuid) (w : World σ) :
    (Service.account id w).2.aside part = w.aside part := by
  rcases account_cases id w with ⟨reason, -, h⟩ | ⟨t, -, h⟩ <;> rw [h] <;> rfl

theorem Service.accountByHost_aside (part : σ → γ) (host : String) (w : World σ) :
    (accountByHost host w).2.aside part = w.aside part := by
  rcases accountByHost_cases host w with ⟨reason, -, h⟩ | ⟨t, -, h⟩ <;> rw [h] <;> rfl

theorem Api.tenantOf_admits {r : Request} {w w' : World σ} {account : Account}
    (h : tenantOf r w = (.ok account, w')) : ∃ t, Admits w w' t account := by
  unfold tenantOf at h
  cases hlabel : Tenant.label? r.host with
  | none =>
    simp only [hlabel] at h
    cases h
  | some label =>
    simp only [hlabel] at h
    rcases Service.accountByHost_cases label w with ⟨reason, -, hfailed⟩ | ⟨t, ht, hfound⟩
    · simp only [hfailed] at h
      cases h
    · cases hfind : t.accounts.find? (·.host == label) with
      | none =>
        simp only [hfound, hfind, Found] at h
        cases h
      | some a =>
        simp only [hfound, hfind, Found] at h
        cases h
        exact ⟨t, ht, (w.store.count_tables _).trans ht, List.mem_of_find?_eq_some hfind, rfl, rfl⟩

theorem Api.tenantOf_aside (part : σ → γ) (r : Request) (w : World σ) :
    (tenantOf r w).2.aside part = w.aside part := by
  unfold tenantOf
  cases Tenant.label? r.host with
  | none => rfl
  | some label =>
    refine Eq.trans ?_ (Service.accountByHost_aside part label w)
    simp only
    cases Service.accountByHost label w with
    | mk result w' =>
      cases result with
      | ok account => rfl
      | error e => exact refused_aside part r e w'

/-! ## Knocks -/

/-- A knock as it comes to the service: for an account that was found before, in the world after
that. -/
structure Knocking (σ : Type) where
  account : Account
  doorId : Uuid
  personId : Uuid
  world : World σ

namespace Knocking

variable (service : Service σ) (k : Knocking σ)

/-- Make the knock. -/
def make : Except ServiceError KnockOutcome × World σ :=
  service.knock k.account k.doorId k.personId k.world

/-- A knock that is accepted promises a message to the person, who was to be reached, about the
door, on the channels that it answers with. -/
inductive Promises : Delivery → Prop where
  | accepted {t : Tables} {person : Person} {door : Door} {channels : List Channel}
      (accepted : (k.make service).1 = .ok (.accepted channels))
      (tables : k.world.store.tables = some t)
      (found : t.person? k.account.id k.personId = some person) (reachable : person.IsReachable)
      (entry : t.door? k.account.id k.doorId = some door)
      (channels_eq : channels = Delivery.channels service.providers k.account person) :
      Promises (.knock k.account door person channels)

theorem knocked : Knocked service k.account k.doorId k.personId k.world (k.make service) :=
  service.knocked k.account k.doorId k.personId k.world

theorem promises_of_accepted {channels : List Channel}
    (h : (k.make service).1 = .ok (.accepted channels)) :
    ∃ door person, k.Promises service (.knock k.account door person channels) := by
  have hknocked := k.knocked service
  generalize hmake : k.make service = made at hknocked
  rw [hmake] at h
  cases hknocked with
  | accepted tables found reachable entry =>
    cases h
    exact ⟨_, _, .accepted (by rw [hmake]) tables found reachable entry rfl⟩
  | _ => cases h

/-- A message is promised if the knock is accepted, and not otherwise. -/
theorem promised (part : σ → γ) : ∃ promised : Option Delivery,
    (∀ d, promised = some d ↔ k.Promises service d) ∧
      (k.make service).2.aside part =
        (k.world.pending ++ promised.toList, part k.world.outside.state) := by
  have hknocked := k.knocked service
  generalize hmake : k.make service = made at hknocked
  have hnone (hrefused : ∀ channels, made.1 ≠ .ok (.accepted channels))
      (haside : made.2.aside part = k.world.aside part) : ∃ promised : Option Delivery,
        (∀ d, promised = some d ↔ k.Promises service d) ∧
          made.2.aside part = (k.world.pending ++ promised.toList, part k.world.outside.state) := by
    refine ⟨none, fun d => ⟨fun h => (by cases h), fun h => ?_⟩, ?_⟩
    · cases h with
      | accepted accepted => exact absurd (hmake ▸ accepted) (hrefused _)
    · rw [haside, Option.toList_none, List.append_nil]
      rfl
  cases hknocked with
  | @accepted store t person door tables found reachable entry some =>
    refine ⟨Option.some (.knock k.account door person _), fun d => ⟨fun hd => ?_, fun h => ?_⟩, rfl⟩
    · cases hd
      exact .accepted (by rw [hmake]) tables found reachable entry rfl
    · cases h with
      | accepted accepted tables' found' reachable' entry' =>
        obtain rfl := Option.some.inj (tables.symm.trans tables')
        obtain rfl := Option.some.inj (found.symm.trans found')
        obtain rfl := Option.some.inj (entry.symm.trans entry')
        rw [hmake] at accepted
        cases accepted
        rfl
  | _ => exact hnone (fun _ h => by cases h) rfl

end Knocking

namespace Operation

/-- The knock that an operation comes to, if it does. -/
def knocking? (accountId : Uuid) (w : World σ) : Operation → Option (Knocking σ)
  | .knock doorId personId =>
    match Service.account accountId w with
    | (.ok account, world) => some ⟨account, doorId, personId, world⟩
    | (.error _, _) => none
  | .request r =>
    if r.method = "POST" ∧ Api.Route.routes.lookup r.path = some (.tenant .knock) then
      match Api.tenantOf r w, r.knock with
      | (.ok account, world), .ok asked => some ⟨account, asked.doorId, asked.personId, world⟩
      | _, _ => none
    else none
  | .syncPeople | .accountCreated _ _ => none

/-- The knock of an operation is made for an account that is there. -/
theorem knocking?_admits {accountId : Uuid} {w : World σ} {op : Operation} {k : Knocking σ}
    (h : op.knocking? accountId w = some k) : ∃ t, Admits w k.world t k.account := by
  cases op with
  | knock doorId personId =>
    cases haccount : Service.account accountId w with
    | mk result w' =>
      cases result with
      | ok account =>
        simp only [knocking?, haccount] at h
        cases h
        obtain ⟨t, hadmits, -⟩ := Service.account_admits haccount
        exact ⟨t, hadmits⟩
      | error e =>
        simp only [knocking?, haccount] at h
        cases h
  | request r =>
    simp only [knocking?] at h
    split at h
    · split at h
      · rename_i htenant hknock
        cases h
        exact Api.tenantOf_admits htenant
      · cases h
    · cases h
  | syncPeople => cases h
  | accountCreated personId password => cases h

/-- An operation promises a message. -/
inductive Promises (service : Service σ) (accountId : Uuid) (w : World σ) :
    Operation → Delivery → Prop where
  | knock {op : Operation} {k : Knocking σ} {d : Delivery} (made : op.knocking? accountId w = some k)
      (promises : k.Promises service d) : Promises service accountId w op d
  | welcome {personId : Uuid} {password : String} {t : Tables} {account : Account} {person : Person}
      {notifier : Notifier σ} {w₁ : World σ} (found : Service.account accountId w = (.ok account, w₁))
      (tables : w₁.store.tables = some t) (addressee : t.person? account.id personId = some person)
      (sent : (service.accountCreated account personId password w₁).1 = .ok true)
      (some : Delivery.welcomeNotifier? service.providers account = some notifier) :
      Promises service accountId w (.accountCreated personId password)
        (.welcome account person password notifier.channel)

variable {service : Service σ} {part : σ → γ} {accountId : Uuid} {w : World σ}

/-- An operation leads to a world: what it promises, if anything, is the last of what is promised
there, and a part of the outside is as before. -/
def LeadsTo (service : Service σ) (part : σ → γ) (accountId : Uuid) (w : World σ) (op : Operation)
    (w' : World σ) : Prop :=
  ∃ promised : Option Delivery, (∀ d, promised = some d ↔ op.Promises service accountId w d) ∧
    w'.aside part = (w.pending ++ promised.toList, part w.outside.state)

theorem leadsTo_of_knocking {op : Operation} {k : Knocking σ} {w' : World σ}
    (hop : ∀ personId password, op ≠ .accountCreated personId password)
    (hk : op.knocking? accountId w = some k)
    (hw' : w'.aside part = (k.make service).2.aside part) :
    op.LeadsTo service part accountId w w' := by
  obtain ⟨promised, hpromises, hmake⟩ := k.promised service part
  obtain ⟨t, hadmits⟩ := knocking?_admits hk
  refine ⟨promised, fun d => (hpromises d).trans ⟨fun h => .knock hk h, fun h => ?_⟩, ?_⟩
  · cases h with
    | knock made promises => exact Option.some.inj (hk.symm.trans made) ▸ promises
    | welcome => exact absurd rfl (hop _ _)
  · rw [hw', hmake, hadmits.pending, hadmits.state]

theorem leadsTo_of_silence {op : Operation} {w' : World σ}
    (hsilent : ∀ d, ¬ op.Promises service accountId w d) (hw' : w'.aside part = w.aside part) :
    op.LeadsTo service part accountId w w' := by
  refine ⟨none, fun d => ⟨fun h => (by cases h), fun h => absurd h (hsilent d)⟩, ?_⟩
  rw [hw', Option.toList_none, List.append_nil]
  rfl

/-- An operation that comes to no knock and asks for no message promises none. -/
theorem leadsTo_of_no_knocking {op : Operation} {w' : World σ}
    (hop : ∀ personId password, op ≠ .accountCreated personId password)
    (hk : op.knocking? accountId w = none) (hw' : w'.aside part = w.aside part) :
    op.LeadsTo service part accountId w w' := by
  refine leadsTo_of_silence (fun d h => ?_) hw'
  cases h with
  | knock made promises => cases hk.symm.trans made
  | welcome => exact absurd rfl (hop _ _)

theorem knock_leadsTo (service : Service σ) (part : σ → γ) (accountId doorId personId : Uuid)
    (w : World σ) :
    (knock doorId personId).LeadsTo service part accountId w
      ((knock doorId personId).perform service accountId w).2 := by
  have haside := Service.account_aside part accountId w
  cases haccount : Service.account accountId w with
  | mk result w₁ =>
    rw [haccount] at haside
    cases result with
    | ok account =>
      refine leadsTo_of_knocking (k := ⟨account, doorId, personId, w₁⟩) (fun _ _ h => by cases h)
        (by simp only [knocking?, haccount]) ?_
      simp only [perform, Client.knock, Client.request, bind_of_ok haccount]
      rfl
    | error e =>
      refine leadsTo_of_no_knocking (fun _ _ h => by cases h) (by simp only [knocking?, haccount]) ?_
      simp only [perform, Client.knock, Client.request, bind_of_error haccount]
      exact haside

theorem syncPeople_leadsTo (h : service.providers.Spares part) (accountId : Uuid) (w : World σ) :
    syncPeople.LeadsTo service part accountId w (syncPeople.perform service accountId w).2 := by
  refine leadsTo_of_no_knocking (fun _ _ h => by cases h) rfl ?_
  have haside := Service.account_aside part accountId w
  cases haccount : Service.account accountId w with
  | mk result w₁ =>
    rw [haccount] at haside
    cases result with
    | ok account =>
      simp only [perform, Client.syncPeople, Client.request, bind_of_ok haccount]
      exact (service.syncPeople_aside h account w₁).trans haside
    | error e =>
      simp only [perform, Client.syncPeople, Client.request, bind_of_error haccount]
      exact haside

theorem accountCreated_leadsTo (service : Service σ) (part : σ → γ) (accountId personId : Uuid)
    (password : String) (w : World σ) :
    (accountCreated personId password).LeadsTo service part accountId w
      ((accountCreated personId password).perform service accountId w).2 := by
  have haside := Service.account_aside part accountId w
  cases haccount : Service.account accountId w with
  | mk result w₁ =>
    rw [haccount] at haside
    cases result with
    | error e =>
      refine leadsTo_of_silence (fun d h => ?_) ?_
      · cases h with
        | knock made promises => cases made
        | welcome found => cases haccount.symm.trans found
      · simp only [perform, Client.accountCreated, Client.request, bind_of_error haccount]
        exact haside
    | ok account =>
      have hworld : ((accountCreated personId password).perform service accountId w).2 =
          (service.accountCreated account personId password w₁).2 := by
        simp only [perform, Client.accountCreated, Client.request, bind_of_ok haccount]
        cases hcreated : service.accountCreated account personId password w₁ with
        | mk result w₂ =>
          cases result with
          | ok sent => simp only [bind_of_ok hcreated]; rfl
          | error e => simp only [bind_of_error hcreated]
      have hwelcomed := service.welcomed account personId password w₁
      rw [hworld]
      generalize hmade : service.accountCreated account personId password w₁ = made at hwelcomed
      have hsilent (hrefused : made.1 ≠ .ok true) (d : Delivery) :
          ¬ (accountCreated personId password).Promises service accountId w d := by
        intro h
        cases h with
        | knock made promises => cases made
        | welcome found tables addressee sent =>
          cases haccount.symm.trans found
          exact hrefused (hmade ▸ sent)
      cases hwelcomed with
      | @promised store t person notifier tables found some =>
        refine ⟨Option.some (.welcome account person password notifier.channel),
          fun d => ⟨fun hd => ?_, fun h => ?_⟩, ?_⟩
        · cases hd
          exact .welcome haccount tables found (by rw [hmade]) some
        · cases h with
          | knock made promises => cases made
          | welcome found' tables' addressee' sent' some' =>
            cases haccount.symm.trans found'
            obtain rfl := Option.some.inj (tables.symm.trans tables')
            obtain rfl := Option.some.inj (found.symm.trans addressee')
            obtain rfl := Option.some.inj (some.symm.trans some')
            rfl
        · have hpair := Prod.mk.inj haside
          rw [← hpair.1, ← hpair.2]
          rfl
      | _ => exact leadsTo_of_silence (hsilent fun h => by cases h) haside

theorem request_leadsTo (h : service.providers.Spares part) (accountId : Uuid) (r : Api.Request)
    (w : World σ) :
    (request r).LeadsTo service part accountId w ((request r).perform service accountId w).2 := by
  have hop : ∀ personId password, request r ≠ .accountCreated personId password :=
    fun _ _ h => by cases h
  have haside := Api.tenantOf_aside part r w
  cases hroute : Api.Route.routes.lookup r.path with
  | none =>
    refine leadsTo_of_no_knocking hop (by simp [knocking?, hroute]) ?_
    simp only [perform, Api.respond, hroute]
  | some route =>
    cases route with
    | health =>
      refine leadsTo_of_no_knocking hop (by simp [knocking?, hroute]) ?_
      simp only [perform, Api.respond, hroute, Api.respondOn]
    | tenant endpoint =>
      cases htenant : Api.tenantOf r w with
      | mk result w₁ =>
        rw [htenant] at haside
        cases result with
        | error response =>
          refine leadsTo_of_no_knocking hop (by simp [knocking?, htenant]) ?_
          simp only [perform, Api.respond, hroute, Api.respondOn, htenant]
          exact haside
        | ok account =>
          by_cases hmethod : r.method = "POST"
          · have hperform : ((request r).perform service accountId w).2 =
                (Api.serve service endpoint account r w₁).2 := by
              simp only [perform, Api.respond_of_tenantOf hmethod hroute htenant]
            rw [hperform]
            cases endpoint with
            | sync =>
              refine leadsTo_of_no_knocking hop (by simp [knocking?, hroute]) ?_
              exact (Api.answering_aside part _ _ _ w₁).trans
                ((service.syncPeople_aside h account w₁).trans haside)
            | knock =>
              cases hknock : r.knock with
              | error fault =>
                refine leadsTo_of_no_knocking hop (by simp [knocking?, hknock]) ?_
                simp only [Api.serve, hknock]
                exact haside
              | ok asked =>
                refine leadsTo_of_knocking (k := ⟨account, asked.doorId, asked.personId, w₁⟩) hop
                  (by simp [knocking?, hmethod, hroute, htenant, hknock]) ?_
                simp only [Api.serve, hknock]
                exact Api.answering_aside part _ _ _ w₁
          · have hallowed : (Api.Route.tenant endpoint).methods.contains r.method = false := by
              simpa [Api.Route.methods] using hmethod
            refine leadsTo_of_no_knocking hop (by simp [knocking?, hmethod]) ?_
            simp only [perform, Api.respond, hroute, hallowed, Api.respondOn, htenant]
            exact haside

/-- Every operation promises at most one message, and only directories are asked for something. -/
theorem perform_leadsTo (h : service.providers.Spares part) (accountId : Uuid) (op : Operation)
    (w : World σ) : op.LeadsTo service part accountId w (op.perform service accountId w).2 := by
  cases op with
  | request r => exact request_leadsTo h accountId r w
  | knock doorId personId => exact knock_leadsTo service part accountId doorId personId w
  | syncPeople => exact syncPeople_leadsTo h accountId w
  | accountCreated personId password =>
    exact accountCreated_leadsTo service part accountId personId password w

end Operation

end Concierge
