import Concierge.Client
import Concierge.Proofs.Lookups

/-!
# What a request promises

A knock looks up the person, then whether they can be reached, then the door, and only then which
channels are eligible.  What can become of it is listed once, with everything that is known in each
case; so it is for the message for a new account.  A request promises one delivery, if it is accepted,
and leaves what was promised before and everything outside but the log as they were.
-/

namespace Concierge

open Fallible

variable {σ α : Type}

/-- Reading the rows succeeds, unless the call is refused or there are none. -/
theorem Query.read_cases (c : Call) (read : Tables → α) (s : Store) :
    (∃ reason, (s.admits c = false ∨ s.tables = none) ∧
        call c (fun t => .ok (read t, t)) s = (.error (.database reason), s.count c)) ∨
      ∃ t, s.tables = some t ∧ call c (fun t => .ok (read t, t)) s = (.ok (read t), s.count c) := by
  cases hc : s.admits c with
  | false => exact .inl ⟨_, .inl rfl, call_of_refused hc⟩
  | true =>
    rw [call_of_admitted hc]
    cases ht : s.tables with
    | none => exact .inl ⟨_, .inr rfl, onTables_of_none (by simpa using ht)⟩
    | some t => exact .inr ⟨t, rfl, onTables_of_unchanged (by simpa using ht) rfl⟩

/-- A row that was looked for, or the failure that it is missing. -/
def Found (e : ServiceError) (result : Option α) : Except ServiceError α :=
  match result with
  | some x => .ok x
  | none => .error e

/-- Looking up a row that has to be there. -/
theorem Action.lookup_cases {c : Call} {read : Tables → Option α} {q : Query (Option α)}
    {e : ServiceError} {k : Option α → Action σ α} (hq : q = Query.call c fun t => .ok (read t, t))
    (hsome : ∀ x, k (some x) = pure x) (hnone : k none = throw e) (w : World σ) :
    (∃ reason, (w.store.admits c = false ∨ w.store.tables = none) ∧
        (Action.query q >>= k) w = (.error (.database reason), { w with store := w.store.count c })) ∨
      ∃ t, w.store.tables = some t ∧
        (Action.query q >>= k) w = (Found e (read t), { w with store := w.store.count c }) := by
  subst hq
  rcases Query.read_cases c read w.store with ⟨reason, hrefused, hread⟩ | ⟨t, ht, hread⟩
  · refine .inl ⟨reason, hrefused, bind_of_error ?_⟩
    simp only [Action.query, hread]
  · refine .inr ⟨t, ht, ?_⟩
    have hquery : (Action.query (Query.call c fun t => .ok (read t, t)) : Action σ (Option α)) w =
        (.ok (read t), { w with store := w.store.count c }) := by
      simp only [Action.query, hread]
    rw [bind_of_ok hquery]
    cases read t with
    | some x => rw [hsome]; rfl
    | none => rw [hnone]; rfl

namespace Service

theorem person_cases (account : Account) (id : Uuid) (w : World σ) :
    (∃ reason, (w.store.admits .findPerson = false ∨ w.store.tables = none) ∧
        person account id w =
          (.error (.database reason), { w with store := w.store.count .findPerson })) ∨
      ∃ t, w.store.tables = some t ∧ person account id w =
        (Found (.notFound .person id) (t.person? account.id id),
          { w with store := w.store.count .findPerson }) :=
  Action.lookup_cases (Query.findPerson_eq_call account.id id) (fun _ => rfl) rfl w

theorem door_cases (account : Account) (id : Uuid) (w : World σ) :
    (∃ reason, (w.store.admits .findDoor = false ∨ w.store.tables = none) ∧
        door account id w =
          (.error (.database reason), { w with store := w.store.count .findDoor })) ∨
      ∃ t, w.store.tables = some t ∧ door account id w =
        (Found (.notFound .door id) (t.door? account.id id),
          { w with store := w.store.count .findDoor }) :=
  Action.lookup_cases (Query.findDoor_eq_call account.id id) (fun _ => rfl) rfl w

theorem account_cases (id : Uuid) (w : World σ) :
    (∃ reason, (w.store.admits .findAccount = false ∨ w.store.tables = none) ∧
        account id w =
          (.error (.database reason), { w with store := w.store.count .findAccount })) ∨
      ∃ t, w.store.tables = some t ∧ account id w =
        (Found (.notFound .account id) (t.accounts.find? (·.id == id)),
          { w with store := w.store.count .findAccount }) :=
  Action.lookup_cases (Query.findAccount_eq_call id) (fun _ => rfl) rfl w

theorem accountByHost_cases (host : String) (w : World σ) :
    (∃ reason, (w.store.admits .findAccountByHost = false ∨ w.store.tables = none) ∧
        accountByHost host w =
          (.error (.database reason), { w with store := w.store.count .findAccountByHost })) ∨
      ∃ t, w.store.tables = some t ∧ accountByHost host w =
        (Found (.unknownHost host) (t.accounts.find? (·.host == host)),
          { w with store := w.store.count .findAccountByHost }) :=
  Action.lookup_cases (Query.findAccountByHost_eq_call host) (fun _ => rfl) rfl w

end Service

/-! ## Knocks -/

/-- Somebody can be asked to come to the door. -/
def Person.IsReachable (p : Person) : Prop := p.isVisible = true ∧ p.isAvailable = true

instance (p : Person) : Decidable p.IsReachable :=
  inferInstanceAs (Decidable (p.isVisible = true ∧ p.isAvailable = true))

/-- The channels on which a knock is tried. -/
def Delivery.channels (providers : Providers σ) (account : Account) (person : Person) :
    List Channel :=
  (candidates providers account person).map (·.channel)

/-- What can become of a knock. -/
inductive Knocked (service : Service σ) (account : Account) (doorId personId : Uuid) (w : World σ) :
    Except ServiceError KnockOutcome × World σ → Prop where
  /-- The storage failed. -/
  | storage {store : Store} (reason : String)
      (refused : w.store.admits .findPerson = false ∨ w.store.admits .findDoor = false ∨
        w.store.tables = none) :
      Knocked service account doorId personId w (.error (.database reason), { w with store })
  | nobody {store : Store} {t : Tables} (tables : w.store.tables = some t)
      (missing : t.person? account.id personId = none) :
      Knocked service account doorId personId w
        (.error (.notFound .person personId), { w with store })
  | unreachable {store : Store} {t : Tables} {person : Person} (tables : w.store.tables = some t)
      (found : t.person? account.id personId = some person) (hidden : ¬ person.IsReachable) :
      Knocked service account doorId personId w
        (.error (.forbidden "person is not reachable"), { w with store })
  | noDoor {store : Store} {t : Tables} {person : Person} (tables : w.store.tables = some t)
      (found : t.person? account.id personId = some person) (reachable : person.IsReachable)
      (missing : t.door? account.id doorId = none) :
      Knocked service account doorId personId w
        (.error (.notFound .door doorId), { w with store })
  | noChannel {store : Store} {t : Tables} {person : Person} {door : Door}
      (tables : w.store.tables = some t)
      (found : t.person? account.id personId = some person) (reachable : person.IsReachable)
      (entry : t.door? account.id doorId = some door)
      (none : Delivery.channels service.providers account person = []) :
      Knocked service account doorId personId w
        (.ok .noChannel, World.report { w with store } .noChannels)
  /-- One delivery is promised. -/
  | accepted {store : Store} {t : Tables} {person : Person} {door : Door}
      (tables : w.store.tables = some t)
      (found : t.person? account.id personId = some person) (reachable : person.IsReachable)
      (entry : t.door? account.id doorId = some door)
      (some : Delivery.channels service.providers account person ≠ []) :
      Knocked service account doorId personId w
        (.ok (.accepted (Delivery.channels service.providers account person)),
          { w with
            store
            pending := w.pending ++ [.knock account door person
              (Delivery.channels service.providers account person)] })

namespace Service

variable (service : Service σ)

theorem dispatch_of_nil {account : Account} {person : Person}
    (h : Delivery.channels service.providers account person = []) (door : Door) (w : World σ) :
    service.dispatch account door person w = (.ok .noChannel, w.report .noChannels) := by
  rw [Delivery.channels, List.map_eq_nil_iff] at h
  unfold dispatch
  rw [h]
  rfl

theorem dispatch_of_ne_nil {account : Account} {person : Person}
    (h : Delivery.channels service.providers account person ≠ []) (door : Door) (w : World σ) :
    service.dispatch account door person w =
      (.ok (.accepted (Delivery.channels service.providers account person)),
        { w with pending := w.pending ++ [.knock account door person
            (Delivery.channels service.providers account person)] }) := by
  unfold dispatch Delivery.channels at *
  cases hcandidates : Delivery.candidates service.providers account person with
  | nil => exact absurd (by rw [hcandidates, List.map_nil]) h
  | cons candidate others => rfl

/-- Whatever becomes of a knock is one of these. -/
theorem knocked (account : Account) (doorId personId : Uuid) (w : World σ) :
    Knocked service account doorId personId w (service.knock account doorId personId w) := by
  unfold knock
  rcases person_cases account personId w with ⟨reason, hrefused, hperson⟩ | ⟨t, ht, hperson⟩
  · rw [bind_of_error hperson]
    exact .storage reason (hrefused.imp_right .inr)
  cases hfound : t.person? account.id personId with
  | none =>
    rw [hfound] at hperson
    rw [bind_of_error hperson]
    exact .nobody ht hfound
  | some person =>
    rw [hfound] at hperson
    rw [bind_of_ok hperson]
    by_cases hreachable : person.isVisible = true ∧ person.isAvailable = true
    · simp only [hreachable, and_self, not_true_eq_false, if_false]
      have hadmits : (w.store.count .findPerson).admits .findDoor = w.store.admits .findDoor := by
        rw [Store.admits, Store.admits, Store.count_refusals_of_ne _ (by decide)]
      rcases door_cases account doorId { w with store := w.store.count .findPerson } with
        ⟨reason, hrefused, hdoor⟩ | ⟨t', ht', hdoor⟩
      · simp only [hadmits, Store.count_tables] at hrefused
        refine (bind_of_error hdoor).symm ▸ ?_
        exact .storage reason (.inr hrefused)
      · obtain rfl : t = t' := by
          simp only [Store.count_tables] at ht'
          exact Option.some.inj (ht.symm.trans ht')
        cases hentry : t.door? account.id doorId with
        | none =>
          rw [hentry] at hdoor
          refine (bind_of_error hdoor).symm ▸ ?_
          exact .noDoor ht hfound hreachable hentry
        | some door =>
          rw [hentry] at hdoor
          refine (bind_of_ok hdoor).symm ▸ ?_
          by_cases hnone : Delivery.channels service.providers account person = []
          · rw [service.dispatch_of_nil hnone]
            exact .noChannel ht hfound hreachable hentry hnone
          · rw [service.dispatch_of_ne_nil hnone]
            exact .accepted ht hfound hreachable hentry hnone
    · simp only [hreachable, not_false_eq_true, if_true]
      exact .unreachable ht hfound hreachable

end Service

/-! ## Messages for new accounts -/

/-- What can become of the message for a new account. -/
inductive Welcomed (service : Service σ) (account : Account) (personId : Uuid) (password : String)
    (w : World σ) : Except ServiceError Bool × World σ → Prop where
  /-- The storage failed. -/
  | storage {store : Store} (reason : String)
      (refused : w.store.admits .findPerson = false ∨ w.store.tables = none) :
      Welcomed service account personId password w (.error (.database reason), { w with store })
  | nobody {store : Store} {t : Tables} (tables : w.store.tables = some t)
      (missing : t.person? account.id personId = none) :
      Welcomed service account personId password w
        (.error (.notFound .person personId), { w with store })
  | noChannel {store : Store} {t : Tables} {person : Person} (tables : w.store.tables = some t)
      (found : t.person? account.id personId = some person)
      (none : Delivery.welcomeNotifier? service.providers account = none) :
      Welcomed service account personId password w
        (.ok false, World.report { w with store } .noWelcomeChannel)
  /-- One message is promised. -/
  | promised {store : Store} {t : Tables} {person : Person} {notifier : Notifier σ}
      (tables : w.store.tables = some t) (found : t.person? account.id personId = some person)
      (some : Delivery.welcomeNotifier? service.providers account = some notifier) :
      Welcomed service account personId password w
        (.ok true,
          { w with
            store
            pending := w.pending ++ [.welcome account person password notifier.channel] })

/-- Whatever becomes of the message for a new account is one of these. -/
theorem Service.welcomed (service : Service σ) (account : Account) (personId : Uuid)
    (password : String) (w : World σ) :
    Welcomed service account personId password w
      (service.accountCreated account personId password w) := by
  unfold accountCreated
  rcases person_cases account personId w with ⟨reason, hrefused, hperson⟩ | ⟨t, ht, hperson⟩
  · rw [bind_of_error hperson]
    exact .storage reason hrefused
  cases hfound : t.person? account.id personId with
  | none =>
    rw [hfound] at hperson
    rw [bind_of_error hperson]
    exact .nobody ht hfound
  | some person =>
    rw [hfound] at hperson
    rw [bind_of_ok hperson]
    cases hnotifier : Delivery.welcomeNotifier? service.providers account with
    | none => exact .noChannel ht hfound hnotifier
    | some notifier => exact .promised ht hfound hnotifier

end Concierge
