import Concierge.Proofs.Sync.Fetch
import Concierge.Service

/-!
# Requests that write no rows

Looking things up at most counts calls.  A knock and the message for a new account look things up
and then promise a delivery, which is made without the store, so they leave the tables as they are,
however they end.
-/

namespace Concierge

open Fallible

variable {σ α : Type}

namespace Query

/-- A call that only reads leaves the tables. -/
theorem leaves_call {c : Call} {read : Tables → α} :
    Leaves Store.tables (call c fun t => .ok (read t, t)) :=
  fun s => (Store.CountedFrom.of_reading s).tables

theorem findAccountByHost_leaves (host : String) : Leaves Store.tables (findAccountByHost host) := by
  rw [findAccountByHost_eq_call]
  exact leaves_call

theorem findPerson_leaves (accountId id : Uuid) : Leaves Store.tables (findPerson accountId id) := by
  rw [findPerson_eq_call]
  exact leaves_call

theorem findDoor_leaves (accountId id : Uuid) : Leaves Store.tables (findDoor accountId id) := by
  rw [findDoor_eq_call]
  exact leaves_call

theorem findLinks_leaves (accountId : Uuid) (bridge : Bridge) :
    Leaves Store.tables (findLinks accountId bridge) := by
  rw [findLinks_eq_call]
  exact leaves_call

end Query

/-- Logging several events only adds to the log. -/
theorem World.foldl_report (events : List Event) (w : World σ) :
    events.foldl World.report w =
      { w with outside := { w.outside with log := w.outside.log ++ events } } := by
  induction events generalizing w with
  | nil => simp
  | cons e rest ih => simp [ih, World.report, Outside.report]

/-- The tables of the store. -/
def World.tables (w : World σ) : Option Tables := w.store.tables

namespace Action

theorem query_leaves {q : Query α} (h : Leaves Store.tables q) :
    Leaves World.tables (Action.query q : Action σ α) := fun w => h w.store

theorem report_leaves (e : Event) : Leaves World.tables (report e : Action σ Unit) := fun _ => rfl

theorem promise_leaves (d : Delivery) : Leaves World.tables (promise d : Action σ Unit) := fun _ => rfl

end Action

namespace Service

variable (service : Service σ)

theorem accountByHost_leaves (host : String) :
    Leaves World.tables (accountByHost host : Action σ Account) := by
  refine leaves_bind (Action.query_leaves (Query.findAccountByHost_leaves host)) fun found => ?_
  cases found with
  | none => exact leaves_throw _ _
  | some account => exact leaves_pure _ _

theorem person_leaves (account : Account) (id : Uuid) :
    Leaves World.tables (person account id : Action σ Person) := by
  refine leaves_bind (Action.query_leaves (Query.findPerson_leaves account.id id)) fun found => ?_
  cases found with
  | none => exact leaves_throw _ _
  | some person => exact leaves_pure _ _

theorem door_leaves (account : Account) (id : Uuid) :
    Leaves World.tables (door account id : Action σ Door) := by
  refine leaves_bind (Action.query_leaves (Query.findDoor_leaves account.id id)) fun found => ?_
  cases found with
  | none => exact leaves_throw _ _
  | some door => exact leaves_pure _ _

theorem dispatch_leaves (account : Account) (door : Door) (person : Person) :
    Leaves World.tables (service.dispatch account door person) := by
  unfold dispatch
  cases Delivery.candidates service.providers account person with
  | nil => exact leaves_bind (Action.report_leaves _) fun _ => leaves_pure _ _
  | cons candidate others => exact leaves_bind (Action.promise_leaves _) fun _ => leaves_pure _ _

theorem knock_leaves (account : Account) (doorId personId : Uuid) :
    Leaves World.tables (service.knock account doorId personId) := by
  refine leaves_bind (person_leaves account personId) fun person => ?_
  by_cases hreachable : person.isVisible = true ∧ person.isAvailable = true
  · simp only [hreachable, and_self, not_true_eq_false, if_false]
    exact leaves_bind (door_leaves account doorId) fun door =>
      service.dispatch_leaves account door person
  · simp only [hreachable, not_false_eq_true, if_true]
    exact leaves_throw _ _

theorem accountCreated_leaves (account : Account) (personId : Uuid) (password : String) :
    Leaves World.tables (service.accountCreated account personId password) := by
  refine leaves_bind (person_leaves account personId) fun person => ?_
  cases Delivery.welcomeNotifier? service.providers account with
  | some notifier => exact leaves_bind (Action.promise_leaves _) fun _ => leaves_pure _ _
  | none => exact leaves_bind (Action.report_leaves _) fun _ => leaves_pure _ _

end Service

end Concierge
