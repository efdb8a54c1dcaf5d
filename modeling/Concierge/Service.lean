import Concierge.Report
import Concierge.Sync

/-!
# The service

What can be asked of the service.  A request names an account first; the people and doors it names
are those of that account alone.  A knock answers as soon as it is known on which channels it will
be tried; the delivery itself is promised and made later.
-/

namespace Concierge

/-- The service: the providers it uses and its settings. -/
structure Service (σ : Type) where
  providers : Providers σ
  settings : ServiceSettings

namespace Service

variable {σ : Type} (service : Service σ)

/-- The account with an identifier. -/
def account (id : Uuid) : Action σ Account := do
  match ← Action.query (Query.findAccount id) with
  | some a => return a
  | none => throw (.notFound .account id)

/-- The account that is served on a host. -/
def accountByHost (host : String) : Action σ Account := do
  match ← Action.query (Query.findAccountByHost host) with
  | some a => return a
  | none => throw (.unknownHost host)

/-- The person of an account with an identifier. -/
def person (account : Account) (id : Uuid) : Action σ Person := do
  match ← Action.query (Query.findPerson account.id id) with
  | some p => return p
  | none => throw (.notFound .person id)

/-- The door of an account with an identifier. -/
def door (account : Account) (id : Uuid) : Action σ Door := do
  match ← Action.query (Query.findDoor account.id id) with
  | some d => return d
  | none => throw (.notFound .door id)

/-- Promise a knock on every channel that can be used. -/
def dispatch (account : Account) (door : Door) (person : Person) : Action σ KnockOutcome := do
  match Delivery.candidates service.providers account person with
  | [] =>
    Action.report .noChannels
    return .noChannel
  | candidates =>
    let channels := candidates.map (·.channel)
    Action.promise (.knock account door person channels)
    return .accepted channels

/-- Somebody knocks at a door for a person. -/
def knock (account : Account) (doorId personId : Uuid) : Action σ KnockOutcome := do
  let person ← person account personId
  if ¬ (person.isVisible ∧ person.isAvailable) then throw (.forbidden "person is not reachable")
  let door ← door account doorId
  service.dispatch account door person

/-- The providers as they are asked for directories, within the limit of fetching one. -/
def fetching : Providers σ := service.providers.within service.settings.fetchTimeoutMs

/-- Synchronize the people of an account with its directories. -/
def syncPeople (account : Account) : Action σ SyncReport :=
  Sync.run service.settings.matchKey service.settings.syncBridges service.fetching account

/-- Promise the message for a new account; whether a channel can carry it. -/
def accountCreated (account : Account) (personId : Uuid) (password : String) : Action σ Bool := do
  let person ← person account personId
  match Delivery.welcomeNotifier? service.providers account with
  | some notifier =>
    Action.promise (.welcome account person password notifier.channel)
    return true
  | none =>
    Action.report .noWelcomeChannel
    return false

/-- Make all promised deliveries. -/
def drain (w : World σ) : World σ :=
  { w with
    outside := w.pending.foldl
      (fun o d => d.run service.providers service.settings.attemptTimeoutMs o) w.outside
    pending := [] }

/-- End the service after the promised deliveries. -/
def shutdown (w : World σ) : World σ := service.drain (w.report (.draining w.pending.length))

/-- End the service and everything around it. -/
def stop (w : World σ) : World σ := (service.shutdown w).report .stopped

end Service

end Concierge
