import Concierge.Service

/-!
# Callers inside the process

The same requests as the service's own, made with the identifier of an account.  What goes wrong is
reported without the storage's words.
-/

namespace Concierge.Client

variable {σ α : Type} (service : Service σ)

/-- A request of a caller inside the process. -/
abbrev Request (σ α : Type) := ExceptT ClientError (StateM (World σ)) α

/-- Report failures as callers are told of them. -/
def request (a : Action σ α) : Request σ α := fun w =>
  let (result, w) := a w
  (result.mapError ServiceError.toClient, w)

/-- Somebody knocks at a door for a person. -/
def knock (accountId doorId personId : Uuid) : Request σ KnockOutcome :=
  request do
    let account ← Service.account accountId
    service.knock account doorId personId

/-- Synchronize the people of an account with its directories. -/
def syncPeople (accountId : Uuid) : Request σ SyncReport :=
  request do
    let account ← Service.account accountId
    service.syncPeople account

/-- Send the message for a new account; it is no failure if no channel can carry it. -/
def accountCreated (accountId personId : Uuid) (password : String) : Request σ Unit :=
  request do
    let account ← Service.account accountId
    let _ ← service.accountCreated account personId password

end Concierge.Client
