import Concierge.Delivery
import Concierge.Store.Queries

/-!
# The world of the service

Everything that requests act on: the store, the providers outside with the log, and the deliveries
that were promised and are under way.
-/

namespace Concierge

/-- The state that requests act on. -/
structure World (σ : Type) where
  store : Store
  outside : Outside σ
  /-- Promised deliveries, oldest first. -/
  pending : List Delivery

variable {σ α : Type}

/-- Append to the log. -/
def World.report (w : World σ) (e : Event) : World σ := { w with outside := w.outside.report e }

/-- Create the tables of the store, unless they are there. -/
def World.migrate (w : World σ) : World σ :=
  let w := w.report .migrating
  { w with store := w.store.migrate }.report .migrated

/-- Drop the tables of the store. -/
def World.drop (w : World σ) : World σ := { w with store := w.store.drop }

/-- The log. -/
def World.log (w : World σ) : List Event := w.outside.log

/-- Something that acts on the world and may fail. -/
abbrev Action (σ α : Type) := ExceptT ServiceError (StateM (World σ)) α

namespace Action

/-- Run a query. -/
def query (q : Query α) : Action σ α := fun w =>
  let (result, store) := q w.store
  (result, { w with store })

/-- Log an event. -/
def report (e : Event) : Action σ Unit := fun w => (.ok (), w.report e)

/-- Promise a delivery. -/
def promise (d : Delivery) : Action σ Unit := fun w =>
  (.ok (), { w with pending := w.pending ++ [d] })

end Action

end Concierge
