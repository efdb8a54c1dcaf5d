import Concierge.Proofs.Lookups
import Concierge.Proofs.Sync.Outcome

/-!
# Whatever is done to the service

The tables start empty and are changed by nothing but the steps below, each of which may be refused
by the storage at any of its calls.  What a step does to the tables is said once, in
`Step.apply_linkless` and `syncPeople_adds`; that keys stay unique, that links lead to people of their account and that
nothing is ever removed follows for every history by induction on its steps.

Nothing is assumed about fresh identifiers, about the bridges that users are tagged with or about
the providers, which may differ from step to step.
-/

namespace Concierge

namespace History

variable {σ : Type} {t : Tables} {w : World σ}

/-! ## Steps -/

/-- Something that is done to the service. -/
inductive Step (σ : Type) where
  | createAccount (account : Account)
  | createPerson (accountId : Uuid) (person : Person)
  | updatePerson (accountId : Uuid) (person : Person)
  | createDoor (accountId : Uuid) (door : Door)
  | sync (service : Service σ) (account : Account)
  | knock (service : Service σ) (account : Account) (doorId personId : Uuid)
  | accountCreated (service : Service σ) (account : Account) (personId : Uuid) (password : String)
  | deliver (service : Service σ)
  /-- Calls of a query are going to be refused. -/
  | refuse (c : Call) (gaps : List Nat)

/-- The world after a step. -/
def Step.apply : Step σ → World σ → World σ
  | .createAccount account, w => (Action.query (Query.createAccount account) w).2
  | .createPerson accountId person, w => (Action.query (Query.createPerson accountId person) w).2
  | .updatePerson accountId person, w => (Action.query (Query.updatePerson accountId person) w).2
  | .createDoor accountId door, w => (Action.query (Query.createDoor accountId door) w).2
  | .sync service account, w => (service.syncPeople account w).2
  | .knock service account doorId personId, w => (service.knock account doorId personId w).2
  | .accountCreated service account personId password, w =>
    (service.accountCreated account personId password w).2
  | .deliver service, w => service.drain w
  | .refuse c gaps, w => { w with store := w.store.refuse c gaps }

/-- The world after several steps. -/
def after (w : World σ) (steps : List (Step σ)) : World σ :=
  steps.foldl (fun w step => step.apply w) w

/-- A world in which nothing was done but setting up the storage. -/
def start (supply : Nat → Uuid) (outside : Outside σ) : World σ :=
  World.migrate ⟨.new none supply, outside, []⟩

theorem start_tables (supply : Nat → Uuid) (outside : Outside σ) :
    (start supply outside).tables = some .empty := rfl

/-! ## What a step does -/

/-- What becomes of sound tables if no link is written. -/
structure Linkless (t t' : Tables) : Prop where
  intact : t'.Intact
  grows : t.Grows t'
  links : t'.links = t.links

namespace Linkless

theorem refl (hi : t.Intact) : Linkless t t := ⟨hi, .refl t, rfl⟩

theorem of_keyed {t' : Tables} (hi : t.Intact) (hkeyed : t'.Keyed) (hgrows : t.Grows t')
    (hlinks : t'.links = t.links) : Linkless t t' :=
  ⟨⟨hkeyed, hi.grounded.of_grows hgrows hlinks⟩, hgrows, hlinks⟩

theorem addAccount {t' : Tables} {account added : Account} (hi : t.Intact)
    (h : t.addAccount account = .ok (added, t')) : Linkless t t' :=
  of_keyed hi (hi.keyed.addAccount h) (.addAccount h) (by
    obtain ⟨-, -, -, rfl⟩ := Tables.addAccount_ok h
    rfl)

theorem addDoor {t' : Tables} {accountId : Uuid} {door added : Door} (hi : t.Intact)
    (h : t.addDoor accountId door = .ok (added, t')) : Linkless t t' :=
  of_keyed hi (hi.keyed.addDoor h) (.addDoor h) (by
    obtain ⟨-, -, rfl⟩ := Tables.addDoor_ok h
    rfl)

theorem addPerson {t' : Tables} {accountId : Uuid} {person added : Person} (hi : t.Intact)
    (h : t.addPerson accountId person = .ok (added, t')) : Linkless t t' :=
  of_keyed hi (hi.keyed.addPerson h) (.addPerson h) (by
    obtain ⟨-, -, rfl⟩ := Tables.addPerson_ok h
    rfl)

theorem replacePerson {t' : Tables} {accountId : Uuid} {person updated : Person} (hi : t.Intact)
    (h : t.replacePerson accountId person = .ok (updated, t')) : Linkless t t' :=
  of_keyed hi (hi.keyed.replacePerson h) (.replacePerson hi.keyed h) (by
    obtain ⟨-, -, rfl⟩ := Tables.replacePerson_ok h
    rfl)

end Linkless

/-- A step that is no synchronization writes no links. -/
theorem Step.apply_linkless {step : Step σ}
    (hstep : ∀ service account, step ≠ .sync service account) (ht : w.tables = some t)
    (hi : t.Intact) : ∃ t', (step.apply w).tables = some t' ∧ Linkless t t' := by
  have hstay : Linkless t t := .refl hi
  cases step with
  | createAccount account =>
    have hadd : ∃ t', (Query.createAccount account w.store).2.tables = some t' ∧ Linkless t t' := by
      rw [Query.createAccount_eq_onTables account ht]
      exact Query.tables_of_onTables ht hstay fun _ _ h => .addAccount hi h
    exact hadd
  | createPerson accountId person =>
    have hadd := Query.tables_of_call (c := .createPerson) (f := (·.addPerson accountId person)) ht
      hstay fun _ _ h => .addPerson hi h
    rw [← Query.createPerson_eq_call] at hadd
    exact hadd
  | updatePerson accountId person =>
    have hreplace := Query.tables_of_call (c := .updatePerson) (f := (·.replacePerson accountId person))
      ht hstay fun _ _ h => .replacePerson hi h
    rw [← Query.updatePerson_eq_call] at hreplace
    exact hreplace
  | createDoor accountId door =>
    have hadd := Query.tables_of_onTables (f := (·.addDoor accountId door)) ht hstay
      fun _ _ h => .addDoor hi h
    rw [← Query.createDoor_eq_onTables] at hadd
    exact hadd
  | sync service account => exact absurd rfl (hstep service account)
  | knock service account doorId personId =>
    exact ⟨t, (service.knock_leaves account doorId personId w).trans ht, hstay⟩
  | accountCreated service account personId password =>
    exact ⟨t, (service.accountCreated_leaves account personId password w).trans ht, hstay⟩
  | deliver service => exact ⟨t, ht, hstay⟩
  | refuse c gaps => exact ⟨t, ht, hstay⟩

/-- What a synchronization adds: for everybody that it reports as created a link and the person to
whom the link leads, and nothing at all if it fails. -/
def Adds (accountId : Uuid) (t t' : Tables) : Except ServiceError SyncReport → Prop
  | .ok report => ∃ made : List BridgeLink, made.length = report.created ∧
      (∀ link ∈ made, link.accountId = accountId) ∧ t.Enrolls made t'
  | .error _ => t' = t

/-- A synchronization adds what it reports, and keeps the tables sound. -/
theorem syncPeople_adds (service : Service σ) (account : Account) (ht : w.tables = some t)
    (hi : t.Intact) :
    ∃ t', (service.syncPeople account w).2.tables = some t' ∧ t'.Intact ∧
      Adds account.id t t' (service.syncPeople account w).1 := by
  rcases Sync.run_cases service.settings.matchKey service.settings.syncBridges service.fetching
    account ht hi.keyed with ⟨w', t', hrun, hw', hk', henrolls⟩ | ⟨e, w', hrun, hw', -⟩
  · rw [Service.syncPeople, hrun]
    exact ⟨t', hw', ⟨hk', henrolls.grounded hi.grounded⟩, _, Sync.length_made _,
      fun _ hlink => (Sync.mem_made_resolve hlink).1, henrolls⟩
  · rw [Service.syncPeople, hrun]
    exact ⟨t, hw', hi, rfl⟩

theorem Adds.grows {accountId : Uuid} {t' : Tables} {result : Except ServiceError SyncReport}
    (h : Adds accountId t t' result) : t.Grows t' := by
  cases result with
  | ok report =>
    obtain ⟨made, -, -, henrolls⟩ := h
    exact henrolls.grows
  | error e =>
    obtain rfl : t' = t := h
    exact .refl t'

/-- A step keeps the tables sound and lets them grow. -/
theorem Step.apply_grows (step : Step σ) (ht : w.tables = some t) (hi : t.Intact) :
    ∃ t', (step.apply w).tables = some t' ∧ t'.Intact ∧ t.Grows t' := by
  by_cases hsync : ∃ service account, step = .sync service account
  · obtain ⟨service, account, rfl⟩ := hsync
    obtain ⟨t', ht', hi', hadds⟩ := syncPeople_adds service account ht hi
    exact ⟨t', ht', hi', hadds.grows⟩
  · have hstep : ∀ service account, step ≠ .sync service account :=
      fun service account h => hsync ⟨service, account, h⟩
    obtain ⟨t', ht', hlinkless⟩ := Step.apply_linkless hstep ht hi
    exact ⟨t', ht', hlinkless.intact, hlinkless.grows⟩

/-! ## Histories -/

/-- Any steps keep the tables sound and let them grow. -/
theorem after_grows (steps : List (Step σ)) (ht : w.tables = some t) (hi : t.Intact) :
    ∃ t', (after w steps).tables = some t' ∧ t'.Intact ∧ t.Grows t' := by
  induction steps generalizing w t with
  | nil => exact ⟨t, ht, hi, .refl t⟩
  | cons step rest ih =>
    obtain ⟨t₁, ht₁, hi₁, hgrows₁⟩ := step.apply_grows ht hi
    obtain ⟨t₂, ht₂, hi₂, hgrows₂⟩ := ih ht₁ hi₁
    exact ⟨t₂, ht₂, hi₂, hgrows₁.trans hgrows₂⟩

/-- Whatever was done to the service: no two links share an account, a bridge and an external id;
every link leads to a person of its account; whatever is done next, nothing is removed, people keep
their identifiers and accounts, and links stay as they are; and the next synchronization adds as many
people and links as it reports, one link for each person, or nothing if it fails. -/
theorem links_grounded_after_any_history (supply : Nat → Uuid) (outside : Outside σ)
    (steps : List (Step σ)) :
    ∃ t, (after (start supply outside) steps).tables = some t ∧
      (t.links.map Tables.linkKey).Nodup ∧ t.Grounded ∧
      (∀ step : Step σ, ∃ t', (step.apply (after (start supply outside) steps)).tables = some t' ∧
        t.Grows t') ∧
      ∀ (service : Service σ) (account : Account), ∃ t',
        (service.syncPeople account (after (start supply outside) steps)).2.tables = some t' ∧
          Adds account.id t t' (service.syncPeople account (after (start supply outside) steps)).1 := by
  obtain ⟨t, ht, hi, -⟩ := after_grows steps (start_tables supply outside) Tables.intact_empty
  refine ⟨t, ht, hi.keyed.linkKeys, hi.grounded, fun step => ?_, fun service account => ?_⟩
  · obtain ⟨t', ht', -, hgrows⟩ := step.apply_grows ht hi
    exact ⟨t', ht', hgrows⟩
  · obtain ⟨t', ht', -, hadds⟩ := syncPeople_adds service account ht hi
    exact ⟨t', ht', hadds⟩

end History

end Concierge
