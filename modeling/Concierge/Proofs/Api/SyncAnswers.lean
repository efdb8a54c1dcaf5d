import Concierge.Proofs.Api.Hosts
import Concierge.Proofs.Sync.Outcome

/-!
# Answers to requests for a synchronization

A synchronization that fails should be answered by the same report whatever the reason, with no word
about what was being done.  Whenever the storage fails, this is so.  But a link that leads to nobody
in the account fails as a person who is not found, and that is how the request is answered.
-/

namespace Concierge.Api

open Sync

variable {σ : Type} {service : Service σ} {r : Request} {account : Account} {w w₁ : World σ}
  {t : Tables}

/-- The report of a failure about which nothing is said. -/
def internalProblem : Problem := ⟨500, "Internal Server Error", "An internal error occurred", none⟩

/-- The report that somebody is not found. -/
def personProblem : Problem := ⟨404, "Not Found", "Person not found", none⟩

/-- Looking for the tenant leaves the tables. -/
theorem tables_of_tenantOf (h : tenantOf r w = (.ok account, w₁)) : w₁.tables = w.tables := by
  unfold tenantOf at h
  split at h
  · cases h
  · rename_i label _
    have hleaves := Service.accountByHost_leaves label w
    split at h
    · rename_i hfound
      rw [hfound] at hleaves
      cases h
      exact hleaves
    · cases h

/-- A request for a synchronization is answered as the synchronization ends. -/
theorem respond_sync (hmethod : r.method = "POST") (hpath : r.path = "/api/people/sync")
    (htenant : tenantOf r w = (.ok account, w₁)) :
    (respond service r w).1 = match (service.syncPeople account w₁).1 with
      | .ok _ => .plain 204
      | .error e => .ofProblem ((Problem.ofError e).withTrace r.trace) := by
  have hroute : Route.routes.lookup r.path = some (.tenant .sync) := by rw [hpath]; rfl
  rw [respond_of_tenantOf hmethod hroute htenant]
  simp only [serve, answering]
  cases service.syncPeople account w₁ with
  | mk result w₂ => cases result <;> rfl

/-- Once the tenant is found, a request for a synchronization is answered without content if the
synchronization succeeds, and otherwise by a report without detail, unless a link of the account
leads to nobody in the account; then the answer may be that a person is not found. -/
theorem sync_answered (hmethod : r.method = "POST") (hpath : r.path = "/api/people/sync")
    (htenant : tenantOf r w = (.ok account, w₁)) (ht : w.tables = some t) (hk : t.Keyed) :
    ((∃ report, (service.syncPeople account w₁).1 = .ok report) ∧
        (respond service r w).1 = .plain 204) ∨
      ((∃ e, (service.syncPeople account w₁).1 = .error e) ∧
        (respond service r w).1 = .ofProblem (internalProblem.withTrace r.trace)) ∨
      (∃ row ∈ t.links, row.accountId = account.id ∧
          (∀ p ∈ t.people, ¬ (p.id = row.personId ∧ p.accountId = account.id)) ∧
          (service.syncPeople account w₁).1 = .error (.notFound .person row.personId)) ∧
        (respond service r w).1 = .ofProblem (personProblem.withTrace r.trace) := by
  rw [respond_sync hmethod hpath htenant]
  have ht₁ : w₁.tables = some t := (tables_of_tenantOf htenant).trans ht
  rcases run_cases service.settings.matchKey service.settings.syncBridges service.fetching account
    ht₁ hk with ⟨w₂, t', hrun, -⟩ | ⟨e, w₂, hrun, -, hfailure⟩
  · rw [Service.syncPeople, hrun]
    exact .inl ⟨⟨_, rfl⟩, rfl⟩
  · rw [Service.syncPeople, hrun]
    cases hfailure with
    | storage reason => exact .inr (.inl ⟨⟨_, rfl⟩, rfl⟩)
    | @dangling link hlink nobody =>
      obtain ⟨bridge, c, hmem, hc⟩ := mem_linksOf.1 hlink
      rw [fetchAll_links ht₁ hmem] at hc
      obtain ⟨-, haccount, hrow⟩ := Tables.mem_linksTo.1 hc
      refine .inr (.inr ⟨⟨_, hrow, haccount, fun p hp hperson => ?_, rfl⟩, rfl⟩)
      exact Tables.person?_eq_none_iff.1 nobody (Tables.mem_personKeys.2 ⟨p, hp, hperson⟩)

/-! ### A link to nobody

The sample account has a link whose person is gone, and the directory still knows the user. -/

/-- The service with the sample directories. -/
def sampleService : Service Unit := ⟨sampleProviders, .standard⟩

/-- A request on the host of the sample account. -/
def sampleRequest : Request := ⟨"POST", "/api/people/sync", [("host", "acme.doorbot.test")], [], none⟩

/-- The rows, with a link to nobody. -/
def sampleDangling : Tables :=
  ⟨[sampleAccount], [], [], [⟨.ofNat 21, .ofNat 1, .ofNat 50, 1, "7"⟩]⟩

/-- A world with these rows. -/
def sampleDanglingWorld : World Unit := ⟨.new (some sampleDangling) .ofNat, ⟨(), []⟩, []⟩

theorem tenantOf_sampleRequest :
    tenantOf sampleRequest sampleDanglingWorld = (.ok sampleAccount, sampleDanglingWorld) := by
  have hlabel : Tenant.label? sampleRequest.host = some "acme" := by decide +kernel
  unfold tenantOf
  rw [hlabel]
  rfl

theorem sync_answered_sample :
    sampleDangling.Keyed ∧
      (((∃ report, (sampleService.syncPeople sampleAccount sampleDanglingWorld).1 = .ok report) ∧
          (respond sampleService sampleRequest sampleDanglingWorld).1 = .plain 204) ∨
        ((∃ e, (sampleService.syncPeople sampleAccount sampleDanglingWorld).1 = .error e) ∧
          (respond sampleService sampleRequest sampleDanglingWorld).1 = .ofProblem internalProblem) ∨
        (∃ row ∈ sampleDangling.links, row.accountId = sampleAccount.id ∧
            (∀ p ∈ sampleDangling.people, ¬ (p.id = row.personId ∧ p.accountId = sampleAccount.id)) ∧
            (sampleService.syncPeople sampleAccount sampleDanglingWorld).1 =
              .error (.notFound .person row.personId)) ∧
          (respond sampleService sampleRequest sampleDanglingWorld).1 = .ofProblem personProblem) := by
  have hkeyed : sampleDangling.Keyed :=
    ⟨by decide, by decide, by decide, by decide, by decide, by decide⟩
  exact ⟨hkeyed, sync_answered rfl (by decide) tenantOf_sampleRequest rfl hkeyed⟩

/-- The tenant is found, the synchronization fails, and the answer has another status. -/
theorem dangling_link_answered_not_found :
    tenantOf sampleRequest sampleDanglingWorld = (.ok sampleAccount, sampleDanglingWorld) ∧
      (respond sampleService sampleRequest sampleDanglingWorld).1 = .ofProblem personProblem ∧
      (Response.ofProblem personProblem).status = 404 := by
  refine ⟨tenantOf_sampleRequest, ?_, rfl⟩
  have hsync : (sampleService.syncPeople sampleAccount sampleDanglingWorld).1 =
      .error (.notFound .person (.ofNat 50)) := by decide
  rw [respond_sync rfl (by decide) tenantOf_sampleRequest, hsync]
  rfl

end Concierge.Api
