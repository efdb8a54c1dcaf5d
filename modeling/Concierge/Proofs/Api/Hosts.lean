import Concierge.Api.Router
import Concierge.Proofs.Api.Labels
import Concierge.Proofs.Promises
import Concierge.Proofs.Store.Keys

/-!
# Requests on the host of a tenant

A host name of the form `host.domain` is the tenant's whose own label is `host`, if that label has no
dots and the domain has two labels or more.

An allowed request on such a host is served for the tenant as soon as the tenant is found.
-/

namespace Concierge

namespace Tenant

/-- The account on whose host names a name of enough labels is. -/
theorem label?_of_host {host domain : String} (hne : host ≠ "") (hdot : '.' ∉ host.toList)
    (hdomain : 2 ≤ (labels domain.toList).length) :
    label? (host ++ "." ++ domain) = some host :=
  label?_eq_some_iff.2 ⟨hne, hdot, domain.toList, toList_dotted host domain,
    one_lt_length_labels.1 hdomain⟩

end Tenant

/-! ## Finding the tenant -/

variable {σ : Type} {service : Service σ} {t : Tables} {account : Account} {w : World σ}

/-- The rows have an account, and nothing is in the way of finding it. -/
structure Store.Serves (s : Store) (t : Tables) (account : Account) : Prop where
  tables : s.tables = some t
  keyed : t.Keyed
  account : account ∈ t.accounts
  byId : s.admits .findAccount = true
  byHost : s.admits .findAccountByHost = true

namespace Store.Serves

variable (h : w.store.Serves t account)

include h

theorem account_eq : Service.account account.id w =
    (.ok account, { w with store := w.store.count .findAccount }) := by
  rcases Service.account_cases account.id w with ⟨_, hrefused | hnone, -⟩ | ⟨t', ht', hfound⟩
  · cases h.byId.symm.trans hrefused
  · cases h.tables.symm.trans hnone
  · obtain rfl := Option.some.inj (h.tables.symm.trans ht')
    rw [hfound, Tables.find?_account h.keyed.accounts h.account]
    rfl

theorem accountByHost_eq : Service.accountByHost account.host w =
    (.ok account, { w with store := w.store.count .findAccountByHost }) := by
  rcases Service.accountByHost_cases account.host w with ⟨_, hrefused | hnone, -⟩ | ⟨t', ht', hfound⟩
  · cases h.byHost.symm.trans hrefused
  · cases h.tables.symm.trans hnone
  · obtain rfl := Option.some.inj (h.tables.symm.trans ht')
    rw [hfound, Tables.find?_account h.keyed.hosts h.account]
    rfl

end Store.Serves

namespace Api

/-- A request names a host of an account: the account's own label before two labels or more. -/
structure Request.IsOn (r : Request) (account : Account) : Prop where
  named : account.host ≠ ""
  label : '.' ∉ account.host.toList
  header : ∃ domain, r.header? "host" = some (account.host ++ "." ++ domain) ∧
    2 ≤ (Tenant.labels domain.toList).length ∧
    (account.host ++ "." ++ domain).toList.all Request.isVisible = true

theorem Request.IsOn.label? {r : Request} (h : r.IsOn account) :
    Tenant.label? r.host = some account.host := by
  obtain ⟨domain, hheader, hdomain, hvisible⟩ := h.header
  have hhost : r.host = account.host ++ "." ++ domain := by
    rw [Request.host, hheader, Option.filter_some, if_pos hvisible]
  rw [hhost]
  exact Tenant.label?_of_host h.named h.label hdomain

/-- The tenant of a request on its host is found. -/
theorem tenantOf_eq (h : w.store.Serves t account) {r : Request} (hr : r.IsOn account) :
    tenantOf r w = (.ok account, { w with store := w.store.count .findAccountByHost }) := by
  unfold tenantOf
  rw [hr.label?]
  simp only [h.accountByHost_eq]

/-- Answers to tenants do not list the methods of a path. -/
theorem serve_allow (service : Service σ) (endpoint : Endpoint) (account : Account) (r : Request)
    (w : World σ) :
    (serve service endpoint account r w).1.allow = none := by
  cases endpoint with
  | sync =>
    simp only [serve, answering]
    cases service.syncPeople account w with
    | mk result w' => cases result <;> rfl
  | knock =>
    cases hknock : r.knock with
    | error fault => simp only [serve, hknock, Response.ofBodyFault]
    | ok knock =>
      simp only [serve, hknock, answering]
      cases service.knock account knock.doorId knock.personId w with
      | mk result w' => cases result <;> rfl

/-- A posted request is served for its tenant. -/
theorem respond_of_tenantOf {r : Request} {endpoint : Endpoint} {w₁ : World σ}
    (hmethod : r.method = "POST") (hroute : Route.routes.lookup r.path = some (.tenant endpoint))
    (htenant : tenantOf r w = (.ok account, w₁)) :
    respond service r w = serve service endpoint account r w₁ := by
  have hallowed : (Route.tenant endpoint).methods.contains r.method = true := by rw [hmethod]; rfl
  have hhead : ¬ r.method = "HEAD" := by rw [hmethod]; decide
  have hallow := serve_allow service endpoint account r w₁
  unfold respond
  simp only [hroute, hallowed, hhead, if_true, if_false, respondOn, htenant]
  rw [← hallow]

end Api

end Concierge
