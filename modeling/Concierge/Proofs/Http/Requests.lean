import Concierge.Proofs.Http.Conversation

/-!
# What every request is like

An attempt may ask once, or again and again with what it was told before.  What is true of every request
that can be built from its drafts is true of every request that it sends, however far it gets.
-/

namespace Concierge.Http

variable {α β : Type} {P : Request → Prop}

/-- Every request of an attempt is of a certain kind. -/
def Sends (P : Request → Prop) (attempt : Attempt Network α) : Prop :=
  ∀ o, ∃ turns, Conversation o.state turns (attempt o).2.state ∧ ∀ t ∈ turns, P t.request

/-- Nothing is sent where the network is left alone. -/
theorem sends_of_silent {attempt : Attempt Network α} (h : ∀ o, (attempt o).2.state = o.state) :
    Sends P attempt :=
  fun o => ⟨[], (h o).symm ▸ .nil _, fun _ ht => nomatch ht⟩

theorem sends_pure (x : α) : Sends P (pure x) := sends_of_silent fun _ => rfl

theorem sends_throw (stop : Stop) : Sends P (throw stop : Attempt Network α) :=
  sends_of_silent fun _ => rfl

theorem sends_fail (e : ProviderError) : Sends P (Attempt.fail e : Attempt Network α) := sends_throw _

theorem sends_get : Sends P (get : Attempt Network (Outside Network)) := sends_of_silent fun _ => rfl

theorem sends_report (e : Event) : Sends P (Attempt.report e) := sends_of_silent fun _ => rfl

/-- One part after the other sends what both send. -/
theorem sends_bind {attempt : Attempt Network α} {f : α → Attempt Network β} (h : Sends P attempt)
    (hf : ∀ x, Sends P (f x)) : Sends P (attempt >>= f) := by
  intro o
  obtain ⟨turns, hconversation, hturns⟩ := h o
  cases hresult : attempt o with
  | mk result o' =>
    rw [hresult] at hconversation
    cases result with
    | error stop =>
      rw [Fallible.bind_of_error hresult]
      exact ⟨turns, hconversation, hturns⟩
    | ok x =>
      obtain ⟨later, hlater, hlaterTurns⟩ := hf x o'
      rw [Fallible.bind_of_ok hresult]
      refine ⟨turns ++ later, hconversation.append hlater, fun t ht => ?_⟩
      exact (List.mem_append.1 ht).elim (hturns t) (hlaterTurns t)

theorem sends_of_asksOnce {d : Draft} {attempt : Attempt Network α} {counts : Answer → α → Prop}
    (h : AsksOnce d attempt counts) (hP : ∀ r, d.build = .ok r → P r) : Sends P attempt := by
  intro o
  obtain ⟨turns, hconversation, honce, -⟩ := h o
  exact ⟨turns, hconversation, fun t ht => hP t.request (honce.build t ht)⟩

/-! ## Header fields of requests -/

/-- A field that a draft gives is one of the request's. -/
theorem Draft.mem_headers_of_build {d : Draft} {r : Request} (h : d.build = .ok r)
    {field : String × String} (hfield : field ∈ d.ownHeaders) : field ∈ r.headers := by
  have hr : r = ⟨d.method, r.url, d.allHeaders, d.body⟩ := (build_eq_ok_iff.1 h).2.2.2
  rw [hr, allHeaders]
  exact List.mem_append_left _ (List.mem_append_left _ (List.mem_append_right _ hfield))

theorem Draft.authorization_of_build {d : Draft} {r : Request} (h : d.build = .ok r) {c : Credentials}
    (hc : d.credentials = some c) : ("authorization", c.value) ∈ r.headers := by
  refine mem_headers_of_build h ?_
  rw [ownHeaders, hc]
  exact List.mem_append_left _ List.mem_cons_self

end Concierge.Http
