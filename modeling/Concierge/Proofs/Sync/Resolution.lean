import Concierge.Proofs.Sync.Plan

/-!
# Which link a user is resolved by

A user is resolved by the first link in hand that matches, and the links in hand only grow.  So in
the end every user is resolved by the first match among all links, those loaded and those made.  A
link that was made is moreover the only one that matches whom it matches, which is why the order of
the links does not matter to the users for whom links were made.
-/

namespace Concierge

namespace Sync

variable {key : MatchKey} {accountId : Uuid} {supply : Nat → Uuid} {n : Nat}
  {links : List BridgeLink} {users : List RemoteUser}

/-- How a user is resolved with some links in hand: by the first one that matches, else by a link
that is made for them. -/
inductive ResolvedBy (key : MatchKey) (accountId : Uuid) (links : List BridgeLink) :
    Resolution → Prop where
  | matched {user : RemoteUser} {link : BridgeLink}
      (first : links.find? (fun l => linkMatches key l user) = some link) :
      ResolvedBy key accountId links ⟨user, link, false⟩
  | unmatched {user : RemoteUser} (id personId : Uuid)
      (nobody : ∀ l ∈ links, linkMatches key l user = false) :
      ResolvedBy key accountId links
        ⟨user, ⟨id, accountId, personId, user.bridge, user.externalId⟩, true⟩

/-- At every step the loaded links come first, and then the links made so far. -/
theorem resolve_resolvedBy {key : MatchKey} {accountId : Uuid} {supply : Nat → Uuid} {n : Nat}
    {links : List BridgeLink} {users : List RemoteUser} {before after : List Resolution}
    {r : Resolution} (h : resolve key accountId supply n links users = before ++ r :: after) :
    ResolvedBy key accountId (links ++ made before) r := by
  induction users generalizing n links before with
  | nil => simp [resolve] at h
  | cons user rest ih =>
    cases hfind : links.find? fun link => linkMatches key link user with
    | some link =>
      rw [resolve_of_match hfind] at h
      cases before with
      | nil =>
        obtain ⟨rfl, -⟩ := List.cons.inj h
        exact .matched (by simpa using hfind)
      | cons first others =>
        obtain ⟨rfl, hrest⟩ := List.cons.inj h
        rw [made_cons_old]
        exact ih hrest
    | none =>
      rw [resolve_of_no_match hfind] at h
      cases before with
      | nil =>
        obtain ⟨rfl, -⟩ := List.cons.inj h
        exact .unmatched _ _ (by simpa using hfind)
      | cons first others =>
        obtain ⟨rfl, hrest⟩ := List.cons.inj h
        simpa using ih hrest

/-- A link that is made for a user matches that user. -/
theorem linkMatches_linkFor (key : MatchKey) (accountId : Uuid) (supply : Nat → Uuid) (n : Nat)
    (user : RemoteUser) : linkMatches key (linkFor accountId supply n user) user = true := by
  cases key <;> simp [linkMatches, linkFor]

/-- Two links that match one user match the same users. -/
theorem linkMatches_euclidean {l₁ l₂ : BridgeLink} {u v : RemoteUser}
    (h₁ : linkMatches key l₁ u = true) (h₂ : linkMatches key l₂ u = true)
    (hv : linkMatches key l₂ v = true) : linkMatches key l₁ v = true := by
  cases key <;> simp_all [linkMatches]

/-- What is made for a user carries the user's name in the directory. -/
theorem mem_made_resolve {link : BridgeLink}
    (h : link ∈ made (resolve key accountId supply n links users)) :
    link.accountId = accountId ∧
      ∃ user ∈ users, link.bridge = user.bridge ∧ link.externalId = user.externalId := by
  induction users generalizing n links with
  | nil => simp [resolve] at h
  | cons user rest ih =>
    cases hfind : links.find? fun link => linkMatches key link user with
    | some first =>
      rw [resolve_of_match hfind] at h
      obtain ⟨haccount, u, hu, huser⟩ := ih h
      exact ⟨haccount, u, List.mem_cons_of_mem _ hu, huser⟩
    | none =>
      rw [resolve_of_no_match hfind] at h
      rcases List.mem_cons.1 h with rfl | hrest
      · exact ⟨rfl, user, List.mem_cons_self, rfl, rfl⟩
      · obtain ⟨haccount, u, hu, huser⟩ := ih hrest
        exact ⟨haccount, u, List.mem_cons_of_mem _ hu, huser⟩

/-- In the end every user is resolved by the first match among all links. -/
theorem find_of_mem_resolve {r : Resolution}
    (h : r ∈ resolve key accountId supply n links users) :
    (links ++ made (resolve key accountId supply n links users)).find?
      (fun link => linkMatches key link r.user) = some r.link := by
  induction users generalizing n links with
  | nil => simp [resolve] at h
  | cons user rest ih =>
    cases hfind : links.find? fun link => linkMatches key link user with
    | some link =>
      rw [resolve_of_match hfind] at h ⊢
      rcases List.mem_cons.1 h with rfl | hrest
      · rw [List.find?_append, hfind]
        rfl
      · exact ih hrest
    | none =>
      rw [resolve_of_no_match hfind] at h ⊢
      rcases List.mem_cons.1 h with rfl | hrest
      · rw [List.find?_append, hfind, made_cons_new]
        simp [linkMatches_linkFor]
      · simpa using ih hrest

/-- A link that was made is the only one that matches whom it matches. -/
theorem eq_of_made_resolve {x y : BridgeLink} {u : RemoteUser}
    (hx : x ∈ made (resolve key accountId supply n links users))
    (hy : y ∈ links ++ made (resolve key accountId supply n links users))
    (hxu : linkMatches key x u = true) (hyu : linkMatches key y u = true) : y = x := by
  induction users generalizing n links x y with
  | nil => simp [resolve] at hx
  | cons user rest ih =>
    cases hfind : links.find? fun link => linkMatches key link user with
    | some link =>
      rw [resolve_of_match hfind] at hx hy
      exact ih hx hy hxu hyu
    | none =>
      rw [resolve_of_no_match hfind] at hx hy
      have hnobody := List.find?_eq_none.1 hfind
      have hself := linkMatches_linkFor key accountId supply n user
      rcases List.mem_cons.1 hx with rfl | hlater
      · rcases List.mem_append.1 hy with hloaded | hmade
        · exact absurd (linkMatches_euclidean hyu hxu hself) (hnobody y hloaded)
        · rcases List.mem_cons.1 hmade with rfl | hlater
          · rfl
          · exact (ih hlater (by simp) hyu hxu).symm
      · exact ih hlater (by simpa using hy) hxu hyu

/-- Users who all have links are resolved by them. -/
theorem resolve_of_matched {plan : List Resolution}
    (h : ∀ r ∈ plan, links.find? (fun link => linkMatches key link r.user) = some r.link) :
    resolve key accountId supply n links (plan.map (·.user)) =
      plan.map fun r => { r with isNew := false } := by
  induction plan with
  | nil => rfl
  | cons r rest ih =>
    rw [List.map_cons, resolve_of_match (h r List.mem_cons_self),
      ih fun q hq => h q (List.mem_cons_of_mem _ hq), List.map_cons]

end Sync

end Concierge
