import Concierge.Proofs.Store.Calls

/-!
# What a query depends on

A query depends on the rows, on the identifiers that come next, and on which of its own calls are
refused.  Stores that agree on these cannot be told apart by it, whatever they refuse to others.
-/

namespace Concierge

open Fallible

/-- Two stores have the same rows and the same identifiers to give out, and refuse the same of some
calls. -/
structure Store.Agree (cs : List Call) (s s' : Store) : Prop where
  tables : s'.tables = s.tables
  supply : s'.supply = s.supply
  issued : s'.issued = s.issued
  refusals : ∀ c ∈ cs, s'.refusals c = s.refusals c

namespace Store.Agree

variable {cs : List Call} {s s' s'' : Store}

theorem refl (cs : List Call) (s : Store) : Agree cs s s := ⟨rfl, rfl, rfl, fun _ _ => rfl⟩

theorem symm (h : Agree cs s s') : Agree cs s' s :=
  ⟨h.tables.symm, h.supply.symm, h.issued.symm, fun c hc => (h.refusals c hc).symm⟩

theorem trans (h : Agree cs s s') (h' : Agree cs s' s'') : Agree cs s s'' where
  tables := h'.tables.trans h.tables
  supply := h'.supply.trans h.supply
  issued := h'.issued.trans h.issued
  refusals c hc := (h'.refusals c hc).trans (h.refusals c hc)

/-- Counting a call of another query keeps up the agreement. -/
theorem count_other {c : Call} (s : Store) (hc : c ∉ cs) : Agree cs s (s.count c) where
  tables := s.count_tables c
  supply := s.count_supply c
  issued := s.count_issued c
  refusals _ hd := s.count_refusals_of_ne fun heq => hc (heq ▸ hd)

/-- What is left of the refusals of a query after one more call depends on them alone. -/
theorem count_refusals_congr {c : Call} (h : s'.refusals c = s.refusals c) :
    (s'.count c).refusals c = (s.count c).refusals c := by
  unfold count
  rw [h]
  cases hgaps : s.refusals c with
  | nil => simpa only [hgaps] using h
  | cons gap gaps => cases gap <;> simp [refuse]

/-- Counting one call in both stores keeps up the agreement. -/
theorem count (h : Agree cs s s') {c : Call} (hc : c ∈ cs) : Agree cs (s.count c) (s'.count c) where
  tables := by simp [h.tables]
  supply := by simp [h.supply]
  issued := by simp [h.issued]
  refusals d hd := by
    by_cases heq : d = c
    · subst heq
      exact count_refusals_congr (h.refusals d hc)
    · rw [s'.count_refusals_of_ne heq, s.count_refusals_of_ne heq, h.refusals d hd]

end Store.Agree

namespace Query

variable {α : Type} {cs : List Call}

theorem respects_fresh : Respects (Store.Agree cs) fresh := by
  intro s s' h
  refine ⟨?_, ⟨h.tables, h.supply, ?_, h.refusals⟩⟩
  · simp only [fresh, h.supply, h.issued]
  · simp only [fresh, h.issued]

/-- Reading and replacing the tables looks at nothing else. -/
theorem respects_onTables (f : Tables → Except ServiceError (α × Tables)) :
    Respects (Store.Agree cs) (onTables f) := by
  intro s s' h
  cases ht : s.tables with
  | none =>
    rw [onTables_of_none ht, onTables_of_none (h.tables.trans ht)]
    exact ⟨rfl, h⟩
  | some t =>
    have ht' : s'.tables = some t := h.tables.trans ht
    cases hf : f t with
    | error e =>
      rw [onTables_of_error ht hf, onTables_of_error ht' hf]
      exact ⟨rfl, h⟩
    | ok answer =>
      rw [onTables_of_ok ht hf, onTables_of_ok ht' hf]
      exact ⟨rfl, rfl, h.supply, h.issued, h.refusals⟩

/-- A call depends on the refusals of its own query. -/
theorem respects_call {c : Call} (hc : c ∈ cs) (f : Tables → Except ServiceError (α × Tables)) :
    Respects (Store.Agree cs) (call c f) := by
  refine respects_bind (fun s s' h => ?_) fun _ => respects_onTables f
  have hadmits : s'.admits c = s.admits c := by simp only [Store.admits, h.refusals c hc]
  rw [enter_apply, enter_apply, hadmits]
  exact ⟨rfl, h.count hc⟩

/-- A transaction depends on what it runs depends on. -/
theorem respects_transaction {q : Query α} (hq : Respects (Store.Agree cs) q) :
    Respects (Store.Agree cs) (transaction q) := by
  intro s s' h
  obtain ⟨hanswer, hstate⟩ := hq h
  cases hrun : q s with
  | mk result s₁ =>
    cases hrun' : q s' with
    | mk result' s₁' =>
      rw [hrun, hrun'] at hanswer hstate
      obtain rfl : result' = result := hanswer
      cases result' with
      | ok a =>
        rw [transaction_of_ok hrun, transaction_of_ok hrun']
        exact ⟨rfl, hstate⟩
      | error e =>
        rw [transaction_of_error hrun, transaction_of_error hrun']
        exact ⟨rfl, h.tables, hstate.supply, hstate.issued, hstate.refusals⟩

end Query

end Concierge
