import Concierge.Proofs.Isolation.Rows
import Concierge.World

/-!
# Confined computations

A store holds an account beside the rows of others.  A computation is confined to the account if it
does on the account's rows alone what it does on all rows: its answer is the same, it leaves the same
rows of the account, and the rows of others stay as they are.  Every query made for the account is
confined, and what is put together from confined parts is confined.
-/

namespace Concierge

/-! ## Confinement -/

section Confinement

variable {S ρ τ ε α β : Type} {view : S → S} {I : S → Prop}

/-- What a computation does in a state it does in a view of it, if the state satisfies an invariant,
which is kept. -/
structure Confined (view : S → S) (I : S → Prop) (a : S → ρ × S) (P : ρ → Prop) : Prop where
  commutes : ∀ s, I s → a (view s) = ((a s).1, view (a s).2)
  keeps : ∀ s, I s → I (a s).2
  yields : ∀ s, I s → P (a s).1

/-- A result that is as wanted unless it is a failure. -/
def OnSuccess (P : α → Prop) (result : Except ε α) : Prop := ∀ x, result = .ok x → P x

theorem onSuccess_error (e : ε) (P : α → Prop) : OnSuccess P (.error e : Except ε α) := by
  intro x hx
  cases hx

theorem onSuccess_ok {P : α → Prop} {x : α} (h : P x) : OnSuccess P (.ok x : Except ε α) := by
  intro y hy
  cases hy
  exact h

theorem Confined.congr {a b : S → ρ × S} {P : ρ → Prop} (h : Confined view I a P)
    (hsame : ∀ s, b s = a s) : Confined view I b P :=
  (funext hsame : b = a) ▸ h

theorem confined_const {r : ρ} {P : ρ → Prop} (h : P r) : Confined view I (fun s => (r, s)) P :=
  ⟨fun _ _ => rfl, fun _ hs => hs, fun _ _ => h⟩

theorem confined_pure {P : α → Prop} {x : α} (h : P x) :
    Confined view I (pure x : ExceptT ε (StateM S) α) (OnSuccess P) :=
  confined_const (onSuccess_ok h)

theorem confined_throw (e : ε) (P : α → Prop) :
    Confined view I (throw e : ExceptT ε (StateM S) α) (OnSuccess P) :=
  confined_const (onSuccess_error e P)

theorem confined_of_forall {a : S → ρ × S} {P : ρ → Prop}
    (h : ∀ s, I s → a (view s) = ((a s).1, view (a s).2) ∧ I (a s).2 ∧ P (a s).1) :
    Confined view I a P :=
  ⟨fun s hs => (h s hs).1, fun s hs => (h s hs).2.1, fun s hs => (h s hs).2.2⟩

/-- One computation after another, which may depend on the answer. -/
theorem Confined.andThen {a : S → ρ × S} {f : ρ → S → τ × S} {P : ρ → Prop} {Q : τ → Prop}
    (ha : Confined view I a P) (hf : ∀ r, P r → Confined view I (f r) Q) :
    Confined view I (fun s => f (a s).1 (a s).2) Q where
  commutes s hs := by
    simp only [ha.commutes s hs]
    exact (hf _ (ha.yields s hs)).commutes _ (ha.keeps s hs)
  keeps s hs := (hf _ (ha.yields s hs)).keeps _ (ha.keeps s hs)
  yields s hs := (hf _ (ha.yields s hs)).yields _ (ha.keeps s hs)

/-- Only the answer is told in other words. -/
theorem Confined.map {a : S → ρ × S} {P : ρ → Prop} (h : Confined view I a P) (f : ρ → τ) :
    Confined view I (fun s => (f (a s).1, (a s).2)) fun _ => True :=
  h.andThen (f := fun r s => (f r, s)) fun _ _ => confined_const trivial

/-- A computation goes on only if its first part succeeds. -/
theorem Confined.bind {a : ExceptT ε (StateM S) α} {f : α → ExceptT ε (StateM S) β} {P : α → Prop}
    {Q : β → Prop} (ha : Confined view I a (OnSuccess P))
    (hf : ∀ x, P x → Confined view I (f x) (OnSuccess Q)) :
    Confined view I (a >>= f) (OnSuccess Q) := by
  refine ha.andThen (f := fun result s => ExceptT.bindCont f result s) fun result hresult => ?_
  cases result with
  | ok x => exact hf x (hresult x rfl)
  | error e => exact confined_const (onSuccess_error e Q)

end Confinement

/-! ## Queries -/

/-- The store with the rows of one account. -/
def Store.only (s : Store) (accountId : Uuid) : Store :=
  { s with tables := s.tables.map (·.only accountId) }

/-- A store holds an account beside the given rows of others.  Keys are unique, and identifiers that
are given out from now on are not taken by the others. -/
structure Store.Holds (account : Account) (rest : Option Tables) (s : Store) : Prop where
  others : s.tables.map (·.others account.id) = rest
  keyed : ∀ t, s.tables = some t → t.Keyed
  account : ∀ t, s.tables = some t → account ∈ t.accounts
  unused : ∀ t, rest = some t → ∀ n, s.issued ≤ n → t.Unused (s.supply n)

namespace Query

variable {α : Type} {account : Account} {rest : Option Tables}

/-- A query does for an account what it does on the account's rows. -/
abbrev ConfinedTo (account : Account) (rest : Option Tables) (q : Query α) (P : α → Prop) : Prop :=
  Confined (·.only account.id) (·.Holds account rest) q (OnSuccess P)

/-- A fresh identifier is not taken by others. -/
theorem fresh_confined :
    ConfinedTo account rest fresh fun id => ∀ t, rest = some t → t.Unused id where
  commutes _ _ := rfl
  keeps _ hs := { hs with unused := fun t ht n hn => hs.unused t ht n (Nat.le_of_succ_le hn) }
  yields s hs := onSuccess_ok fun t ht => hs.unused t ht s.issued (Nat.le_refl _)

/-- Counting a call is confined. -/
theorem enter_confined (c : Call) : ConfinedTo account rest (enter c) fun _ => True where
  commutes s _ := by
    have hcount : (s.only account.id).count c = (s.count c).only account.id := by
      unfold Store.count Store.only
      cases s.refusals c with
      | nil => rfl
      | cons gap gaps => cases gap <;> rfl
    rw [enter_apply, enter_apply, hcount]
    rfl
  keeps s hs := by
    rw [enter_apply]
    exact ⟨by simpa using hs.others, by simpa using hs.keyed, by simpa using hs.account,
      by simpa using hs.unused⟩
  yields _ _ _ _ := trivial

/-- Reading and replacing the tables is confined if its function is, on tables that hold the
account. -/
theorem onTables_confined {f : Tables → Except ServiceError (α × Tables)} {P : α → Prop}
    (hwithin : ∀ t : Tables, t.Keyed → account ∈ t.accounts →
      rest = some (t.others account.id) → t.Within account.id f)
    (hkeyed : ∀ t a t', t.Keyed → f t = .ok (a, t') → t'.Keyed)
    (hyields : ∀ t a t', t.Keyed → account ∈ t.accounts → f t = .ok (a, t') → P a) :
    ConfinedTo account rest (onTables f) P := by
  refine confined_of_forall fun s hs => ?_
  cases ht : s.tables with
  | none =>
    have honly : (s.only account.id).tables = none := by simp [Store.only, ht]
    rw [onTables_of_none honly, onTables_of_none ht]
    exact ⟨rfl, hs, onSuccess_error _ P⟩
  | some t =>
    have honly : (s.only account.id).tables = some (t.only account.id) := by simp [Store.only, ht]
    have hrest : rest = some (t.others account.id) := by simpa [ht] using hs.others.symm
    have hwithin := hwithin t (hs.keyed t ht) (hs.account t ht) hrest
    cases hf : f t with
    | error e =>
      rw [onTables_of_error honly (hwithin.fails e hf), onTables_of_error ht hf]
      exact ⟨rfl, hs, onSuccess_error e P⟩
    | ok answer =>
      obtain ⟨a, t'⟩ := answer
      rw [onTables_of_ok honly (hwithin.succeeds a t' hf), onTables_of_ok ht hf]
      refine ⟨rfl, ⟨?_, ?_, ?_, hs.unused⟩, onSuccess_ok ?_⟩
      · simp [hwithin.others a t' hf, hrest]
      · intro t'' ht''
        cases ht''
        exact hkeyed t a t' (hs.keyed t ht) hf
      · intro t'' ht''
        cases ht''
        rw [hwithin.accounts a t' hf]
        exact hs.account t ht
      · exact hyields t a t' (hs.keyed t ht) (hs.account t ht) hf

/-- A call is confined if its function is, on tables that hold the account. -/
theorem call_confined {c : Call} {f : Tables → Except ServiceError (α × Tables)} {P : α → Prop}
    (hwithin : ∀ t : Tables, t.Keyed → account ∈ t.accounts →
      rest = some (t.others account.id) → t.Within account.id f)
    (hkeyed : ∀ t a t', t.Keyed → f t = .ok (a, t') → t'.Keyed)
    (hyields : ∀ t a t', t.Keyed → account ∈ t.accounts → f t = .ok (a, t') → P a) :
    ConfinedTo account rest (call c f) P :=
  (enter_confined c).bind fun _ _ => onTables_confined hwithin hkeyed hyields

/-- A call that reads what is the same on the account's rows is confined. -/
theorem reading_confined {c : Call} {read : Tables → α} {P : α → Prop}
    (hsame : ∀ t, t.Keyed → account ∈ t.accounts → read (t.only account.id) = read t)
    (hyields : ∀ t : Tables, t.Keyed → account ∈ t.accounts → P (read t)) :
    ConfinedTo account rest (call c fun t => .ok (read t, t)) P := by
  refine call_confined (fun t hkeyed haccount _ => Tables.within_of_reading (hsame t hkeyed haccount))
    (fun t a t' hkeyed hread => ?_) fun t a t' hkeyed haccount hread => ?_
  · cases hread
    exact hkeyed
  · cases hread
    exact hyields t hkeyed haccount

theorem findAccount_confined :
    ConfinedTo account rest (findAccount account.id) (· = some account) := by
  rw [findAccount_eq_call]
  refine reading_confined (fun t hkeyed haccount => ?_) fun t hkeyed haccount => ?_
  · rw [Tables.find?_account hkeyed.accounts haccount]
    exact Tables.find?_account (hkeyed.part _).accounts (Tables.mem_only_accounts haccount)
  · exact Tables.find?_account hkeyed.accounts haccount

theorem findAccountByHost_confined :
    ConfinedTo account rest (findAccountByHost account.host) (· = some account) := by
  rw [findAccountByHost_eq_call]
  refine reading_confined (fun t hkeyed haccount => ?_) fun t hkeyed haccount => ?_
  · rw [Tables.find?_account hkeyed.hosts haccount]
    exact Tables.find?_account (hkeyed.part _).hosts (Tables.mem_only_accounts haccount)
  · exact Tables.find?_account hkeyed.hosts haccount

theorem findPerson_confined (id : Uuid) :
    ConfinedTo account rest (findPerson account.id id) fun _ => True := by
  rw [findPerson_eq_call]
  exact reading_confined (fun t _ _ => t.person?_only account.id id) fun _ _ _ => trivial

theorem findDoor_confined (id : Uuid) :
    ConfinedTo account rest (findDoor account.id id) fun _ => True := by
  rw [findDoor_eq_call]
  exact reading_confined (fun t _ _ => t.door?_only account.id id) fun _ _ _ => trivial

theorem findLinks_confined (bridge : Bridge) :
    ConfinedTo account rest (findLinks account.id bridge) fun _ => True := by
  rw [findLinks_eq_call]
  exact reading_confined (fun t _ _ => t.linksTo_only account.id bridge) fun _ _ _ => trivial

theorem createPerson_confined {person : Person} (h : ∀ t, rest = some t → t.Unused person.id) :
    ConfinedTo account rest (createPerson account.id person) fun _ => True := by
  rw [createPerson_eq_call]
  exact call_confined (fun t _ _ hrest => Tables.addPerson_within (h _ hrest))
    (fun _ _ _ hkeyed hadd => hkeyed.addPerson hadd) fun _ _ _ _ _ _ => trivial

theorem updatePerson_confined (person : Person) :
    ConfinedTo account rest (updatePerson account.id person) fun _ => True := by
  rw [updatePerson_eq_call]
  exact call_confined (fun _ hkeyed _ _ => Tables.replacePerson_within hkeyed)
    (fun _ _ _ hkeyed hreplace => hkeyed.replacePerson hreplace) fun _ _ _ _ _ _ => trivial

theorem createLink_confined {link : BridgeLink} (h : ∀ t, rest = some t → t.Unused link.id) :
    ConfinedTo account rest (createLink account.id link) fun _ => True := by
  rw [createLink_eq_call]
  exact call_confined (fun t _ _ hrest => Tables.addLink_within (h _ hrest))
    (fun _ _ _ hkeyed hadd => hkeyed.addLink hadd) fun _ _ _ _ _ _ => trivial

/-- A transaction is confined if what it runs is. -/
theorem transaction_confined {q : Query α} {P : α → Prop} (h : ConfinedTo account rest q P) :
    ConfinedTo account rest (transaction q) P := by
  refine confined_of_forall fun s hs => ?_
  have hcommutes := h.commutes s hs
  have hkeeps := h.keeps s hs
  have hyields := h.yields s hs
  cases hq : q s with
  | mk result s' =>
    rw [hq] at hcommutes hkeeps hyields
    cases result with
    | ok a =>
      rw [transaction_of_ok hcommutes, transaction_of_ok hq]
      exact ⟨rfl, hkeeps, hyields⟩
    | error e =>
      rw [transaction_of_error hcommutes, transaction_of_error hq]
      exact ⟨rfl, { hs with unused := hkeeps.unused }, hyields⟩

end Query

end Concierge
