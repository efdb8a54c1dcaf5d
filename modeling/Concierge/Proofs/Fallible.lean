import Mathlib.Logic.Basic

/-!
# Computations that may fail

Queries, actions, requests and attempts all change a state and may fail.  What holds of every such
computation is stated here once.
-/

namespace Concierge

/-- Results can be compared. -/
instance decidableEqExcept {ε α : Type} [DecidableEq ε] [DecidableEq α] : DecidableEq (Except ε α)
  | .ok a, .ok b => decidable_of_iff (a = b) (Except.ok.injEq a b).symm.to_iff
  | .error e, .error f => decidable_of_iff (e = f) (Except.error.injEq e f).symm.to_iff
  | .ok _, .error _ => isFalse nofun
  | .error _, .ok _ => isFalse nofun

namespace Fallible

variable {ε S α β : Type}

/-- A computation goes on with the answer of its first part. -/
theorem bind_of_ok {a : ExceptT ε (StateM S) α} {f : α → ExceptT ε (StateM S) β} {s s' : S} {x : α}
    (h : a s = (.ok x, s')) : (a >>= f) s = f x s' := by
  change (match a s with | (x, s') => ExceptT.bindCont f x s') = _
  rw [h]
  rfl

/-- A computation ends with the failure of its first part. -/
theorem bind_of_error {a : ExceptT ε (StateM S) α} {f : α → ExceptT ε (StateM S) β} {s s' : S}
    {e : ε} (h : a s = (.error e, s')) : (a >>= f) s = (.error e, s') := by
  change (match a s with | (x, s') => ExceptT.bindCont f x s') = _
  rw [h]
  rfl

/-- If a computation succeeds, its first part did, and the rest went on with that answer. -/
theorem of_bind_ok {a : ExceptT ε (StateM S) α} {f : α → ExceptT ε (StateM S) β} {s s' : S} {y : β}
    (h : (a >>= f) s = (.ok y, s')) : ∃ x s₁, a s = (.ok x, s₁) ∧ f x s₁ = (.ok y, s') := by
  cases hfirst : a s with
  | mk result s₁ =>
    cases result with
    | error e =>
      rw [bind_of_error hfirst] at h
      cases h
    | ok x =>
      rw [bind_of_ok hfirst] at h
      exact ⟨x, s₁, rfl, h⟩

/-- If a computation fails, its first part did, or the rest did after it. -/
theorem of_bind_error {a : ExceptT ε (StateM S) α} {f : α → ExceptT ε (StateM S) β} {s s' : S} {e : ε}
    (h : (a >>= f) s = (.error e, s')) :
    a s = (.error e, s') ∨ ∃ x s₁, a s = (.ok x, s₁) ∧ f x s₁ = (.error e, s') := by
  cases hfirst : a s with
  | mk result s₁ =>
    cases result with
    | error e' =>
      rw [bind_of_error hfirst] at h
      cases h
      exact .inl rfl
    | ok x =>
      rw [bind_of_ok hfirst] at h
      exact .inr ⟨x, s₁, rfl, h⟩

/-- Making something of the answer changes nothing else. -/
theorem bind_pure_eq (a : ExceptT ε (StateM S) α) (f : α → β) (s : S) :
    (a >>= fun x => pure (f x)) s = ((a s).1.map f, (a s).2) := by
  cases hfirst : a s with
  | mk result s₁ =>
    cases result with
    | error e => rw [bind_of_error hfirst]; rfl
    | ok x => rw [bind_of_ok hfirst]; rfl

/-- What handling failures does. -/
theorem tryCatch_eq (a : ExceptT ε (StateM S) α) (handler : ε → ExceptT ε (StateM S) α) (s : S) :
    (tryCatch a handler) s = match a s with
      | (.ok x, s') => (.ok x, s')
      | (.error e, s') => handler e s' := by
  change (match a s with
    | (result, s') => (match result with
      | .ok x => (pure (.ok x) : StateM S (Except ε α))
      | .error e => handler e) s') = _
  rcases a s with ⟨_ | _, _⟩ <;> rfl

/-- A computation leaves a part of the state as it is, whether it succeeds or fails. -/
def Leaves {γ : Type} (part : S → γ) (a : ExceptT ε (StateM S) α) : Prop := ∀ s, part (a s).2 = part s

theorem leaves_pure {γ : Type} (part : S → γ) (x : α) :
    Leaves part (pure x : ExceptT ε (StateM S) α) := fun _ => rfl

theorem leaves_throw {γ : Type} (part : S → γ) (e : ε) :
    Leaves part (throw e : ExceptT ε (StateM S) α) := fun _ => rfl

/-- One part after the other leaves what both leave. -/
theorem leaves_bind {γ : Type} {part : S → γ} {a : ExceptT ε (StateM S) α}
    {f : α → ExceptT ε (StateM S) β} (ha : Leaves part a) (hf : ∀ x, Leaves part (f x)) :
    Leaves part (a >>= f) := by
  intro s
  have hfirst := ha s
  cases hresult : a s with
  | mk result s₁ =>
    rw [hresult] at hfirst
    cases result with
    | error e =>
      rw [bind_of_error hresult]
      exact hfirst
    | ok x =>
      rw [bind_of_ok hresult]
      exact (hf x s₁).trans hfirst

/-- Whatever a computation succeeds with has a property. -/
def Yields (a : ExceptT ε (StateM S) α) (P : α → Prop) : Prop := ∀ s x s', a s = (.ok x, s') → P x

theorem yields_pure {P : α → Prop} {x : α} (h : P x) : Yields (pure x : ExceptT ε (StateM S) α) P := by
  intro s y s' hrun
  cases hrun
  exact h

theorem yields_throw (e : ε) (P : α → Prop) : Yields (throw e : ExceptT ε (StateM S) α) P := by
  intro s x s' hrun
  cases hrun

/-- Nothing need be known of what a computation yields. -/
theorem yields_true (a : ExceptT ε (StateM S) α) : Yields a fun _ => True := fun _ _ _ _ => trivial

/-- A computation yields what its last part yields, given what the first part yields. -/
theorem yields_bind {a : ExceptT ε (StateM S) α} {f : α → ExceptT ε (StateM S) β} {P : α → Prop}
    {Q : β → Prop} (ha : Yields a P) (hf : ∀ x, P x → Yields (f x) Q) : Yields (a >>= f) Q := by
  intro s y s' hrun
  cases hfirst : a s with
  | mk result s₁ =>
    cases result with
    | error e =>
      rw [bind_of_error hfirst] at hrun
      cases hrun
    | ok x =>
      rw [bind_of_ok hfirst] at hrun
      exact hf x (ha s x s₁ hfirst) s₁ y s' hrun

/-- Whatever a computation fails with has a property. -/
def Fails (a : ExceptT ε (StateM S) α) (P : ε → Prop) : Prop := ∀ s e s', a s = (.error e, s') → P e

theorem fails_pure (x : α) (P : ε → Prop) : Fails (pure x : ExceptT ε (StateM S) α) P := by
  intro s e s' hrun
  cases hrun

theorem fails_throw {P : ε → Prop} {e : ε} (h : P e) : Fails (throw e : ExceptT ε (StateM S) α) P := by
  intro s e' s' hrun
  cases hrun
  exact h

/-- A computation fails as one of its parts does. -/
theorem fails_bind {a : ExceptT ε (StateM S) α} {f : α → ExceptT ε (StateM S) β} {P : ε → Prop}
    (ha : Fails a P) (hf : ∀ x, Fails (f x) P) : Fails (a >>= f) P := by
  intro s e s' hrun
  obtain hfirst | ⟨x, s₁, -, hrest⟩ := of_bind_error hrun
  · exact ha s e s' hfirst
  · exact hf x s₁ e s' hrest

/-- States that are related cannot be told apart: a computation answers the same in both, and leaves
them related. -/
def Respects {ρ : Type} (R : S → S → Prop) (a : S → ρ × S) : Prop :=
  ∀ ⦃s s'⦄, R s s' → (a s').1 = (a s).1 ∧ R (a s).2 (a s').2

variable {R : S → S → Prop}

theorem respects_const {ρ : Type} (r : ρ) : Respects R fun s => (r, s) := fun _ _ h => ⟨rfl, h⟩

theorem respects_pure (x : α) : Respects R (pure x : ExceptT ε (StateM S) α) := respects_const _

theorem respects_throw (e : ε) : Respects R (throw e : ExceptT ε (StateM S) α) := respects_const _

/-- What a computation does in one state it does in every related one. -/
theorem Respects.of_eq {ρ : Type} {a : S → ρ × S} (ha : Respects R a) {s s' s₁ : S} {r : ρ}
    (h : R s s') (hrun : a s = (r, s₁)) : ∃ s₁', a s' = (r, s₁') ∧ R s₁ s₁' := by
  obtain ⟨hanswer, hstate⟩ := ha h
  rw [hrun] at hanswer hstate
  exact ⟨(a s').2, Prod.ext hanswer rfl, hstate⟩

/-- One computation after another, which may depend on the answer. -/
theorem Respects.andThen {ρ τ : Type} {a : S → ρ × S} {f : ρ → S → τ × S} (ha : Respects R a)
    (hf : ∀ r, Respects R (f r)) : Respects R fun s => f (a s).1 (a s).2 := by
  intro s s' h
  obtain ⟨hanswer, hstate⟩ := ha h
  simp only [hanswer]
  exact hf _ hstate

/-- A computation goes on only if its first part succeeds. -/
theorem respects_bind {a : ExceptT ε (StateM S) α} {f : α → ExceptT ε (StateM S) β}
    (ha : Respects R a) (hf : ∀ x, Respects R (f x)) : Respects R (a >>= f) := by
  refine ha.andThen (f := fun result s => ExceptT.bindCont f result s) fun result => ?_
  cases result with
  | ok x => exact hf x
  | error e => exact respects_throw e

/-- A computation does in every state what another one does in the image of that state. -/
def Simulates {T ρ : Type} (image : S → T) (a : S → ρ × S) (b : T → ρ × T) : Prop :=
  ∀ s, b (image s) = ((a s).1, image (a s).2)

variable {T : Type} {image : S → T}

theorem simulates_const {ρ : Type} (r : ρ) : Simulates image (fun s => (r, s)) fun t => (r, t) :=
  fun _ => rfl

/-- One computation after another, which may depend on the answer. -/
theorem Simulates.andThen {ρ τ : Type} {a : S → ρ × S} {b : T → ρ × T} {f : ρ → S → τ × S}
    {g : ρ → T → τ × T} (hab : Simulates image a b) (hfg : ∀ r, Simulates image (f r) (g r)) :
    Simulates image (fun s => f (a s).1 (a s).2) fun t => g (b t).1 (b t).2 := by
  intro s
  simp only [hab s]
  exact hfg _ _

theorem Simulates.map {ρ τ : Type} {a : S → ρ × S} {b : T → ρ × T} (hab : Simulates image a b)
    (f : ρ → τ) : Simulates image (fun s => (f (a s).1, (a s).2)) fun t => (f (b t).1, (b t).2) :=
  hab.andThen (f := fun r s => (f r, s)) (g := fun r t => (f r, t)) fun _ => simulates_const _

/-- A computation goes on only if its first part succeeds. -/
theorem simulates_bind {a : ExceptT ε (StateM S) α} {b : ExceptT ε (StateM T) α}
    {f : α → ExceptT ε (StateM S) β} {g : α → ExceptT ε (StateM T) β} (hab : Simulates image a b)
    (hfg : ∀ x, Simulates image (f x) (g x)) : Simulates image (a >>= f) (b >>= g) := by
  refine hab.andThen (f := fun result s => ExceptT.bindCont f result s)
    (g := fun result t => ExceptT.bindCont g result t) fun result => ?_
  cases result with
  | ok x => exact hfg x
  | error e => exact simulates_const _

end Fallible

end Concierge
