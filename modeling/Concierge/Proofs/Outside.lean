import Concierge.Outside
import Concierge.Proofs.Fallible

/-!
# Attempts within a limit

Whoever waits for an attempt no longer than a limit sees what the attempt does, except that one which
stalls and gives up by itself in time has failed for them.  So a limit changes neither successes nor what
is outside, and nothing at all where no attempt gives up by itself.
-/

namespace Concierge

variable {σ α : Type} {attempt : Attempt σ α} {o : Outside σ} {limitMs : Nat}

namespace Attempt

/-- What is seen within a limit is the attempt itself, or that it gave up in time. -/
theorem within_cases (limitMs : Nat) (attempt : Attempt σ α) (o : Outside σ) :
    attempt.within limitMs o = attempt o ∨
      ∃ stop, (attempt o).1 = .error stop ∧ stop.endsWithin limitMs = true ∧
        attempt.within limitMs o = (.error (.failed stop.error),
          { (attempt o).2 with log := (attempt o).2.log ++ stop.last }) := by
  unfold within
  cases hresult : attempt o with
  | mk result o' =>
    cases result with
    | ok x => exact .inl rfl
    | error stop =>
      cases hends : stop.endsWithin limitMs with
      | false => exact .inl (by simp [hends])
      | true => exact .inr ⟨stop, rfl, hends, by simp [hends]⟩

theorem within_state (limitMs : Nat) (attempt : Attempt σ α) (o : Outside σ) :
    (attempt.within limitMs o).2.state = (attempt o).2.state := by
  obtain h | ⟨stop, -, -, h⟩ := within_cases limitMs attempt o <;> rw [h]

/-- A limit lets successes through, and makes none. -/
theorem within_eq_ok_iff {x : α} {o' : Outside σ} :
    attempt.within limitMs o = (.ok x, o') ↔ attempt o = (.ok x, o') := by
  obtain h | ⟨stop, hstop, -, h⟩ := within_cases limitMs attempt o
  · rw [h]
  · rw [h]
    refine ⟨fun hok => (nomatch congrArg Prod.fst hok), fun hok => ?_⟩
    rw [hok] at hstop
    cases hstop

/-- The attempt never gives up by itself. -/
def Patient (attempt : Attempt σ α) : Prop :=
  Fallible.Fails attempt fun stop => ∀ limitMs, stop.endsWithin limitMs = false

/-- A limit makes no difference to an attempt that never gives up by itself. -/
theorem Patient.within_eq (h : attempt.Patient) (limitMs : Nat) : attempt.within limitMs = attempt := by
  funext o
  obtain heq | ⟨stop, hstop, hends, -⟩ := within_cases limitMs attempt o
  · exact heq
  · rw [h o stop _ (Prod.ext hstop rfl)] at hends
    cases hends

theorem patient_fail (e : ProviderError) : (fail e : Attempt σ α).Patient :=
  Fallible.fails_throw fun _ => rfl

theorem patient_report (e : Event) : (report e : Attempt σ Unit).Patient := fun _ _ _ hrun => nomatch hrun

end Attempt

end Concierge
