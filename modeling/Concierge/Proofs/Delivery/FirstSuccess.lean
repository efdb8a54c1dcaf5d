import Concierge.Proofs.Delivery.Notes

/-!
# First success

Candidates are called one after the other, up to the first that answers in time that it succeeded.  A
candidate may do anything: it may change what is outside, log events of its own, and answer after any
time or never; what it does may depend on all that was done before.  Which candidates are called, what is
logged and what is answered is read off how the candidates react.
-/

namespace Concierge

variable {σ : Type}

/-- How a candidate reacts to a call. -/
structure Reaction (σ : Type) where
  /-- The milliseconds until it answers and the answer; nothing if it never answers. -/
  answer : Option (Nat × Except ProviderError Unit)
  /-- What it logs itself while somebody waits for it. -/
  logged : List Event
  /-- What is outside afterwards. -/
  state : σ

/-- The answer that comes within a time limit. -/
def Reaction.within (limitMs : Nat) (r : Reaction σ) : Option (Except ProviderError Unit) :=
  r.answer.bind fun (afterMs, result) => if afterMs ≤ limitMs then some result else none

/-- A candidate for the delivery of a knock. -/
structure Candidate (σ : Type) where
  channel : Channel
  react : Door → Person → σ → Reaction σ

/-- The candidate as a notifier for somebody who waits no longer than a limit. -/
def Candidate.notifier (limitMs : Nat) (c : Candidate σ) : Notifier σ where
  channel := c.channel
  knock door person o :=
    let r := c.react door person o.state
    let outside := ⟨r.state, o.log ++ r.logged⟩
    match r.within limitMs with
    | some (.ok ()) => (.ok (), outside)
    | some (.error e) => (.error (.failed e), outside)
    | none => (.error (.stalled .timeout []), outside)
  welcome _ _ := Attempt.fail (.unsupported c.channel.name)

/-- A candidate that was called, and how it reacted. -/
structure Trial (σ : Type) where
  candidate : Candidate σ
  reaction : Reaction σ

namespace Trial

/-- The candidate answered in time that it succeeded. -/
def Succeeded (limitMs : Nat) (t : Trial σ) : Prop := t.reaction.within limitMs = some (.ok ())

/-- The warning about a candidate that did not: its error, or that no answer came in time. -/
def warning (limitMs : Nat) (t : Trial σ) : Event :=
  match t.reaction.within limitMs with
  | some (.error e) => .attemptFailed t.candidate.channel e
  | _ => .attemptTimedOut t.candidate.channel limitMs

/-- What a warning shows: the channel, and the error or the limit. -/
def fields (limitMs : Nat) (t : Trial σ) : List (String × Event.Value) :=
  [("channel", .text t.candidate.channel.name),
    match t.reaction.within limitMs with
    | some (.error e) => ("error", .text e.message)
    | _ => ("timeout_ms", .number limitMs)]

theorem warning_shown (limitMs : Nat) (t : Trial σ) :
    (t.warning limitMs).level = .warn ∧ (t.warning limitMs).fields = t.fields limitMs := by
  unfold warning fields
  cases t.reaction.within limitMs with
  | none => exact ⟨rfl, rfl⟩
  | some answer => rcases answer with e | ⟨⟩ <;> exact ⟨rfl, rfl⟩

/-- The call of the candidate. -/
def call (door : Door) (person : Person) (t : Trial σ) : NotifierCall :=
  .knock t.candidate.channel door person

/-- What is outside after the call: it was noted, and the candidate did what it does. -/
def after (door : Door) (person : Person) (t : Trial σ) (o : Outside (Noted σ)) : Outside (Noted σ) :=
  ⟨⟨t.reaction.state, o.state.calls ++ [t.call door person]⟩, o.log ++ t.reaction.logged⟩

end Trial

/-- Candidates are called one after the other, each with what is outside after the one before. -/
inductive Trials (door : Door) (person : Person) : σ → List (Trial σ) → σ → Prop where
  | nil (s : σ) : Trials door person s [] s
  | cons {s s' : σ} {c : Candidate σ} {others : List (Trial σ)}
      (rest : Trials door person (c.react door person s).state others s') :
      Trials door person s (⟨c, c.react door person s⟩ :: others) s'

/-- What is logged about candidates that did not succeed, each time after what they logged themselves. -/
def failureLog (limitMs : Nat) (failed : List (Trial σ)) : List Event :=
  failed.flatMap fun t => t.reaction.logged ++ [t.warning limitMs]

/-- What candidates come to: those before the first success failed, and those behind it are left alone.
If there is none, all were called, and the log ends as given. -/
inductive Attempted (limitMs : Nat) (door : Door) (person : Person) (last : List Event)
    (candidates : List (Candidate σ)) (o : Outside (Noted σ)) :
    Option Channel × Outside (Noted σ) → Prop where
  | delivered {failed : List (Trial σ)} {winner : Trial σ} {untouched : List (Candidate σ)} {s : σ}
      (split : candidates = failed.map (·.candidate) ++ winner.candidate :: untouched)
      (failures : ∀ t ∈ failed, ¬ t.Succeeded limitMs) (success : winner.Succeeded limitMs)
      (trials : Trials door person o.state.state (failed ++ [winner]) s) :
      Attempted limitMs door person last candidates o (some winner.candidate.channel,
        ⟨⟨s, o.state.calls ++ (failed ++ [winner]).map (·.call door person)⟩,
          o.log ++ failureLog limitMs failed ++ winner.reaction.logged ++
            [.knockDelivered winner.candidate.channel]⟩)
  | exhausted {failed : List (Trial σ)} {s : σ} (split : candidates = failed.map (·.candidate))
      (failures : ∀ t ∈ failed, ¬ t.Succeeded limitMs)
      (trials : Trials door person o.state.state failed s) :
      Attempted limitMs door person last candidates o (none,
        ⟨⟨s, o.state.calls ++ failed.map (·.call door person)⟩,
          o.log ++ failureLog limitMs failed ++ last⟩)

namespace Attempted

variable {limitMs : Nat} {door : Door} {person : Person} {last : List Event} {c : Candidate σ}
  {rest : List (Candidate σ)} {o : Outside (Noted σ)} {t : Trial σ}

/-- The first candidate succeeds. -/
theorem at_once (ht : t = ⟨c, c.react door person o.state.state⟩) (h : t.Succeeded limitMs) :
    Attempted limitMs door person last (c :: rest) o
      (some c.channel, (t.after door person o).report (.knockDelivered c.channel)) := by
  have hsplit : c :: rest = ([] : List (Trial σ)).map (·.candidate) ++ t.candidate :: rest := by
    rw [ht, List.map_nil, List.nil_append]
  have htrials : Trials door person o.state.state ([] ++ [t]) t.reaction.state := by
    rw [ht]
    exact .cons (.nil _)
  have hwinner : Attempted limitMs door person last (c :: rest) o _ :=
    .delivered hsplit (fun _ hnone => absurd hnone List.not_mem_nil) h htrials
  simpa [ht, failureLog, Trial.after, Outside.report] using hwinner

/-- The first candidate fails, and the others are tried after that. -/
theorem after_failure {answer : Option Channel × Outside (Noted σ)}
    (ht : t = ⟨c, c.react door person o.state.state⟩) (h : ¬ t.Succeeded limitMs)
    (hrest : Attempted limitMs door person last rest
      ((t.after door person o).report (t.warning limitMs)) answer) :
    Attempted limitMs door person last (c :: rest) o answer := by
  have hcons {others : List (Trial σ)} {s : σ}
      (htrials : Trials door person t.reaction.state others s) :
      Trials door person o.state.state (t :: others) s := by
    rw [ht] at htrials ⊢
    exact .cons htrials
  cases hrest with
  | @delivered failed winner untouched s split failures success trials =>
    have hsplit : c :: rest = (t :: failed).map (·.candidate) ++ winner.candidate :: untouched := by
      rw [split, ht, List.map_cons, List.cons_append]
    have hmore : Attempted limitMs door person last (c :: rest) o _ :=
      .delivered hsplit (List.forall_mem_cons.2 ⟨h, failures⟩) success (hcons trials)
    simpa [failureLog, Trial.after, Outside.report] using hmore
  | @exhausted failed s split failures trials =>
    have hsplit : c :: rest = (t :: failed).map (·.candidate) := by rw [split, ht, List.map_cons]
    have hmore : Attempted limitMs door person last (c :: rest) o _ :=
      .exhausted hsplit (List.forall_mem_cons.2 ⟨h, failures⟩) (hcons trials)
    simpa [failureLog, Trial.after, Outside.report] using hmore

end Attempted

/-! ## Delivery on the first success -/

/-- How a trial ended for somebody who waits no longer than a limit. -/
def Trial.result (limitMs : Nat) (t : Trial σ) : AttemptResult :=
  match t.reaction.within limitMs with
  | some (.ok ()) => .delivered
  | some (.error e) => .failed e
  | none => .timedOut

/-- Calling a candidate is a trial of it. -/
theorem Candidate.of_noting (limitMs : Nat) (door : Door) (person : Person) (c : Candidate σ)
    {o : Outside (Noted σ)} {t : Trial σ} (ht : t = ⟨c, c.react door person o.state.state⟩) :
    AttemptResult.of (((c.notifier limitMs).noting.knock door person).within limitMs) o =
      (t.result limitMs, t.after door person o) := by
  subst ht
  simp only [AttemptResult.of, Attempt.within, Notifier.noting, Outside.beside, Outside.note,
    Outside.unnoted, notifier, Trial.result, Trial.after, Trial.call]
  cases (c.react door person o.state.state).within limitMs with
  | none => rfl
  | some answer => rcases answer with e | ⟨⟩ <;> rfl

/-- What is logged about a trial that did not succeed is its warning. -/
theorem Trial.event_eq_warning {limitMs : Nat} {t : Trial σ} (h : ¬ t.Succeeded limitMs) :
    t.result limitMs ≠ .delivered ∧
      (t.result limitMs).event t.candidate.channel limitMs = t.warning limitMs := by
  unfold Succeeded at h
  unfold result warning
  cases hanswer : t.reaction.within limitMs with
  | none => exact ⟨by simp, rfl⟩
  | some answer =>
    rcases answer with e | ⟨⟩
    · exact ⟨by simp, rfl⟩
    · exact absurd hanswer h

namespace Delivery

variable (limitMs : Nat) (door : Door) (person : Person)

/-- Candidates are tried as they come. -/
theorem attempts_candidates (candidates : List (Candidate σ)) (o : Outside (Noted σ)) :
    Attempted limitMs door person [] candidates o
      (attempts limitMs door person (candidates.map fun c => (c.notifier limitMs).noting) o) := by
  induction candidates generalizing o with
  | nil =>
    have hnobody : Attempted limitMs door person [] ([] : List (Candidate σ)) o _ :=
      .exhausted rfl (fun _ hnone => absurd hnone List.not_mem_nil) (.nil _)
    simpa [failureLog, attempts] using hnobody
  | cons c rest ih =>
    obtain ⟨t, ht⟩ : ∃ t : Trial σ, t = ⟨c, c.react door person o.state.state⟩ := ⟨_, rfl⟩
    have hchannel : ((c.notifier limitMs).noting).channel = t.candidate.channel := by rw [ht]; rfl
    simp only [List.map_cons, attempts, c.of_noting limitMs door person ht, hchannel]
    by_cases hsucceeded : t.Succeeded limitMs
    · have hresult : t.result limitMs = .delivered := by rw [Trial.result, hsucceeded]
      have hanswer : Attempted limitMs door person [] (c :: rest) o _ := .at_once ht hsucceeded
      rw [hresult]
      rw [ht] at hanswer ⊢
      exact hanswer
    · obtain ⟨hfailed, hwarning⟩ := Trial.event_eq_warning hsucceeded
      rw [hwarning]
      have hothers := (ih ((t.after door person o).report (t.warning limitMs))).after_failure ht hsucceeded
      cases hresult : t.result limitMs with
      | delivered => exact absurd hresult hfailed
      | failed e => exact hothers
      | timedOut => exact hothers

/-- What delivery makes of what the candidates came to: if there was no success, it logs an error. -/
theorem firstSuccess_attempted (candidates : List (Candidate σ)) (o : Outside (Noted σ)) :
    Attempted limitMs door person [.knockUndelivered candidates.length] candidates o
      (firstSuccess limitMs door person
        (candidates.map fun c => (c.notifier limitMs).noting) o) := by
  have hattempts := attempts_candidates limitMs door person candidates o
  unfold firstSuccess
  rw [List.length_map]
  generalize attempts limitMs door person (candidates.map fun c => (c.notifier limitMs).noting) o =
    answer at hattempts
  cases hattempts with
  | delivered split failures success trials => exact .delivered split failures success trials
  | exhausted split failures trials =>
    have hexhausted : Attempted limitMs door person [.knockUndelivered candidates.length]
      candidates o _ := .exhausted split failures trials
    simpa [Outside.report] using hexhausted

/-- A knock is delivered on the first candidate that answers in time that it succeeded.  The candidates
up to that one, or all of them, are called in order and once each.  A warning is logged for each that
failed or did not answer in time, and after that the success, or an error with the number of candidates;
they show the channel with the error or the limit, the channel, and that number. -/
theorem firstSuccess_candidates (candidates : List (Candidate σ)) (o : Outside (Noted σ)) :
    Attempted limitMs door person [.knockUndelivered candidates.length] candidates o
        (firstSuccess limitMs door person
          (candidates.map fun c => (c.notifier limitMs).noting) o) ∧
      (∀ t : Trial σ, (t.warning limitMs).level = .warn ∧
        (t.warning limitMs).fields = t.fields limitMs) ∧
      (∀ c, (Event.knockDelivered c).level = .info ∧
        (Event.knockDelivered c).fields = [("channel", .text c.name)]) ∧
      (Event.knockUndelivered candidates.length).level = .error ∧
      (Event.knockUndelivered candidates.length).fields = [("attempts", .number candidates.length)] :=
  ⟨firstSuccess_attempted limitMs door person candidates o, Trial.warning_shown limitMs,
    fun _ => ⟨rfl, rfl⟩, rfl, rfl⟩

end Delivery

end Concierge
