import Concierge.Proofs.Delivery.Notes
import Mathlib.Logic.Function.Iterate

/-!
# Deliveries step by step

A delivery calls a notifier, waits for the answer, and goes on or ends.  Others may take their steps
in between, so nothing is assumed of what happens outside from one step to the next; the calls follow
the same course all the same.  Left to itself, a delivery does what it does in one go.
-/

namespace Concierge

open Fallible

variable {σ : Type}

/-- A call of a notifier and how it was answered. -/
structure AnsweredCall where
  call : NotifierCall
  answer : Except Stop Unit

/-- The notifier was successful, within the time limit if there is one. -/
def AnsweredCall.Succeeded (a : AnsweredCall) : Prop := a.answer = .ok ()

instance (a : AnsweredCall) : Decidable a.Succeeded :=
  match h : a.answer with
  | .ok () => .isTrue h
  | .error _ => .isFalse fun hok => by cases h.symm.trans hok

/-- How far a delivery is. -/
inductive Stage (σ : Type) where
  /-- These notifiers may be called, one after the other. -/
  | ahead (rest : List (Notifier σ))
  /-- A notifier was called and did not answer yet. -/
  | waiting (called : Notifier σ) (answer : Except Stop Unit) (rest : List (Notifier σ))
  | ended

/-- The delivery is over. -/
def Stage.isEnded : Stage σ → Bool
  | .ended => true
  | _ => false

/-- What an answer is to somebody who waits no longer than a limit. -/
def AttemptResult.ofAnswer : Except Stop Unit → AttemptResult
  | .ok () => .delivered
  | .error (.failed e) => .failed e
  | .error (.stalled _ _ _) => .timedOut

theorem AttemptResult.of_eq (attempt : Attempt σ Unit) (o : Outside σ) :
    AttemptResult.of attempt o = (ofAnswer (attempt o).1, (attempt o).2) := by
  unfold AttemptResult.of
  cases attempt o with
  | mk answer o' => rcases answer with (e | ⟨e, last, afterMs⟩) | _ <;> rfl

namespace Delivery

/-- The notifiers that may be called for a delivery, in order. -/
def notifiers (providers : Providers σ) : Delivery → List (Notifier σ)
  | .knock account _ _ channels => channels.filterMap fun c => providers.notifier? c account
  | .welcome account _ _ channel => (providers.notifier? channel account).toList

/-- Call a notifier; only a knock has a limit. -/
def call (limitMs : Nat) (n : Notifier σ) : Delivery → Attempt σ Unit
  | .knock _ door person _ => (n.knock door person).within limitMs
  | .welcome _ person password _ => n.welcome person password

/-- The call on a channel. -/
def callOn (c : Channel) : Delivery → NotifierCall
  | .knock _ door person _ => .knock c door person
  | .welcome _ person password _ => .welcome c person password

/-- Go on after an answer: only a knock is tried again, and only after a failure. -/
def settle (limitMs : Nat) (d : Delivery) (called : Notifier σ) (answer : Except Stop Unit)
    (rest : List (Notifier σ)) (o : Outside σ) : Stage σ × Outside σ :=
  match d with
  | .knock _ _ _ _ =>
    let result := AttemptResult.ofAnswer answer
    let o := o.report (result.event called.channel limitMs)
    match result with
    | .delivered => (.ended, o)
    | _ => (.ahead rest, o)
  | .welcome _ _ _ _ =>
    match answer with
    | .ok () => (.ended, o.report (.welcomeDelivered called.channel))
    | .error stop =>
      (.ended,
        (stop.last.foldl Outside.report o).report (.welcomeFailed called.channel stop.error))

/-- End without a success. -/
def exhaust (providers : Providers σ) (d : Delivery) (o : Outside σ) : Outside σ :=
  match d with
  | .knock _ _ _ _ => o.report (.knockUndelivered (d.notifiers providers).length)
  | .welcome _ _ _ _ => o

variable (providers : Providers σ) (limitMs : Nat) (d : Delivery)

/-- Take the next step. -/
def step : Stage σ × Outside σ → Stage σ × Outside σ
  | (.ahead [], o) => (.ended, d.exhaust providers o)
  | (.ahead (n :: rest), o) =>
    let (answer, o) := d.call limitMs n o
    (.waiting n answer rest, o)
  | (.waiting called answer rest, o) => d.settle limitMs called answer rest o
  | (.ended, o) => (.ended, o)

/-- The calls that are made in the next step. -/
def made : Stage σ × Outside σ → List AnsweredCall
  | (.ahead (n :: _), o) => [⟨d.callOn n.channel, (d.call limitMs n o).1⟩]
  | _ => []

/-! ## One go -/

/-- Candidates that are tried step by step are tried as they are in one go. -/
theorem steps_attempts {account : Account} {door : Door} {person : Person} {channels : List Channel}
    (hd : d = .knock account door person channels) (rest : List (Notifier σ)) (o : Outside σ) :
    ∃ count, (d.step providers limitMs)^[count] (.ahead rest, o) =
      (.ended, match attempts limitMs door person rest o with
        | (some _, o') => o'
        | (none, o') => d.exhaust providers o') := by
  induction rest generalizing o with
  | nil => exact ⟨1, rfl⟩
  | cons n rest ih =>
    subst hd
    unfold attempts
    simp only [AttemptResult.of_eq]
    cases hcall : (n.knock door person).within limitMs o with
    | mk answer o' =>
      rcases answer with stop | ⟨⟩
      · -- A failure of either kind leaves the others.
        have hnext (result : AttemptResult) (hresult : AttemptResult.ofAnswer (.error stop) = result) :
            (step providers limitMs (.knock account door person channels))^[2]
              (.ahead (n :: rest), o) =
                (.ahead rest, o'.report (result.event n.channel limitMs)) := by
          subst hresult
          simp only [Function.iterate_succ, Function.iterate_zero, Function.comp_apply, id_eq, step,
            call, hcall, settle]
          cases stop <;> rfl
        obtain ⟨count, hcount⟩ := ih
          (o'.report ((AttemptResult.ofAnswer (.error stop)).event n.channel limitMs))
        refine ⟨count + 2, ?_⟩
        rw [Function.iterate_add_apply, hnext _ rfl, hcount]
        cases stop <;> rfl
      · refine ⟨2, ?_⟩
        simp only [Function.iterate_succ, Function.iterate_zero, Function.comp_apply, id_eq, step,
          call, hcall, settle, AttemptResult.ofAnswer]

/-- A delivery that nothing comes between does what it does in one go. -/
theorem steps_run (o : Outside σ) :
    ∃ count, (d.step providers limitMs)^[count] (.ahead (d.notifiers providers), o) =
      (.ended, d.run providers limitMs o) := by
  cases hd : d with
  | knock account door person channels =>
    obtain ⟨count, hcount⟩ :=
      steps_attempts providers limitMs d hd (d.notifiers providers) o
    subst hd
    refine ⟨count, hcount.trans ?_⟩
    simp only [run, firstSuccess, notifiers]
    cases attempts limitMs door person
      (channels.filterMap fun c => providers.notifier? c account) o with
    | mk result o' => cases result <;> rfl
  | welcome account person password channel =>
    cases hnotifier : providers.notifier? channel account with
    | none => exact ⟨1, by simp [notifiers, run, hnotifier, step, exhaust]⟩
    | some n =>
      refine ⟨2, ?_⟩
      simp only [notifiers, run, hnotifier, Option.toList_some, Function.iterate_succ,
        Function.iterate_zero, Function.comp_apply, id_eq, step, call, sendWelcome]
      cases n.welcome person password o with
      | mk answer o' => rcases answer with stop | ⟨⟩ <;> rfl

end Delivery

/-! ## The course of a delivery -/

/-- The notifiers before these were called, and all of them failed. -/
structure Tried (d : Delivery) (all : List (Notifier σ)) (calls : List AnsweredCall)
    (rest : List (Notifier σ)) : Prop where
  called : ∃ before, all = before ++ rest ∧
    calls.map (·.call) = before.map fun n => d.callOn n.channel
  failed : ∀ a ∈ calls, ¬ a.Succeeded

theorem Tried.start (d : Delivery) (all : List (Notifier σ)) : Tried d all [] all :=
  ⟨⟨[], rfl, rfl⟩, by simp⟩

/-- One more was called and failed. -/
theorem Tried.next {d : Delivery} {all : List (Notifier σ)} {calls : List AnsweredCall}
    {n : Notifier σ} {rest : List (Notifier σ)} (h : Tried d all calls (n :: rest)) {stop : Stop} :
    Tried d all (calls ++ [⟨d.callOn n.channel, .error stop⟩]) rest where
  called := by
    obtain ⟨before, hall, hcalls⟩ := h.called
    exact ⟨before ++ [n], by simp [hall], by simp [hcalls]⟩
  failed a ha := by
    rcases List.mem_append.1 ha with hbefore | hlast
    · exact h.failed a hbefore
    · rw [List.mem_singleton.1 hlast]
      exact fun hok => by cases hok

theorem Tried.called_prefix {d : Delivery} {all : List (Notifier σ)} {calls : List AnsweredCall}
    {rest : List (Notifier σ)} (h : Tried d all calls rest) :
    calls.map (·.call) <+: all.map fun n => d.callOn n.channel := by
  obtain ⟨before, rfl, hcalls⟩ := h.called
  rw [hcalls, List.map_append]
  exact List.prefix_append _ _

theorem Tried.called_prefix_next {d : Delivery} {all : List (Notifier σ)}
    {calls : List AnsweredCall} {n : Notifier σ} {rest : List (Notifier σ)}
    (h : Tried d all calls (n :: rest)) {answer : Except Stop Unit} :
    (calls ++ [AnsweredCall.mk (d.callOn n.channel) answer]).map (·.call) <+:
      all.map fun n => d.callOn n.channel := by
  obtain ⟨before, rfl, hcalls⟩ := h.called
  refine ⟨rest.map fun n => d.callOn n.channel, ?_⟩
  simp only [List.map_append, hcalls, List.map_cons, List.map_nil, List.append_assoc,
    List.singleton_append]

/-- The calls that were made so far fit the stage of a delivery. -/
inductive Course (d : Delivery) (all : List (Notifier σ)) : List AnsweredCall → Stage σ → Prop where
  | ahead {calls : List AnsweredCall} {rest : List (Notifier σ)} (tried : Tried d all calls rest) :
      Course d all calls (.ahead rest)
  | waiting {calls : List AnsweredCall} {n : Notifier σ} {rest : List (Notifier σ)}
      {answer : Except Stop Unit} (tried : Tried d all calls (n :: rest)) :
      Course d all (calls ++ [⟨d.callOn n.channel, answer⟩]) (.waiting n answer rest)
  /-- The last call succeeded, or it is not to be tried again. -/
  | stopped {calls : List AnsweredCall} {n : Notifier σ} {rest : List (Notifier σ)}
      {answer : Except Stop Unit} (tried : Tried d all calls (n :: rest))
      (settled : ∀ account door person channels, d = .knock account door person channels →
        answer = .ok ()) :
      Course d all (calls ++ [⟨d.callOn n.channel, answer⟩]) .ended
  | exhausted {calls : List AnsweredCall} (tried : Tried d all calls []) : Course d all calls .ended

namespace Course

variable {d : Delivery} {all : List (Notifier σ)} {calls : List AnsweredCall} {stage : Stage σ}

theorem settle {n : Notifier σ} {rest : List (Notifier σ)} {answer : Except Stop Unit}
    (tried : Tried d all calls (n :: rest)) (limitMs : Nat) (o : Outside σ) :
    Course d all (calls ++ [⟨d.callOn n.channel, answer⟩]) (d.settle limitMs n answer rest o).1 := by
  cases d with
  | knock account door person channels =>
    rcases answer with (e | ⟨e, last, afterMs⟩) | ⟨⟩
    · exact .ahead tried.next
    · exact .ahead tried.next
    · exact .stopped tried fun _ _ _ _ _ => rfl
  | welcome account person password channel =>
    have hover : Course (.welcome account person password channel) all
        (calls ++ [⟨.welcome n.channel person password, answer⟩]) .ended :=
      .stopped tried fun _ _ _ _ h => by cases h
    rcases answer with stop | ⟨⟩ <;> exact hover

/-- Every step of a delivery keeps to its course. -/
theorem step (h : Course d all calls stage) (providers : Providers σ) (limitMs : Nat)
    (o : Outside σ) :
    Course d all (calls ++ d.made limitMs (stage, o)) (d.step providers limitMs (stage, o)).1 := by
  cases h with
  | @ahead _ rest tried =>
    cases rest with
    | nil => exact (List.append_nil calls).symm ▸ .exhausted tried
    | cons n rest => exact .waiting tried
  | waiting tried => exact (List.append_nil _).symm ▸ settle tried limitMs o
  | stopped tried settled => exact (List.append_nil _).symm ▸ .stopped tried settled
  | exhausted tried => exact (List.append_nil calls).symm ▸ .exhausted tried

/-- All calls but the last one failed. -/
theorem failed (h : Course d all calls stage) : ∀ a ∈ calls.dropLast, ¬ a.Succeeded := by
  cases h with
  | ahead tried => exact fun a ha => tried.failed a (List.dropLast_subset _ ha)
  | waiting tried => simpa using tried.failed
  | stopped tried => simpa using tried.failed
  | exhausted tried => exact fun a ha => tried.failed a (List.dropLast_subset _ ha)

/-- The notifiers are called in order, each once at most. -/
theorem called_prefix (h : Course d all calls stage) :
    calls.map (·.call) <+: all.map fun n => d.callOn n.channel := by
  cases h with
  | ahead tried => exact tried.called_prefix
  | waiting tried => exact tried.called_prefix_next
  | stopped tried => exact tried.called_prefix_next
  | exhausted tried => exact tried.called_prefix

/-- A knock is given up only after every notifier was called. -/
theorem complete (h : Course d all calls stage) (hended : stage.isEnded = true) {account : Account}
    {door : Door} {person : Person} {channels : List Channel}
    (hd : d = .knock account door person channels) :
    calls.length = all.length ∨ ∃ a, calls.getLast? = some a ∧ a.Succeeded := by
  cases h with
  | ahead tried => cases hended
  | waiting tried => cases hended
  | stopped tried settled => exact .inr ⟨_, List.getLast?_concat, settled _ _ _ _ hd⟩
  | exhausted tried =>
    obtain ⟨before, rfl, hcalls⟩ := tried.called
    have hlength := congrArg List.length hcalls
    simp only [List.length_map] at hlength
    exact .inl (by rw [hlength, List.append_nil])

end Course

/-! ## Calls that are noted -/

namespace Delivery

/-- The notifiers of a service that notes calls note their calls. -/
theorem notifiers_noting (p : Providers σ) (d : Delivery) :
    d.notifiers p.noting = (d.notifiers p).map Notifier.noting := by
  cases d with
  | knock account door person channels =>
    simp only [notifiers, Providers.noting, List.map_filterMap]
  | welcome account person password channel =>
    simp only [notifiers, Providers.noting]
    cases p.notifier? channel account <;> rfl

theorem settle_calls (limitMs : Nat) (d : Delivery) (called : Notifier (Noted σ))
    (answer : Except Stop Unit) (rest : List (Notifier (Noted σ))) (o : Outside (Noted σ)) :
    (d.settle limitMs called answer rest o).2.state.calls = o.state.calls := by
  cases d with
  | knock account door person channels => rcases answer with (e | ⟨e, last, afterMs⟩) | ⟨⟩ <;> rfl
  | welcome account person password channel =>
    rcases answer with stop | ⟨⟩
    · exact Outside.foldl_report_calls stop.last o
    · rfl

/-- The calls that a delivery makes are those that are noted. -/
theorem step_calls {p : Providers σ} {d : Delivery} {calls : List AnsweredCall}
    {stage : Stage (Noted σ)} (h : Course d (d.notifiers p.noting) calls stage) (limitMs : Nat)
    (o : Outside (Noted σ)) :
    (d.step p.noting limitMs (stage, o)).2.state.calls =
      o.state.calls ++ (d.made limitMs (stage, o)).map (·.call) := by
  cases h with
  | @ahead _ rest tried =>
    cases rest with
    | nil => cases d <;> exact (List.append_nil _).symm
    | cons n rest =>
      obtain ⟨before, hall, -⟩ := tried.called
      rw [notifiers_noting] at hall
      obtain ⟨plain, -, rfl⟩ := List.mem_map.1 (hall ▸ List.mem_append_right before List.mem_cons_self)
      cases d with
      | knock account door person channels =>
        simp only [step, made, call, plain.noting_knock_within]
        rfl
      | welcome account person password channel => rfl
  | waiting tried => exact (settle_calls limitMs d _ _ _ o).trans (List.append_nil _).symm
  | stopped tried settled => exact (List.append_nil _).symm
  | exhausted tried => exact (List.append_nil _).symm

/-- Attempts are made as if nothing were noted. -/
theorem attempts_simulates (limitMs : Nat) (door : Door) (person : Person)
    (candidates : List (Notifier σ)) :
    Simulates Outside.unnoted (attempts limitMs door person (candidates.map Notifier.noting))
      (attempts limitMs door person candidates) := by
  induction candidates with
  | nil => exact simulates_const _
  | cons n rest ih =>
    intro o
    have hcall : (n.knock door person).within limitMs o.unnoted =
        (((n.noting.knock door person).within limitMs o).1,
          ((n.noting.knock door person).within limitMs o).2.unnoted) := by
      rw [n.noting_knock_within]
      rfl
    simp only [List.map_cons, attempts, AttemptResult.of_eq, hcall]
    cases (n.noting.knock door person).within limitMs o with
    | mk answer o' =>
      cases hresult : AttemptResult.ofAnswer answer with
      | delivered => rfl
      | failed e => exact ih (o'.report (.attemptFailed n.channel e))
      | timedOut => exact ih (o'.report (.attemptTimedOut n.channel limitMs))

/-- A delivery is made as if nothing were noted. -/
theorem run_unnoted (p : Providers σ) (limitMs : Nat) (d : Delivery) (o : Outside (Noted σ)) :
    (d.run p.noting limitMs o).unnoted = d.run p limitMs o.unnoted := by
  cases d with
  | knock account door person channels =>
    have hnotifiers := notifiers_noting p (.knock account door person channels)
    have hattempts := attempts_simulates limitMs door person
      (channels.filterMap fun c => p.notifier? c account) o
    simp only [notifiers] at hnotifiers
    simp only [run, firstSuccess, hnotifiers, hattempts, List.length_map]
    cases attempts limitMs door person
      ((channels.filterMap fun c => p.notifier? c account).map Notifier.noting) o with
    | mk result o' => cases result <;> rfl
  | welcome account person password channel =>
    simp only [run, Providers.noting]
    cases p.notifier? channel account with
    | none => rfl
    | some n =>
      have hcall : n.welcome person password o.unnoted =
          ((n.noting.welcome person password o).1, (n.noting.welcome person password o).2.unnoted) :=
        rfl
      simp only [Option.map_some, sendWelcome, hcall]
      cases n.noting.welcome person password o with
      | mk answer o' =>
        rcases answer with stop | ⟨⟩
        · exact congrArg (Outside.report · (.welcomeFailed n.channel stop.error))
            (Outside.foldl_report_unnoted stop.last o')
        · rfl

end Delivery

end Concierge
