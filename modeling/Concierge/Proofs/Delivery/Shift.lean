import Concierge.Proofs.Delivery.Tasks

/-!
# The service at work

Requests are served one after the other while deliveries are under way in the background, each at its
own pace.  In between, rows are seeded, changed and removed, storage failures come and go, and anything
may happen outside.  Somebody may wait until all deliveries are over; they are woken once that is so,
and by the time they go on new ones may have begun.

A request is one event, whatever it waits for: it calls no notifier itself, and deliveries do not look
at the rows.  A delivery is interrupted between a call and its answer and between an answer and the
next call.

What is true of every such course of events is carried by one invariant: the deliveries are those that
requests promised, one for each, and each keeps to its course whatever the others do.
-/

namespace Concierge

variable {σ : Type}

/-- A request, and the world before it. -/
structure Ask (σ : Type) where
  accountId : Uuid
  op : Operation
  before : World σ

namespace Ask

/-- The knock that a request comes to, if it does. -/
def knocking? (ask : Ask σ) : Option (Knocking σ) := ask.op.knocking? ask.accountId ask.before

/-- The request promises a message. -/
def Promises (service : Service σ) (ask : Ask σ) (d : Delivery) : Prop :=
  ask.op.Promises service ask.accountId ask.before d

end Ask

/-- A delivery in the background, and the number of the request that promised it. -/
structure Task (σ : Type) where
  ask : Nat
  delivery : Delivery
  stage : Stage (Noted σ)

/-- What a delivery is to deliver, which never changes. -/
def Task.promise (task : Task σ) : Nat × Delivery := (task.ask, task.delivery)

/-- Where somebody is who waits for the deliveries. -/
inductive Wait where
  | waiting
  | woken
  | returned
  deriving DecidableEq, Repr

/-- Somebody who waits for the deliveries. -/
structure Drain where
  /-- How many requests were made before. -/
  asked : Nat
  wait : Wait

/-- Nobody waits any longer. -/
def Drain.wake (drain : Drain) : Drain :=
  match drain.wait with
  | .waiting => { drain with wait := .woken }
  | _ => drain

/-- The service at work. -/
structure Shift (σ : Type) where
  world : World (Noted σ)
  /-- Requests, oldest first. -/
  asks : List (Ask σ)
  tasks : List (Task σ)
  /-- The calls of notifiers, each with the number of the request behind it. -/
  made : List (Nat × AnsweredCall)
  /-- Those who wait are to be woken when no delivery is left. -/
  closed : Bool
  drains : List Drain

/-- What may happen next. -/
inductive Turn (σ : Type) where
  /-- Rows are seeded, changed or removed, or the storage begins or ceases to fail. -/
  | edit (change : Store → Store)
  /-- Something happens outside. -/
  | happen (change : Outside σ → Unit × Outside σ)
  | ask (accountId : Uuid) (op : Operation)
  /-- A delivery takes a step. -/
  | advance (task : Nat)
  /-- Somebody begins to wait for the deliveries. -/
  | drain
  /-- Somebody who was woken goes on. -/
  | resume (drain : Nat)

/-- The calls for a request. -/
def callsOf (made : List (Nat × AnsweredCall)) (ask : Nat) : List AnsweredCall :=
  (made.filter (·.1 == ask)).map (·.2)

namespace Shift

/-- Nothing was asked yet. -/
def start (store : Store) (outside : Outside σ) : Shift σ where
  world := ⟨store, ⟨⟨outside.state, []⟩, outside.log⟩, []⟩
  asks := []
  tasks := []
  made := []
  closed := false
  drains := []

/-- Wake those who wait, if it is time. -/
def notify (s : Shift σ) : Shift σ :=
  if s.closed && s.tasks.all (·.stage.isEnded) then { s with drains := s.drains.map Drain.wake } else s

/-- Serve a request; what it promises is delivered in the background. -/
def serve (service : Service σ) (accountId : Uuid) (op : Operation) (s : Shift σ) : Shift σ :=
  let w := (op.perform service.noting accountId s.world).2
  { s with
    world := { w with pending := [] }
    asks := s.asks ++ [⟨accountId, op, s.world.unnoted⟩]
    tasks := s.tasks ++ w.pending.map fun d =>
      ⟨s.asks.length, d, .ahead (d.notifiers service.providers.noting)⟩ }

/-- Let a delivery take a step. -/
def advance (service : Service σ) (i : Nat) (s : Shift σ) : Shift σ :=
  match s.tasks[i]? with
  | none => s
  | some task =>
    let before := (task.stage, s.world.outside)
    let (stage, outside) := task.delivery.step service.providers.noting
      service.settings.attemptTimeoutMs before
    notify { s with
      world := { s.world with outside }
      tasks := s.tasks.set i { task with stage }
      made := s.made ++
        (task.delivery.made service.settings.attemptTimeoutMs before).map (task.ask, ·) }

/-- Let somebody go on. -/
def resume (k : Nat) (s : Shift σ) : Shift σ :=
  match s.drains[k]? with
  | some ⟨asked, .woken⟩ => { s with closed := false, drains := s.drains.set k ⟨asked, .returned⟩ }
  | _ => s

/-- The next thing happens. -/
def turn (service : Service σ) (s : Shift σ) : Turn σ → Shift σ
  | .edit change => { s with world := { s.world with store := change s.world.store } }
  | .happen change => { s with world := { s.world with outside := (s.world.outside.beside change).2 } }
  | .ask accountId op => s.serve service accountId op
  | .advance i => s.advance service i
  | .drain => notify { s with closed := true, drains := s.drains ++ [⟨s.asks.length, .waiting⟩] }
  | .resume k => s.resume k

/-- One thing happens after the other. -/
def run (service : Service σ) (turns : List (Turn σ)) (s : Shift σ) : Shift σ :=
  turns.foldl (turn service) s

/-- The delivery for a request is over. -/
def IsOver (s : Shift σ) (ask : Nat) : Prop :=
  ∃ task ∈ s.tasks, task.ask = ask ∧ task.stage.isEnded = true

end Shift

/-! ## What was promised -/

/-- The deliveries are those that requests promised, one for each. -/
structure Ledger (service : Service σ) (asks : List (Ask σ)) (promises : List (Nat × Delivery)) :
    Prop where
  grounded : ∀ j d, (j, d) ∈ promises → ∃ ask, asks[j]? = some ask ∧ ask.Promises service d
  kept : ∀ j ask d, asks[j]? = some ask → ask.Promises service d → (j, d) ∈ promises
  once : (promises.map (·.1)).Nodup

namespace Ledger

variable {service : Service σ} {asks : List (Ask σ)} {promises : List (Nat × Delivery)}

/-- Every delivery is for a request that was made. -/
theorem lt_length (h : Ledger service asks promises) {j : Nat} {d : Delivery}
    (hmem : (j, d) ∈ promises) : j < asks.length := by
  obtain ⟨ask, hask, -⟩ := h.grounded j d hmem
  exact (List.getElem?_eq_some_iff.1 hask).1

/-- One more request. -/
theorem append (h : Ledger service asks promises) {ask : Ask σ} {promised : Option Delivery}
    (hpromised : ∀ d, promised = some d ↔ ask.Promises service d) :
    Ledger service (asks ++ [ask]) (promises ++ promised.toList.map (asks.length, ·)) where
  grounded j d hmem := by
    rcases List.mem_append.1 hmem with hold | hnew
    · obtain ⟨asker, hasker, hd⟩ := h.grounded j d hold
      exact ⟨asker, by rw [List.getElem?_append_left (h.lt_length hold), hasker], hd⟩
    · obtain ⟨d', hd', hpair⟩ := List.mem_map.1 hnew
      cases hpair
      exact ⟨ask, by simp, (hpromised d).1 (Option.mem_toList.1 hd')⟩
  kept j asker d hasker hd := by
    rcases Nat.lt_or_ge j asks.length with hlt | hge
    · rw [List.getElem?_append_left hlt] at hasker
      exact List.mem_append_left _ (h.kept j asker d hasker hd)
    · obtain ⟨hj, -⟩ := List.getElem?_eq_some_iff.1 hasker
      obtain rfl : j = asks.length := by
        rw [List.length_append, List.length_singleton] at hj
        omega
      obtain rfl : ask = asker := by simpa using hasker
      refine List.mem_append_right _ (List.mem_map.2 ⟨d, ?_, rfl⟩)
      exact Option.mem_toList.2 ((hpromised d).2 hd)
  once := by
    rw [List.map_append, List.nodup_append]
    refine ⟨h.once, by cases promised <;> simp, fun j hj k hk => ?_⟩
    obtain ⟨⟨_, d⟩, hd, rfl⟩ := List.mem_map.1 hj
    have hlt := h.lt_length hd
    have hk : k = asks.length := by
      cases promised <;> simp_all
    simp only
    omega

end Ledger

/-! ## Calls -/

@[simp] theorem mem_callsOf {made : List (Nat × AnsweredCall)} {j : Nat} {a : AnsweredCall} :
    a ∈ callsOf made j ↔ (j, a) ∈ made := by
  simp [callsOf]

theorem callsOf_append_self (made : List (Nat × AnsweredCall)) (j : Nat) (calls : List AnsweredCall) :
    callsOf (made ++ calls.map (j, ·)) j = callsOf made j ++ calls := by
  induction calls generalizing made with
  | nil => simp
  | cons a rest ih =>
    rw [List.map_cons, ← List.singleton_append, ← List.append_assoc, ih]
    simp [callsOf]

theorem callsOf_append_of_ne (made : List (Nat × AnsweredCall)) {j k : Nat} (h : k ≠ j)
    (calls : List AnsweredCall) : callsOf (made ++ calls.map (j, ·)) k = callsOf made k := by
  have hnone : callsOf (calls.map (j, ·)) k = [] := by
    rw [List.eq_nil_iff_forall_not_mem]
    intro a ha
    obtain ⟨b, -, hpair⟩ := List.mem_map.1 (mem_callsOf.1 ha)
    exact h (Prod.mk.inj hpair).1.symm
  rw [callsOf] at hnone ⊢
  rw [List.filter_append, List.map_append, hnone, List.append_nil]
  rfl

/-- What is put in the place of an element makes no difference to what both have in common. -/
theorem map_set_eq {α β : Type} {f : α → β} {l : List α} {i : Nat} {x y : α} (hx : l[i]? = some x)
    (hy : f y = f x) : (l.set i y).map f = l.map f := by
  rw [List.map_set, hy]
  refine List.ext_getElem? fun j => ?_
  rw [List.getElem?_set]
  split
  · subst j
    obtain ⟨hi, rfl⟩ := List.getElem?_eq_some_iff.1 hx
    simp [hi]
  · rfl

/-! ## The invariant -/

/-- The waiting is over only when all deliveries for earlier requests are. -/
def Drain.Honest (tasks : List (Task σ)) (drain : Drain) : Prop :=
  drain.wait ≠ .waiting → ∀ task ∈ tasks, task.ask < drain.asked → task.stage.isEnded = true

/-- What is true all the time. -/
structure Shift.Sound (service : Service σ) (s : Shift σ) : Prop where
  pending : s.world.pending = []
  noted : s.world.outside.state.calls = s.made.map (·.2.call)
  ledger : Ledger service s.asks (s.tasks.map Task.promise)
  owned : ∀ j a, (j, a) ∈ s.made → j ∈ s.tasks.map (·.ask)
  course : ∀ (i : Nat) (task : Task σ), s.tasks[i]? = some task →
    Course task.delivery (task.delivery.notifiers service.providers.noting) (callsOf s.made task.ask)
      task.stage
  asked : ∀ drain ∈ s.drains, drain.asked ≤ s.asks.length
  honest : ∀ drain ∈ s.drains, drain.Honest s.tasks

namespace Shift.Sound

variable {service : Service σ} {s : Shift σ}

theorem start (service : Service σ) (store : Store) (outside : Outside σ) :
    Sound service (Shift.start store outside) where
  pending := rfl
  noted := rfl
  ledger := ⟨fun _ _ h => (by cases h), fun _ _ _ h => (by cases h), List.nodup_nil⟩
  owned _ _ h := by cases h
  course _ _ h := by cases h
  asked _ h := by cases h
  honest _ h := by cases h

/-- What was made was made for a request that promised it. -/
theorem lt_length (h : Sound service s) {j : Nat} (hmem : j ∈ s.tasks.map (·.ask)) :
    j < s.asks.length := by
  obtain ⟨task, htask, rfl⟩ := List.mem_map.1 hmem
  exact h.ledger.lt_length (List.mem_map.2 ⟨task, htask, rfl⟩)

/-- A request has one delivery at most. -/
theorem index_inj (h : Sound service s) {i j : Nat} {task other : Task σ}
    (hi : s.tasks[i]? = some task) (hj : s.tasks[j]? = some other) (hask : task.ask = other.ask) :
    i = j := by
  have honce : (s.tasks.map (·.ask)).Nodup := by
    have h := h.ledger.once
    rwa [List.map_map] at h
  refine (List.getElem?_inj ?_ honce).1 ?_
  · rw [List.length_map]
    exact (List.getElem?_eq_some_iff.1 hi).1
  · rw [List.getElem?_map, List.getElem?_map, hi, hj, Option.map_some, Option.map_some, hask]

theorem notify (h : Sound service s) : Sound service s.notify := by
  unfold Shift.notify
  split
  · rename_i hover
    have hended : ∀ task ∈ s.tasks, task.stage.isEnded = true := by
      exact List.all_eq_true.1 (Bool.and_eq_true _ _ ▸ hover).2
    refine { h with asked := fun drain hdrain => ?_, honest := fun drain _ _ task htask _ => ?_ }
    · obtain ⟨before, hbefore, rfl⟩ := List.mem_map.1 hdrain
      have hasked : before.wake.asked = before.asked := by unfold Drain.wake; split <;> rfl
      exact hasked ▸ h.asked before hbefore
    · exact hended task htask
  · exact h

theorem serve (h : Sound service s) (accountId : Uuid) (op : Operation) :
    Sound service (s.serve service accountId op) := by
  have hspares : service.noting.providers.Spares Noted.calls := service.providers.noting_spares
  obtain ⟨_, -, hnoted⟩ := op.perform_leadsTo hspares accountId s.world
  have hcalls := (Prod.mk.inj hnoted).2
  -- What is promised does not depend on the notes.
  have hnothing : service.providers.Spares fun _ => () := fun _ _ _ => rfl
  obtain ⟨promised, hpromises, haside⟩ := op.perform_leadsTo hnothing accountId s.world.unnoted
  have hpending : (op.perform service.noting accountId s.world).2.pending = promised.toList := by
    have hplain := (Prod.mk.inj haside).1
    rw [op.perform_simulates service accountId s.world] at hplain
    refine hplain.trans ?_
    rw [show s.world.unnoted.pending = [] from h.pending, List.nil_append]
  have htasks : (s.serve service accountId op).tasks = s.tasks ++ promised.toList.map fun d =>
      ⟨s.asks.length, d, .ahead (d.notifiers service.providers.noting)⟩ := by
    rw [← hpending]
    rfl
  have hasks : ((s.serve service accountId op).tasks.map (·.ask)) =
      s.tasks.map (·.ask) ++ promised.toList.map fun _ => s.asks.length := by
    rw [htasks, List.map_append, List.map_map]
    rfl
  have hnone : callsOf s.made s.asks.length = [] := by
    rw [List.eq_nil_iff_forall_not_mem]
    intro a ha
    exact absurd (h.lt_length (h.owned _ _ (mem_callsOf.1 ha))) (Nat.lt_irrefl _)
  refine ⟨rfl, hcalls.trans h.noted, ?_, fun j a ha => ?_, fun i task htask => ?_,
    fun drain hdrain => ?_, fun drain hdrain hwait task htask hlt => ?_⟩
  · rw [htasks, List.map_append, List.map_map]
    exact h.ledger.append hpromises
  · rw [hasks]
    exact List.mem_append_left _ (h.owned j a ha)
  · rw [htasks] at htask
    rcases List.mem_append.1 (List.mem_of_getElem? htask) with hold | hnew
    · obtain ⟨j, hj⟩ := List.getElem?_of_mem hold
      exact h.course j task hj
    · obtain ⟨d, -, rfl⟩ := List.mem_map.1 hnew
      change Course d _ (callsOf s.made s.asks.length) _
      rw [hnone]
      exact .ahead (.start d _)
  · exact Nat.le_trans (h.asked drain hdrain) (List.prefix_append _ _).length_le
  · rw [htasks] at htask
    rcases List.mem_append.1 htask with hold | hnew
    · exact h.honest drain hdrain hwait task hold hlt
    · obtain ⟨d, -, rfl⟩ := List.mem_map.1 hnew
      exact absurd (h.asked drain hdrain) (Nat.not_le.2 hlt)

/-- A delivery takes a step. -/
theorem advance (h : Sound service s) (i : Nat) : Sound service (s.advance service i) := by
  unfold Shift.advance
  cases htask : s.tasks[i]? with
  | none => exact h
  | some task =>
    have hcourse := h.course i task htask
    have hmem := List.mem_of_getElem? htask
    have hcalls := Delivery.step_calls hcourse service.settings.attemptTimeoutMs s.world.outside
    have hnext := hcourse.step service.providers.noting service.settings.attemptTimeoutMs
      s.world.outside
    have hended : task.stage.isEnded = true → (task.delivery.step service.providers.noting
        service.settings.attemptTimeoutMs (task.stage, s.world.outside)).1.isEnded = true := by
      intro hover
      cases hstage : task.stage with
      | ended => rfl
      | _ =>
        rw [hstage] at hover
        cases hover
    simp only
    generalize task.delivery.step service.providers.noting service.settings.attemptTimeoutMs
      (task.stage, s.world.outside) = after at hcalls hnext hended ⊢
    refine notify ⟨h.pending, ?_, ?_, fun j a ha => ?_, fun j other hother => ?_, h.asked,
      fun drain hdrain hwait other hother hlt => ?_⟩
    · rw [List.map_append, List.map_map, ← h.noted]
      exact hcalls
    · have hledger := h.ledger
      rwa [← map_set_eq (y := { task with stage := after.1 }) htask rfl] at hledger
    · have hasks : (s.tasks.set i { task with stage := after.1 }).map (·.ask) =
          s.tasks.map (·.ask) := map_set_eq htask rfl
      refine hasks.symm ▸ ?_
      rcases List.mem_append.1 ha with hold | hnew
      · exact h.owned j a hold
      · obtain ⟨b, -, hpair⟩ := List.mem_map.1 hnew
        cases hpair
        exact List.mem_map.2 ⟨task, hmem, rfl⟩
    · rw [List.getElem?_set] at hother
      split at hother
      · subst j
        rw [if_pos (List.getElem?_eq_some_iff.1 htask).1] at hother
        cases hother
        rw [callsOf_append_self]
        exact hnext
      · rename_i hne
        have hask : other.ask ≠ task.ask := fun hask => hne (h.index_inj htask hother hask.symm)
        rw [callsOf_append_of_ne _ hask]
        exact h.course j other hother
    · rcases List.mem_or_eq_of_mem_set hother with hold | rfl
      · exact h.honest drain hdrain hwait other hold hlt
      · exact hended (h.honest drain hdrain hwait task hmem hlt)

theorem drain (h : Sound service s) : Sound service (s.turn service .drain) := by
  refine notify { h with asked := fun drain hdrain => ?_, honest := fun drain hdrain => ?_ }
  · rcases List.mem_append.1 hdrain with hold | hnew
    · exact h.asked drain hold
    · obtain rfl := List.mem_singleton.1 hnew
      exact Nat.le_refl s.asks.length
  · rcases List.mem_append.1 hdrain with hold | hnew
    · exact h.honest drain hold
    · rw [List.mem_singleton.1 hnew]
      exact fun hno => absurd rfl hno

theorem resume (h : Sound service s) (k : Nat) : Sound service (s.resume k) := by
  unfold Shift.resume
  split
  · rename_i asked hdrain
    have hmem := List.mem_of_getElem? hdrain
    refine { h with asked := fun drain hset => ?_, honest := fun drain hset => ?_ }
    · rcases List.mem_or_eq_of_mem_set hset with hold | rfl
      · exact h.asked drain hold
      · exact h.asked ⟨asked, .woken⟩ hmem
    · rcases List.mem_or_eq_of_mem_set hset with hold | rfl
      · exact h.honest drain hold
      · exact fun _ => h.honest ⟨asked, .woken⟩ hmem fun hno => by cases hno
  · exact h

/-- Whatever happens next, the invariant stays. -/
theorem turn (h : Sound service s) (t : Turn σ) : Sound service (s.turn service t) := by
  cases t with
  | edit change => exact { h with }
  | happen change => exact { h with }
  | ask accountId op => exact h.serve accountId op
  | advance i => exact h.advance i
  | drain => exact h.drain
  | resume k => exact h.resume k

/-- The invariant holds after every course of events. -/
theorem run (h : Sound service s) (turns : List (Turn σ)) : Sound service (s.run service turns) := by
  induction turns generalizing s with
  | nil => exact h
  | cons t rest ih => exact ih (h.turn t)

end Shift.Sound

/-! ## One delivery at a time -/

namespace Shift

@[simp] theorem notify_world (s : Shift σ) : s.notify.world = s.world := by
  unfold notify
  split <;> rfl

@[simp] theorem notify_tasks (s : Shift σ) : s.notify.tasks = s.tasks := by
  unfold notify
  split <;> rfl

/-- A delivery that takes its steps alone goes on where it was. -/
theorem run_replicate_advance (service : Service σ) (count : Nat) {s : Shift σ} {i : Nat}
    {task : Task σ} (htask : s.tasks[i]? = some task) :
    (s.run service (.replicate count (.advance i))).world =
      { s.world with
        outside := ((task.delivery.step service.providers.noting
          service.settings.attemptTimeoutMs)^[count] (task.stage, s.world.outside)).2 } := by
  induction count generalizing s task with
  | zero => rfl
  | succ count ih =>
    have hadvance : s.turn service (.advance i) = s.advance service i := rfl
    rw [List.replicate_succ, run, List.foldl_cons, hadvance]
    have hi := (List.getElem?_eq_some_iff.1 htask).1
    have hnext : (s.advance service i).tasks[i]? = some { task with
        stage := (task.delivery.step service.providers.noting service.settings.attemptTimeoutMs
          (task.stage, s.world.outside)).1 } := by
      simp only [advance, htask, notify_tasks, List.getElem?_set_self hi]
    refine (ih hnext).trans ?_
    simp only [advance, htask, notify_world, Function.iterate_succ_apply]

/-- What the service does when it serves a request and makes the promised delivery at once is one of
the courses that events may take. -/
theorem Sound.exists_turns_drain {service : Service σ} {s : Shift σ} (h : Sound service s)
    (accountId : Uuid) (op : Operation) :
    ∃ turns, (s.run service (.ask accountId op :: turns)).world.unnoted =
      service.drain (op.perform service accountId s.world.unnoted).2 := by
  have hspares : service.noting.providers.Spares Noted.calls := service.providers.noting_spares
  obtain ⟨promised, -, haside⟩ := op.perform_leadsTo hspares accountId s.world
  have hpending := (Prod.mk.inj haside).1
  rw [h.pending, List.nil_append] at hpending
  rw [op.perform_simulates service accountId s.world]
  have hserve (turns : List (Turn σ)) : s.run service (.ask accountId op :: turns) =
      (s.serve service accountId op).run service turns := rfl
  simp only [hserve, Service.drain, World.unnoted, hpending]
  cases promised with
  | none => exact ⟨[], rfl⟩
  | some d =>
    have htask : (s.serve service accountId op).tasks[s.tasks.length]? =
        some ⟨s.asks.length, d, .ahead (d.notifiers service.providers.noting)⟩ := by
      simp [Shift.serve, hpending]
    obtain ⟨count, hcount⟩ := d.steps_run service.providers.noting service.settings.attemptTimeoutMs
      (s.serve service accountId op).world.outside
    refine ⟨.replicate count (.advance s.tasks.length), ?_⟩
    rw [run_replicate_advance service count htask, hcount]
    simp only [Shift.serve, Option.toList_some, List.foldl_cons, List.foldl_nil,
      Delivery.run_unnoted]

end Shift

end Concierge
