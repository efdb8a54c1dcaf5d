import Concierge.Http.Network
import Concierge.Proofs.Fallible
import Mathlib.Data.List.Basic

/-!
# Conversations with a provider

What an attempt does on the network is kept there as its turns: the requests in order, each with what
came of it.  Most attempts take one turn, unless their request cannot be made, and succeed exactly if its
answer is one that counts; what counts, and as what, is the only difference between them.  An attempt
that goes on after an answer is put together from those: its second part is reached only with an answer
that counted.
-/

namespace Concierge.Http

/-! ## Turns -/

namespace Network

variable {n : Network} {r : Request} {reply : Reply} {later : List Reply}

/-- What is carried depends on the scheme alone. -/
theorem carries_congr {u v : Url} (h : u.scheme = v.scheme) : n.carries u = n.carries v := by
  rw [carries, carries, h]

theorem exchange_of_cons (carried : n.carries r.url = true) (h : n.script = reply :: later) :
    n.exchange r = (reply, { n with script := later, turns := n.turns ++ [⟨r, reply⟩] }) := by
  simp only [exchange, carried, next, h, if_true]

/-- A request that is carried is seen. -/
theorem seen_of_carried (carried : n.carries r.url = true) (reply : Reply) :
    n.seen? ⟨r, reply⟩ = some (.request r) := by
  have hup : n.up = true := (Bool.and_eq_true_iff.1 carried).1
  simp only [seen?, hup, carried, Bool.not_true, Bool.false_eq_true, if_false, if_true]

/-- Where all requests were carried, all are seen. -/
theorem sent_of_carried (h : ∀ t ∈ n.turns, n.carries t.request.url = true) :
    n.sent = n.turns.map fun t => .request t.request := by
  rw [sent, ← List.filterMap_eq_map]
  exact List.filterMap_congr fun t ht => seen_of_carried (h t ht) t.reply

theorem exchange_sent (carried : n.carries r.url = true) :
    (n.exchange r).2.sent = n.sent ++ [.request r] := by
  change (n.turns ++ [(⟨r, (n.exchange r).1⟩ : Turn)]).filterMap n.seen? = _
  rw [List.filterMap_append, List.filterMap_cons_some (seen_of_carried carried _), List.filterMap_nil]
  rfl

/-- A request that is seen is that of the turn. -/
theorem request_of_seen {t : Turn} (h : n.seen? t = some (.request r)) : t.request = r := by
  unfold seen? at h
  split at h
  · cases h
  · split at h
    · exact Contact.request.inj (Option.some.inj h)
    · cases h

end Network

/-- The turns that lead from one state of the network to another.  Each reply is the one that the network
gives to the request of its turn. -/
inductive Conversation : Network → List Turn → Network → Prop where
  | nil (n : Network) : Conversation n [] n
  | cons {n n' : Network} {r : Request} {later : List Turn}
      (rest : Conversation (n.exchange r).2 later n') :
      Conversation n (⟨r, (n.exchange r).1⟩ :: later) n'

namespace Conversation

variable {n n' n'' : Network} {turns later : List Turn}

/-- One turn. -/
theorem single (n : Network) (r : Request) :
    Conversation n [⟨r, (n.exchange r).1⟩] (n.exchange r).2 := .cons (.nil _)

/-- The network keeps the turns, so they are determined by where they lead. -/
theorem turns_eq (h : Conversation n turns n') : n'.turns = n.turns ++ turns := by
  induction h with
  | nil n => rw [List.append_nil]
  | cons rest ih =>
    rw [ih]
    exact List.append_assoc _ [_] _

/-- Turns do not change what is seen of others. -/
theorem seen_eq (h : Conversation n turns n') : n'.seen? = n.seen? := by
  induction h with
  | nil n => rfl
  | cons rest ih => exact ih

/-- What is seen of the turns is added to what was sent. -/
theorem sent (h : Conversation n turns n') : n'.sent = n.sent ++ turns.filterMap n.seen? := by
  rw [Network.sent, h.seen_eq, h.turns_eq, List.filterMap_append]
  rfl

theorem append (h : Conversation n turns n') (h' : Conversation n' later n'') :
    Conversation n (turns ++ later) n'' := by
  induction h with
  | nil n => exact h'
  | cons rest ih => exact .cons (ih h')

end Conversation

/-! ## Answers -/

/-- An answer whose status is one of the third hundred. -/
def Answer.Succeeds (a : Answer) : Prop := 200 ≤ a.status ∧ a.status < 300

theorem isSuccess_iff (a : Answer) : isSuccess a.status = true ↔ a.Succeeds := by
  simp [isSuccess, Answer.Succeeds]

/-- A succeeding answer whose body came to its end and is read as a value. -/
structure Answer.Gives {α : Type} (reader : Json.Reader α) (a : Answer) (x : α) : Prop where
  succeeds : a.Succeeds
  complete : a.ending = .complete
  read : Json.readText reader a.body = .ok x

theorem Answer.read_eq_ok_iff {α : Type} {reader : Json.Reader α} {a : Answer} {x : α} :
    a.read reader = .ok x ↔ a.ending = .complete ∧ Json.readText reader a.body = .ok x := by
  unfold Answer.read
  cases a.ending with
  | complete => cases Json.readText reader a.body <;> simp
  | cut => simp
  | stalled => simp

/-- An answer gives at most one value. -/
theorem Answer.Gives.unique {α : Type} {reader : Json.Reader α} {a : Answer} {x y : α}
    (hx : a.Gives reader x) (hy : a.Gives reader y) : x = y :=
  Except.ok.inj (hx.read.symm.trans hy.read)

/-! ## Requests -/

/-- When a draft becomes a request, and which. -/
theorem Draft.build_eq_ok_iff {d : Draft} {r : Request} :
    d.build = .ok r ↔ d.url = .ok r.url ∧
      (∀ field ∈ d.ownHeaders, field.2.toList.all isFieldChar = true) ∧
      (r.url.scheme ∈ schemes ∧ canName r.url = true) ∧
      r = ⟨d.method, r.url, d.allHeaders, d.body⟩ := by
  unfold build
  cases d.url with
  | error fault => simp
  | ok u =>
    simp only [List.any_eq_true, ite_eq_iff, reduceCtorEq, and_false, false_or, not_exists, not_and,
      Bool.not_eq_eq_eq_not, Bool.not_true, Bool.not_eq_false, Except.ok.injEq, Prod.forall, Prod.exists,
      Bool.and_eq_true, List.contains_iff_mem]
    constructor
    · rintro ⟨hfields, haddress, rfl⟩
      exact ⟨rfl, hfields, haddress, rfl⟩
    · rintro ⟨rfl, hfields, haddress, hr⟩
      exact ⟨hfields, haddress, hr.symm⟩

theorem Credentials.bearer_sendable_iff {token : String} :
    (Credentials.bearer token).value.toList.all isFieldChar = true ↔
      token.toList.all isFieldChar = true := by
  have hword : "Bearer ".toList.all isFieldChar = true := by decide
  rw [value, String.toList_append, List.all_append, hword, Bool.true_and]

theorem Draft.method_of_build {d : Draft} {r : Request} (h : d.build = .ok r) :
    r.method = d.method := by
  rw [(build_eq_ok_iff.1 h).2.2.2]

theorem Draft.body_of_build {d : Draft} {r : Request} (h : d.build = .ok r) : r.body = d.body := by
  rw [(build_eq_ok_iff.1 h).2.2.2]

/-! ## Sending -/

/-- What a reply is to whoever sent the request. -/
def Reply.outcome (r : Request) : Reply → Except Stop Answer
  | .answer a => if isSuccess a.status then .ok a else .error a.failure
  | .closed => .error (.failed (.request (sendingFailed r.url)))
  | .silence => .error (.stalled .timeout [])
  | .unconnected => .error (.failed (.connection (sendingFailed r.url)))
  | .astray connected report =>
    .error (.failed (if connected then .request report else .connection report))

theorem Reply.outcome_eq_ok_iff {r : Request} {reply : Reply} {a : Answer} :
    reply.outcome r = .ok a ↔ reply = .answer a ∧ a.Succeeds := by
  cases reply with
  | answer b =>
    by_cases hb : isSuccess b.status
    · have hsucceeds := (isSuccess_iff b).1 hb
      simp only [outcome, hb, if_true, Except.ok.injEq, Reply.answer.injEq]
      exact ⟨fun h => ⟨h, h ▸ hsucceeds⟩, fun h => h.1⟩
    · simp only [outcome, hb, if_false, reduceCtorEq, Reply.answer.injEq, false_iff, not_and]
      rintro rfl hsucceeds
      exact hb ((isSuccess_iff b).2 hsucceeds)
  | closed => simp [outcome]
  | silence => simp [outcome]
  | unconnected => simp [outcome]
  | astray connected report => simp [outcome]

variable {α β : Type} {d : Draft} {o : Outside Network} {r : Request}

theorem send_of_unbuilt {e : ProviderError} (h : d.build = .error e) :
    send d o = (.error (.failed e), o) := by
  unfold send
  rw [h]
  rfl

/-- A request that can be made is sent, and its reply decides. -/
theorem send_of_built (h : d.build = .ok r) :
    send d o = ((o.state.exchange r).1.outcome r, { o with state := (o.state.exchange r).2 }) := by
  unfold send
  simp only [h]
  rw [Fallible.bind_of_ok (a := get) rfl, Fallible.bind_of_ok (a := Attempt.onState _) rfl]
  cases (o.state.exchange r).1 with
  | answer a =>
    cases hstatus : isSuccess a.status with
    | true =>
      simp only [hstatus, Reply.outcome]
      rfl
    | false =>
      simp only [hstatus, Reply.outcome]
      rfl
  | closed => rfl
  | silence => rfl
  | unconnected => rfl
  | astray connected report => rfl

/-! ## One turn -/

variable {attempt : Attempt Network α} {counts : Answer → α → Prop} {turns : List Turn}

/-- A turn for the request of a draft, or none if there is no such request. -/
inductive Once (d : Draft) : List Turn → Prop where
  | unbuilt {e : ProviderError} (build : d.build = .error e) : Once d []
  | built {r : Request} (reply : Reply) (build : d.build = .ok r) : Once d [⟨r, reply⟩]

namespace Once

theorem length_le (h : Once d turns) : turns.length ≤ 1 := by
  cases h with
  | unbuilt build => exact Nat.zero_le 1
  | built reply build => exact Nat.le_refl 1

theorem not_second {first second : Turn} {later : List Turn} :
    ¬ Once d (first :: second :: later) := fun h => by
  have hlength := h.length_le
  simp at hlength

theorem nodup (h : Once d turns) : (turns.map Turn.request).Nodup := by
  cases h <;> simp

theorem build (h : Once d turns) : ∀ t ∈ turns, d.build = .ok t.request := by
  cases h with
  | unbuilt build => exact fun _ ht => nomatch ht
  | built reply build => exact fun t ht => List.mem_singleton.1 ht ▸ build

/-- A request that can be made is made. -/
theorem of_built (h : Once d turns) (hr : d.build = .ok r) : ∃ reply, turns = [⟨r, reply⟩] := by
  cases h with
  | unbuilt build => cases hr.symm.trans build
  | built reply build => exact ⟨reply, by rw [Except.ok.inj (hr.symm.trans build)]⟩

theorem of_unbuilt {e : ProviderError} (h : Once d turns) (he : d.build = .error e) : turns = [] := by
  cases h with
  | unbuilt build => rfl
  | built reply build => cases he.symm.trans build

end Once

/-- What becomes of an attempt that asks once, by the turn it took: it succeeds with a value exactly if
the answer counts for that value, and fails for the same reason as its draft if there is no request. -/
structure AskedOnce (d : Draft) (counts : Answer → α → Prop) (before : Network)
    (outcome : Except Stop α × Outside Network) (turns : List Turn) : Prop where
  conversation : Conversation before turns outcome.2.state
  once : Once d turns
  unbuilt : ∀ e, d.build = .error e → outcome.1 = .error (.failed e)
  counted : ∀ x, outcome.1 = .ok x ↔ ∃ r a, turns = [⟨r, .answer a⟩] ∧ counts a x

/-- An attempt asks once for the request of a draft. -/
def AsksOnce (d : Draft) (attempt : Attempt Network α) (counts : Answer → α → Prop) : Prop :=
  ∀ o, ∃ turns, AskedOnce d counts o.state (attempt o) turns

theorem send_asksOnce (d : Draft) : AsksOnce d (send d) fun a x => a.Succeeds ∧ x = a := by
  intro o
  cases hbuild : d.build with
  | error e =>
    rw [send_of_unbuilt hbuild]
    refine ⟨[], .nil _, .unbuilt hbuild, fun e' he' => ?_, by simp⟩
    rw [Except.error.inj (hbuild.symm.trans he')]
  | ok r =>
    rw [send_of_built hbuild]
    refine ⟨[_], .single _ _, .built _ hbuild, fun e he => (nomatch hbuild.symm.trans he),
      fun x => ?_⟩
    rw [Reply.outcome_eq_ok_iff]
    simp only [List.cons.injEq, Turn.mk.injEq, and_true]
    constructor
    · rintro ⟨hreply, hx⟩
      exact ⟨r, x, ⟨rfl, hreply⟩, hx, rfl⟩
    · rintro ⟨_, a, ⟨rfl, hreply⟩, ha, rfl⟩
      exact ⟨hreply, ha⟩

/-- A computation after an attempt that asks once starts where its turn ended, with the value that the
answer counted for; without such an answer the whole fails where the attempt did. -/
theorem AsksOnce.bind_cases (h : AsksOnce d attempt counts) (f : α → Attempt Network β)
    (o : Outside Network) :
    (∃ turns stop, Conversation o.state turns ((attempt >>= f) o).2.state ∧ Once d turns ∧
      ((attempt >>= f) o).1 = .error stop ∧ (∀ e, d.build = .error e → stop = .failed e) ∧
        ∀ r a x, turns = [⟨r, .answer a⟩] → ¬ counts a x) ∨
    ∃ r a x o', Conversation o.state [⟨r, .answer a⟩] o'.state ∧ d.build = .ok r ∧
      (∀ y, counts a y ↔ y = x) ∧ (attempt >>= f) o = f x o' := by
  obtain ⟨turns, hasked⟩ := h o
  cases hresult : attempt o with
  | mk result o' =>
    rw [hresult] at hasked
    cases result with
    | error stop =>
      rw [Fallible.bind_of_error hresult]
      refine .inl ⟨turns, stop, hasked.conversation, hasked.once, rfl,
        fun e he => Except.error.inj (hasked.unbuilt e he), fun r a x hturns hx => ?_⟩
      have hsuccess := (hasked.counted x).2 ⟨r, a, hturns, hx⟩
      contradiction
    | ok x =>
      obtain ⟨r, a, rfl, hx⟩ := (hasked.counted x).1 rfl
      have hbuild : d.build = .ok r := hasked.once.build _ List.mem_cons_self
      refine .inr ⟨r, a, x, o', hasked.conversation, hbuild,
        fun y => ⟨fun hy => ?_, fun hy => hy ▸ hx⟩, Fallible.bind_of_ok hresult⟩
      exact (Except.ok.inj ((hasked.counted y).2 ⟨r, a, rfl, hy⟩)).symm

/-- A computation that leaves the network alone and succeeds with certain values. -/
def Settles (f : Attempt Network β) (values : β → Prop) : Prop :=
  ∀ o, (f o).2.state = o.state ∧ ∀ y, (f o).1 = .ok y ↔ values y

theorem settles_pure (y : β) : Settles (pure y) (· = y) :=
  fun _ => ⟨rfl, fun _ => ⟨fun h => (Except.ok.inj h).symm, fun h => h ▸ rfl⟩⟩

theorem settles_throw (stop : Stop) : Settles (throw stop : Attempt Network β) fun _ => False :=
  fun _ => ⟨rfl, fun _ => ⟨fun h => (nomatch h), False.elim⟩⟩

theorem settles_fail (e : ProviderError) : Settles (Attempt.fail e : Attempt Network β) fun _ => False :=
  settles_throw _

/-- A result that is passed on, be it a value or a failure. -/
theorem settles_ofExcept (result : Except Stop β) :
    Settles (MonadExcept.ofExcept result : Attempt Network β) fun y => result = .ok y := by
  cases result with
  | ok y =>
    change Settles (pure y) _
    simpa only [Except.ok.injEq, eq_comm] using settles_pure y
  | error stop =>
    change Settles (throw stop) _
    simpa only [reduceCtorEq] using settles_throw stop

theorem settles_guard (p : Prop) [Decidable p] (e : ProviderError) :
    Settles (if p then pure () else Attempt.fail e : Attempt Network Unit) fun _ => p := by
  split
  · next hp => simpa [hp] using settles_pure ()
  · next hp => simpa [hp] using settles_fail e

/-- What follows without the network only narrows down which answers count. -/
theorem AsksOnce.bind (h : AsksOnce d attempt counts) {f : α → Attempt Network β}
    {values : α → β → Prop} (hf : ∀ x, Settles (f x) (values x)) :
    AsksOnce d (attempt >>= f) fun a y => ∃ x, counts a x ∧ values x y := by
  intro o
  obtain ⟨turns, stop, hconversation, honce, hfail, hunbuilt, hnone⟩ |
      ⟨r, a, x, o', hturn, hbuild, hx, heq⟩ := h.bind_cases f o
  · refine ⟨turns, hconversation, honce, fun e he => by rw [hfail, hunbuilt e he],
      fun y => ⟨fun hy => ?_, ?_⟩⟩
    · rw [hfail] at hy
      cases hy
    · rintro ⟨r, a, hturns, x, hx, -⟩
      exact absurd hx (hnone r a x hturns)
  · obtain ⟨hstate, hvalues⟩ := hf x o'
    refine ⟨_, by rwa [heq, hstate], .built _ hbuild, fun e he => (nomatch hbuild.symm.trans he),
      fun y => ?_⟩
    rw [heq, hvalues y]
    constructor
    · exact fun hy => ⟨r, a, rfl, x, (hx x).2 rfl, hy⟩
    · rintro ⟨r', a', hturns, x', hx', hy⟩
      cases hturns
      rwa [(hx x').1 hx'] at hy

/-- What is done about a failure, without the network and without success, changes nothing of that, as
long as a failure stays what it is. -/
theorem AsksOnce.tryCatch (h : AsksOnce d attempt counts) {handler : Stop → Attempt Network α}
    (hf : ∀ stop, Settles (handler stop) fun _ => False)
    (hfailed : ∀ e o, (handler (.failed e) o).1 = .error (.failed e)) :
    AsksOnce d (tryCatch attempt handler) counts := by
  intro o
  obtain ⟨turns, hasked⟩ := h o
  rw [Fallible.tryCatch_eq]
  cases hresult : attempt o with
  | mk result o' =>
    rw [hresult] at hasked
    cases result with
    | error stop =>
      obtain ⟨hstate, hnever⟩ := hf stop o'
      refine ⟨turns, ?_, hasked.once, fun e he => ?_, fun x => ?_⟩
      · rw [hstate]
        exact hasked.conversation
      · rw [Except.error.inj (hasked.unbuilt e he)]
        exact hfailed e o'
      · exact ((hnever x).trans (by simp)).trans (hasked.counted x)
    | ok x => exact ⟨turns, hasked⟩

theorem AsksOnce.congr (h : AsksOnce d attempt counts) {counts' : Answer → α → Prop}
    (hcounts : ∀ a x, counts a x ↔ counts' a x) : AsksOnce d attempt counts' := by
  obtain rfl : counts = counts' := funext₂ fun a x => propext (hcounts a x)
  exact h

/-- An attempt that looks at no more than the status of the answer. -/
theorem sent_asksOnce (d : Draft) :
    AsksOnce d (send d >>= fun _ => pure ()) fun a _ => a.Succeeds :=
  ((send_asksOnce d).bind fun _ => settles_pure ()).congr fun a _ => by simp

/-- A request that such an attempt adds to what is seen is the request of its draft. -/
theorem AsksOnce.build_of_sent (h : AsksOnce d attempt counts)
    (hsent : (attempt o).2.state.sent = o.state.sent ++ [.request r]) : d.build = .ok r := by
  obtain ⟨turns, hasked⟩ := h o
  rw [hasked.conversation.sent, List.append_cancel_left_eq] at hsent
  have hmem : Contact.request r ∈ turns.filterMap o.state.seen? := hsent ▸ List.mem_cons_self
  obtain ⟨t, ht, hseen⟩ := List.mem_filterMap.1 hmem
  rw [← Network.request_of_seen hseen]
  exact hasked.once.build t ht

theorem sendFor_eq (reader : Json.Reader α) (d : Draft) :
    sendFor reader d = send d >>= fun a => MonadExcept.ofExcept (a.read reader) := by
  refine congrArg (send d >>= ·) (funext fun a => ?_)
  cases a.read reader <;> rfl

/-- An attempt that reads the body of the answer. -/
theorem sendFor_asksOnce (reader : Json.Reader α) (d : Draft) :
    AsksOnce d (sendFor reader d) (Answer.Gives reader) := by
  rw [sendFor_eq]
  refine ((send_asksOnce d).bind fun a => settles_ofExcept (a.read reader)).congr fun a x => ?_
  constructor
  · rintro ⟨_, ⟨hsucceeds, rfl⟩, hread⟩
    obtain ⟨hcomplete, hvalue⟩ := Answer.read_eq_ok_iff.1 hread
    exact ⟨hsucceeds, hcomplete, hvalue⟩
  · rintro ⟨hsucceeds, hcomplete, hvalue⟩
    exact ⟨a, ⟨hsucceeds, rfl⟩, Answer.read_eq_ok_iff.2 ⟨hcomplete, hvalue⟩⟩

end Concierge.Http
