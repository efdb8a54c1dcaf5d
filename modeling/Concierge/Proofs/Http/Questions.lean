import Concierge.Proofs.Http.Conversation
import Concierge.Proofs.Json.Printed

/-!
# Questions and what they come to

A question asks for an answer of a certain form.  It may not be possible to put it, its turn may
bring no answer of that form, or it is answered; what it comes to is settled by its turn alone.
Questions that are asked one after the other end with the first one that is not answered: there is
no turn after it, and what the others told is lost.
-/

namespace Concierge.Http

open Json (Tree Reader)

/-! ## What an answer tells -/

/-- A succeeding answer whose body came to its end and is JSON from one end to the other. -/
structure Answer.Tells (a : Answer) (t : Tree) : Prop where
  succeeds : a.Succeeds
  complete : a.ending = .complete
  whole : ∃ rest, Json.parse a.body = (t, some rest) ∧ Json.skipGap rest = []

variable {α β : Type} {reader : Reader α} {a : Answer} {t : Tree} {x : α}

/-- What is read from an answer is read from what it tells. -/
theorem Answer.gives_iff : a.Gives reader x ↔ ∃ t, a.Tells t ∧ reader t = .ok x := by
  constructor
  · rintro ⟨hsucceeds, hcomplete, hread⟩
    unfold Json.readText at hread
    split at hread
    · split at hread <;> cases hread
    · next t rest hparse =>
      split at hread
      · cases hread
      · next y hy =>
        split at hread
        · next hrest =>
          obtain rfl := Except.ok.inj hread
          exact ⟨t, ⟨hsucceeds, hcomplete, rest, hparse, List.isEmpty_iff.1 hrest⟩, hy⟩
        · cases hread
  · rintro ⟨t, ⟨hsucceeds, hcomplete, rest, hparse, hrest⟩, hx⟩
    refine ⟨hsucceeds, hcomplete, ?_⟩
    simp only [Json.readText, hparse, hx, hrest, List.isEmpty_nil, if_true]

theorem Answer.Tells.unique {t' : Tree} (h : a.Tells t) (h' : a.Tells t') : t = t' := by
  obtain ⟨rest, hparse, -⟩ := h.whole
  obtain ⟨rest', hparse', -⟩ := h'.whole
  exact congrArg Prod.fst (hparse.symm.trans hparse')

/-- An answer with a printed value. -/
def telling (j : Json) : Answer := ⟨200, Utf8.encode j.compact, .complete⟩

theorem telling_gives {j : Json} (h : Json.integral j = true) (hread : reader (Json.tree j) = .ok x) :
    (telling j).Gives reader x :=
  ⟨⟨Nat.le_refl 200, (by decide : 200 < 300)⟩, rfl, (Json.readText_compact reader h).trans hread⟩

/-! ## One question -/

/-- What a reply is to whoever wants a value read from it. -/
def Reply.read (reader : Reader α) (r : Request) (reply : Reply) : Except Stop α :=
  (reply.outcome r).bind fun a => a.read reader

theorem Reply.read_eq_ok_iff {r : Request} {reply : Reply} :
    reply.read reader r = .ok x ↔ ∃ a, reply = .answer a ∧ a.Gives reader x := by
  unfold Reply.read
  cases hreply : reply.outcome r with
  | error stop =>
    refine ⟨fun h => (nomatch h), ?_⟩
    rintro ⟨a, rfl, hgives⟩
    rw [Reply.outcome_eq_ok_iff.2 ⟨rfl, hgives.succeeds⟩] at hreply
    cases hreply
  | ok a =>
    obtain ⟨rfl, hsucceeds⟩ := Reply.outcome_eq_ok_iff.1 hreply
    change a.read reader = .ok x ↔ _
    rw [Answer.read_eq_ok_iff]
    constructor
    · rintro ⟨hcomplete, hread⟩
      exact ⟨a, rfl, hsucceeds, hcomplete, hread⟩
    · rintro ⟨b, hb, -, hcomplete, hread⟩
      cases hb
      exact ⟨hcomplete, hread⟩

/-- An answer that is JSON, but not of the form that was wanted, could not be decoded. -/
theorem Answer.Tells.read_eq_error (h : a.Tells t) (hread : ∀ x, reader t ≠ .ok x) (r : Request) :
    (Reply.answer a).read reader r = .error (.failed unreadable) := by
  obtain ⟨rest, hparse, hrest⟩ := h.whole
  have hfails : ∃ e, Json.readText reader a.body = .error e := by
    cases hresult : reader t with
    | ok x => exact absurd hresult (hread x)
    | error e => exact ⟨e, by simp only [Json.readText, hparse, hresult]⟩
  obtain ⟨e, he⟩ := hfails
  rw [Reply.read, Reply.outcome_eq_ok_iff.2 ⟨rfl, h.succeeds⟩]
  change a.read reader = _
  simp only [Answer.read, h.complete, he]

/-- What a question comes to, and in which turns: it is told a tree of the form that was wanted, or it
fails. -/
inductive Asked (reader : Reader α) (d : Draft) : List Turn → Except Stop Tree → Prop where
  | told {r : Request} {a : Answer} {t : Tree} (build : d.build = .ok r) (tells : a.Tells t)
      (fits : ∃ x, reader t = .ok x) : Asked reader d [⟨r, .answer a⟩] (.ok t)
  | untold {r : Request} {reply : Reply} {stop : Stop} (build : d.build = .ok r)
      (fails : reply.read reader r = .error stop) : Asked reader d [⟨r, reply⟩] (.error stop)
  | unbuilt {e : ProviderError} (build : d.build = .error e) :
      Asked reader d [] (.error (.failed e))

/-- What is read after a request that can be made is read from its reply. -/
theorem sendFor_eq_read {d : Draft} {o : Outside Network} {r : Request} (h : d.build = .ok r) :
    sendFor reader d o =
      ((o.state.exchange r).1.read reader r, { o with state := (o.state.exchange r).2 }) := by
  have hsend := send_of_built (o := o) h
  rw [sendFor_eq, Reply.read]
  cases hreply : (o.state.exchange r).1.outcome r with
  | error stop =>
    rw [hreply] at hsend
    exact Fallible.bind_of_error hsend
  | ok a =>
    rw [hreply] at hsend
    rw [Fallible.bind_of_ok hsend]
    change (MonadExcept.ofExcept (a.read reader) : Attempt Network α) _ = (a.read reader, _)
    cases a.read reader <;> rfl

/-- What is outside after turns were taken, with the replies that are left. -/
def takenOf (o : Outside Network) (turns : List Turn) (later : List Reply) : Outside Network :=
  { o with state := { o.state with script := later, turns := o.state.turns ++ turns } }

theorem takenOf_nil {o : Outside Network} {later : List Reply} (script : o.state.script = later) :
    takenOf o [] later = o := by
  subst script
  simp [takenOf]

@[simp] theorem takenOf_takenOf (o : Outside Network) (first second : List Turn)
    (later last : List Reply) :
    takenOf (takenOf o first later) second last = takenOf o (first ++ second) last := by
  simp [takenOf]

/-- What a reply gives is read from it. -/
theorem sendFor_of_gives {d : Draft} {o : Outside Network} {r : Request} {later : List Reply}
    (h : d.build = .ok r) (carried : o.state.carries r.url = true)
    (script : o.state.script = .answer a :: later) (gives : a.Gives reader x) :
    sendFor reader d o = (.ok x, takenOf o [⟨r, .answer a⟩] later) := by
  rw [sendFor_eq_read h, Network.exchange_of_cons carried script,
    Reply.read_eq_ok_iff.2 ⟨a, rfl, gives⟩]
  rfl

/-- A question that is asked comes to something, and what is read is read from what was told. -/
theorem sendFor_asked (reader : Reader α) (d : Draft) (o : Outside Network) :
    ∃ turns, Conversation o.state turns (sendFor reader d o).2.state ∧
      ((∃ stop, Asked reader d turns (.error stop) ∧ (sendFor reader d o).1 = .error stop) ∨
        ∃ t x, Asked reader d turns (.ok t) ∧ reader t = .ok x ∧
          (sendFor reader d o).1 = .ok x) := by
  cases hbuild : d.build with
  | error e =>
    rw [sendFor_eq, Fallible.bind_of_error (send_of_unbuilt hbuild)]
    exact ⟨[], .nil _, .inl ⟨_, .unbuilt hbuild, rfl⟩⟩
  | ok r =>
    rw [sendFor_eq_read hbuild]
    refine ⟨_, .single _ _, ?_⟩
    cases hread : (o.state.exchange r).1.read reader r with
    | error stop => exact .inl ⟨stop, .untold hbuild hread, rfl⟩
    | ok x =>
      obtain ⟨a, ha, hgives⟩ := Reply.read_eq_ok_iff.1 hread
      obtain ⟨t, htells, hx⟩ := Answer.gives_iff.1 hgives
      exact .inr ⟨t, x, ha ▸ .told hbuild htells ⟨x, hx⟩, hx, rfl⟩

/-- What follows a question goes on with what was read, and if nothing was, the whole fails as the
question did. -/
theorem ask_cases (reader : Reader α) (d : Draft) (f : α → Attempt Network β) (o : Outside Network) :
    ∃ turns o', Conversation o.state turns o'.state ∧
      ((∃ stop, Asked reader d turns (.error stop) ∧
          (sendFor reader d >>= f) o = (.error stop, o')) ∨
        ∃ t x, Asked reader d turns (.ok t) ∧ reader t = .ok x ∧
          (sendFor reader d >>= f) o = f x o') := by
  obtain ⟨turns, hconversation, hasked⟩ := sendFor_asked reader d o
  refine ⟨turns, _, hconversation, ?_⟩
  obtain ⟨stop, hasked, hresult⟩ | ⟨t, x, hasked, hx, hresult⟩ := hasked
  · exact .inl ⟨stop, hasked, Fallible.bind_of_error (Prod.ext hresult rfl)⟩
  · exact .inr ⟨t, x, hasked, hx, Fallible.bind_of_ok (Prod.ext hresult rfl)⟩

namespace Asked

variable {d : Draft} {turns : List Turn} {result : Except Stop Tree}

/-- An answer that is JSON decides the question: it tells what was wanted, or it could not be
decoded. -/
theorem of_tells (h : Asked reader d turns result) {r : Request}
    (hturn : ⟨r, .answer a⟩ ∈ turns) (tells : a.Tells t) :
    (result = .ok t ∧ ∃ x, reader t = .ok x) ∨
      result = .error (.failed unreadable) ∧ ∀ x, reader t ≠ .ok x := by
  cases h with
  | told build tells' fits =>
    cases List.mem_singleton.1 hturn
    obtain rfl := tells.unique tells'
    exact .inl ⟨rfl, fits⟩
  | untold build fails =>
    cases List.mem_singleton.1 hturn
    have hunfit : ∀ x, reader t ≠ .ok x := fun x hx => by
      rw [Reply.read_eq_ok_iff.2 ⟨a, rfl, Answer.gives_iff.2 ⟨t, tells, hx⟩⟩] at fails
      cases fails
    rw [tells.read_eq_error hunfit] at fails
    exact .inr ⟨by rw [Except.error.inj fails], hunfit⟩
  | unbuilt build => cases hturn

/-- An answer that is JSON, but not of the form that was wanted, leaves the question undecoded. -/
theorem unreadable_of_tells (h : Asked reader d turns result) {r : Request}
    (hturn : ⟨r, .answer a⟩ ∈ turns) (tells : a.Tells t) (unfit : ∀ x, reader t ≠ .ok x) :
    result = .error (.failed unreadable) := by
  obtain ⟨-, x, hx⟩ | ⟨hresult, -⟩ := h.of_tells hturn tells
  · exact absurd hx (unfit x)
  · exact hresult

theorem length_le (h : Asked reader d turns result) : turns.length ≤ 1 := by
  cases h with
  | told build tells fits => exact Nat.le_refl 1
  | untold build fails => exact Nat.le_refl 1
  | unbuilt build => exact Nat.zero_le 1

/-- A question that was answered took one turn, in which it was told what it wanted. -/
theorem turns_of_told (h : Asked reader d turns (.ok t)) :
    ∃ r a, turns = [⟨r, .answer a⟩] ∧ a.Tells t ∧ ∃ x, reader t = .ok x := by
  cases h with
  | told build tells fits => exact ⟨_, _, rfl, tells, fits⟩

end Asked

/-! ## Questions in a row -/

/-- What questions come to that are asked in order, until one is not answered. -/
inductive Interview (reader : Reader α) :
    List Draft → List Turn → Except Stop (List Tree) → Prop where
  | done : Interview reader [] [] (.ok [])
  | next {d : Draft} {ds : List Draft} {turns later : List Turn} {t : Tree}
      {result : Except Stop (List Tree)} (asked : Asked reader d turns (.ok t))
      (rest : Interview reader ds later result) :
      Interview reader (d :: ds) (turns ++ later) (result.map (t :: ·))
  | broken {d : Draft} {ds : List Draft} {turns : List Turn} {stop : Stop}
      (asked : Asked reader d turns (.error stop)) :
      Interview reader (d :: ds) turns (.error stop)

namespace Interview

variable {ds : List Draft} {turns : List Turn} {result : Except Stop (List Tree)}

/-- An answer that is JSON, but not of the form that was wanted, leaves all of it undecoded. -/
theorem unreadable_of_tells (h : Interview reader ds turns result) {r : Request}
    (hturn : ⟨r, .answer a⟩ ∈ turns) (tells : a.Tells t) (unfit : ∀ x, reader t ≠ .ok x) :
    result = .error (.failed unreadable) := by
  induction h with
  | done => cases hturn
  | next asked rest ih =>
    obtain hfirst | hlater := List.mem_append.1 hturn
    · cases asked.unreadable_of_tells hfirst tells unfit
    · rw [ih hlater]
      rfl
  | broken asked => rw [Except.error.inj (asked.unreadable_of_tells hturn tells unfit)]

/-- If all questions were answered, each was told what it wanted. -/
theorem fits_of_ok {ts : List Tree} (h : Interview reader ds turns (.ok ts)) :
    ∀ t ∈ ts, ∃ x, reader t = .ok x := by
  generalize hresult : (.ok ts : Except Stop (List Tree)) = result at h
  induction h generalizing ts with
  | done =>
    cases hresult
    exact fun t ht => nomatch ht
  | @next d ds turns later t result asked rest ih =>
    obtain ⟨-, -, -, -, hfits⟩ := asked.turns_of_told
    cases result with
    | error stop => cases hresult
    | ok others =>
      obtain rfl := Except.ok.inj hresult
      exact List.forall_mem_cons.2 ⟨hfits, ih rfl⟩
  | broken asked => cases hresult

end Interview

end Concierge.Http
