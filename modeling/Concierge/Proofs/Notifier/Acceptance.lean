import Concierge.Http.Providers
import Concierge.Proofs.Http.Conversation

/-!
# A message counts as sent exactly if its provider took it

Providers say in different ways that they took a message: by the status of the answer alone, by a code
in its body, or part by part; Slack has to be asked for the user first.  For every notifier that the
service can make, a message is followed through all turns of its conversation, whatever the network
replies: its first request is made unless it cannot be, it is reported as sent exactly if the provider
took it by those turns, nothing is asked twice, and Slack gets a message only for a user whom it named.
-/

namespace Concierge

open Http (Network Draft Turn Conversation AsksOnce AskedOnce Once Settles Answer)

/-! ## Taking a message -/

/-- The answer says which user has an email address. -/
def Slack.Names (a : Answer) (id : String) : Prop :=
  ∃ lookup, a.Gives Slack.Lookup.reader lookup ∧ lookup.ok = true ∧ lookup.userId = some id

/-- The answer to a message says that the provider took it. -/
def Channel.Takes (a : Answer) : Channel → Prop
  | .hipchat | .twilio | .mailgun => a.Succeeds
  | .slack => ∃ posted, a.Gives Slack.Posted.reader posted ∧ posted.ok = true
  | .nexmo => ∃ parts, a.Gives Nexmo.reader parts ∧ parts ≠ [] ∧ ∀ p ∈ parts, p.status = "0"
  | .postmark => ∃ receipt, a.Gives Postmark.Receipt.reader receipt ∧ receipt.errorCode = 0

/-- The provider took a message by the turns of a conversation. -/
def Channel.Accepted (turns : List Turn) : Channel → Prop
  | .slack => ∃ r a r' a' id, turns = [⟨r, .answer a⟩, ⟨r', .answer a'⟩] ∧
      Slack.Names a id ∧ Channel.slack.Takes a'
  | c => ∃ r a, turns = [⟨r, .answer a⟩] ∧ c.Takes a

/-- How a text is sent: the request that is made first, and the one that is made for a user whom the
answer to the first one names.  Only Slack is asked for a user. -/
structure Sending where
  text : String
  first : Draft
  second? : String → Option Draft := fun _ => none

/-- What becomes of an attempt to send a text over a channel, turn by turn. -/
structure Conducted (c : Channel) (s : Sending) (attempt : Attempt Network Unit)
    (o : Outside Network) (turns : List Turn) : Prop where
  conversation : Conversation o.state turns (attempt o).2.state
  /-- Success is reported exactly if the provider took the message. -/
  truthful : (attempt o).1 = .ok () ↔ c.Accepted turns
  /-- If the first request can be made, it is, and it goes out wherever the network carries it. -/
  made : ∀ r, s.first.build = .ok r → (∃ reply later, turns = ⟨r, reply⟩ :: later) ∧
    (o.state.carries r.url = true →
      ∃ later, (attempt o).2.state.sent = o.state.sent ++ .request r :: later)
  /-- Otherwise there is no turn, and the failure is the reason why. -/
  unmade : ∀ e, s.first.build = .error e → turns = [] ∧ (attempt o).1 = .error (.failed e)
  brief : turns.length ≤ if c = .slack then 2 else 1
  /-- No request is repeated. -/
  distinct : (turns.map Turn.request).Nodup
  /-- What comes second is the text, for the user whom the first answer named. -/
  addressed : ∀ first second later, turns = first :: second :: later →
    ∃ a id d, first.reply = .answer a ∧ Slack.Names a id ∧ s.second? id = some d ∧
      d.build = .ok second.request ∧
      second.request.body = .json (.object [("channel", .string id), ("text", .string s.text)])
  /-- It does come once a user is named, if that request can be made. -/
  followed : ∀ first later a id d r, turns = first :: later → first.reply = .answer a →
    Slack.Names a id → s.second? id = some d → d.build = .ok r →
      ∃ reply, turns = [first, ⟨r, reply⟩]

variable {c : Channel} {s : Sending} {d : Draft} {attempt : Attempt Network Unit} {account : Account}

/-- The first request of a conversation goes out wherever the network carries it. -/
theorem sent_of_made {n n' : Network} {r : Http.Request} {reply : Http.Reply} {later : List Turn}
    (h : Conversation n (⟨r, reply⟩ :: later) n') (carried : n.carries r.url = true) :
    ∃ more, n'.sent = n.sent ++ .request r :: more := by
  refine ⟨later.filterMap n.seen?, ?_⟩
  rw [h.sent, List.filterMap_cons_some (Network.seen_of_carried carried reply)]

/-- The request of the first turn is the one that was to be made first. -/
theorem Conducted.build_first {o : Outside Network} {first : Turn} {later : List Turn}
    (h : Conducted c s attempt o (first :: later)) : s.first.build = .ok first.request := by
  cases hbuild : s.first.build with
  | error e => cases (h.unmade e hbuild).1
  | ok r =>
    obtain ⟨⟨reply, more, hturns⟩, -⟩ := h.made r hbuild
    rw [(List.cons.inj hturns).1]

theorem HipChat.knock_asksOnce (baseUrl token : String) (account : Account) (door : Door)
    (person : Person) :
    AsksOnce (HipChat.draft baseUrl token account door person)
      ((HipChat.notifier baseUrl token account).knock door person)
      fun a _ => Channel.hipchat.Takes a := Http.sent_asksOnce _

theorem Mailgun.mail_asksOnce (baseUrl domain apiKey : String) (email : Email) :
    AsksOnce (Mailgun.draft baseUrl domain apiKey email) (Mailgun.mail baseUrl domain apiKey email)
      fun a _ => Channel.mailgun.Takes a := Http.sent_asksOnce _

theorem Postmark.mail_asksOnce (baseUrl serverToken : String) (email : Email) :
    AsksOnce (Postmark.draft baseUrl serverToken email) (Postmark.mail baseUrl serverToken email)
      fun a _ => Channel.postmark.Takes a :=
  (Http.sendFor_asksOnce _ _).bind fun _ => Http.settles_guard _ _

theorem Twilio.knock_asksOnce (baseUrl accountSid authToken sender : String) (account : Account)
    (door : Door) (person : Person) :
    AsksOnce (Twilio.draft baseUrl accountSid authToken sender account door person)
      ((Twilio.notifier baseUrl accountSid authToken sender account).knock door person)
      fun a _ => Channel.twilio.Takes a := by
  refine (Http.sent_asksOnce _).tryCatch (fun stop o => ?_) fun e o => rfl
  -- A refusal is logged, now or when nobody waits any longer, and stays one.
  cases stop with
  | failed e => exact ⟨rfl, fun _ => ⟨fun h => (nomatch h), False.elim⟩⟩
  | stalled e last afterMs => exact ⟨rfl, fun _ => ⟨fun h => (nomatch h), False.elim⟩⟩

/-- All parts of a message have to be accepted, and there has to be one. -/
theorem Nexmo.verdict_eq_none_iff (parts : List Nexmo.Part) :
    Nexmo.verdict parts = none ↔ parts ≠ [] ∧ ∀ p ∈ parts, p.status = "0" := by
  unfold Nexmo.verdict
  cases parts with
  | nil => simp
  | cons first others => simp [Nexmo.Part.isAccepted]

theorem Nexmo.knock_asksOnce (baseUrl apiKey apiSecret sender : String) (account : Account)
    (door : Door) (person : Person) :
    AsksOnce (Nexmo.draft baseUrl apiKey apiSecret sender account door person)
      ((Nexmo.notifier baseUrl apiKey apiSecret sender account).knock door person)
      fun a _ => Channel.nexmo.Takes a := by
  refine (Http.sendFor_asksOnce _ _).bind fun parts => ?_
  rw [← Nexmo.verdict_eq_none_iff]
  cases Nexmo.verdict parts with
  | none => simpa using Http.settles_pure ()
  | some e => simpa using Http.settles_fail e

/-! ## Slack -/

theorem Slack.userId_asksOnce (baseUrl token email : String) :
    AsksOnce (Slack.lookupDraft baseUrl token email) (Slack.userId baseUrl token email)
      Slack.Names := by
  refine (Http.sendFor_asksOnce _ _).bind fun lookup => ?_
  cases lookup.ok with
  | false => simpa using Http.settles_fail _
  | true =>
    cases lookup.userId with
    | none => simpa using Http.settles_fail _
    | some id => simpa [eq_comm] using Http.settles_pure id

/-- The message to a user, once the user is known. -/
def Slack.post (baseUrl token id text : String) : Attempt Network Unit := do
  let answer ← Http.sendFor Slack.Posted.reader (Slack.postDraft baseUrl token id text)
  if answer.ok then return () else Attempt.fail (Slack.rejection answer.error)

theorem Slack.post_asksOnce (baseUrl token id text : String) :
    AsksOnce (Slack.postDraft baseUrl token id text) (Slack.post baseUrl token id text)
      fun a _ => Channel.slack.Takes a :=
  (Http.sendFor_asksOnce _ _).bind fun _ => Http.settles_guard _ _

theorem Slack.knock_eq (baseUrl token : String) (account : Account) (door : Door) (person : Person) :
    (Slack.notifier baseUrl token account).knock door person =
      (Slack.userId baseUrl token person.email >>= fun id =>
        Slack.post baseUrl token id (KnockMessage.compose account door person).text) := rfl

/-- How a text is sent to the user who has an email address. -/
def Slack.sending (baseUrl token email text : String) : Sending where
  text
  first := Slack.lookupDraft baseUrl token email
  second? id := some (Slack.postDraft baseUrl token id text)

/-- A message through Slack is as it should be: the user is looked up, and the text follows only if Slack
named one. -/
theorem Slack.conducted (baseUrl token : String) (account : Account) (door : Door) (person : Person)
    (o : Outside Network) :
    ∃ turns, Conducted .slack
      (Slack.sending baseUrl token person.email (KnockMessage.compose account door person).text)
      ((Slack.notifier baseUrl token account).knock door person) o turns := by
  rw [Slack.knock_eq]
  generalize (KnockMessage.compose account door person).text = text
  obtain ⟨turns, stop, hconversation, honce, hfail, hunbuilt, hnone⟩ |
      ⟨r, a, id, o', hlookup, hbuild, hnames, heq⟩ :=
    (Slack.userId_asksOnce baseUrl token person.email).bind_cases
      (fun id => Slack.post baseUrl token id text) o
  · have hlength := honce.length_le
    refine ⟨turns, hconversation, ?_, fun r hr => ?_, fun e he => ?_, by simp; omega, honce.nodup,
      ?_, ?_⟩
    · rw [hfail]
      refine ⟨fun h => (nomatch h), ?_⟩
      rintro ⟨_, _, _, _, _, rfl, -⟩
      exact absurd honce Once.not_second
    · obtain ⟨reply, rfl⟩ := honce.of_built hr
      exact ⟨⟨reply, [], rfl⟩, sent_of_made hconversation⟩
    · exact ⟨honce.of_unbuilt he, by rw [hfail, hunbuilt e he]⟩
    · rintro first second later rfl
      exact absurd honce Once.not_second
    · rintro ⟨r, _⟩ later a id d r' rfl rfl hid
      cases later with
      | nil => exact absurd hid (hnone r a id rfl)
      | cons second rest => exact absurd honce Once.not_second
  · obtain ⟨turns, hposted⟩ := Slack.post_asksOnce baseUrl token id text o'
    have hid : Slack.Names a id := (hnames id).2 rfl
    have hlength := hposted.once.length_le
    have hconversation : Conversation o.state (⟨r, .answer a⟩ :: turns) _ :=
      hlookup.append (heq ▸ hposted.conversation)
    refine ⟨_, hconversation, ?_, fun r' hr' => ?_, fun e he => (nomatch hbuild.symm.trans he),
      by simp; omega, ?_, ?_, ?_⟩
    · rw [heq, hposted.counted ()]
      constructor
      · rintro ⟨r', a', rfl, htaken⟩
        exact ⟨r, a, r', a', id, rfl, hid, htaken⟩
      · rintro ⟨_, _, r', a', _, hturns, -, htaken⟩
        exact ⟨r', a', (List.cons.inj hturns).2, htaken⟩
    · obtain rfl := Except.ok.inj (hbuild.symm.trans hr')
      exact ⟨⟨_, _, rfl⟩, sent_of_made hconversation⟩
    · refine List.nodup_cons.2 ⟨fun hmem => ?_, hposted.once.nodup⟩
      obtain ⟨t, ht, hsame⟩ := List.mem_map.1 hmem
      -- A question is no message.
      have hget : r.method = .get := Http.Draft.method_of_build hbuild
      have hpost : t.request.method = .post := Http.Draft.method_of_build (hposted.once.build t ht)
      have hmethods : Http.Method.post = .get := by rw [← hpost, hsame]; exact hget
      cases hmethods
    · rintro first second later hturns
      obtain ⟨rfl, rfl⟩ := List.cons.inj hturns
      have hsecond := hposted.once.build second List.mem_cons_self
      exact ⟨a, id, _, rfl, hid, rfl, hsecond, Http.Draft.body_of_build hsecond⟩
    · rintro first later a' id' d r' hturns ha' hid' hd hr'
      obtain ⟨rfl, rfl⟩ := List.cons.inj hturns
      cases ha'
      cases hd
      obtain rfl := (hnames id').1 hid'
      obtain ⟨reply, rfl⟩ := hposted.once.of_built hr'
      exact ⟨reply, rfl⟩

/-! ## Every notifier -/

/-- The notifiers for a channel of an account, with any address, credentials and sender, and how each
sends a knock and the message for a new account, if it does. -/
inductive Notifier.Serves (account : Account) : Channel → Notifier Network →
    (Door → Person → Sending) → (Person → String → Option Sending) → Prop where
  | hipchat (baseUrl token : String) :
      Serves account .hipchat (HipChat.notifier baseUrl token account)
        (fun door person => ⟨(KnockMessage.compose account door person).text,
          HipChat.draft baseUrl token account door person, fun _ => none⟩)
        fun _ _ => none
  | slack (baseUrl token : String) :
      Serves account .slack (Slack.notifier baseUrl token account)
        (fun door person => Slack.sending baseUrl token person.email
          (KnockMessage.compose account door person).text)
        fun _ _ => none
  | nexmo (baseUrl apiKey apiSecret sender : String) :
      Serves account .nexmo (Nexmo.notifier baseUrl apiKey apiSecret sender account)
        (fun door person => ⟨(KnockMessage.compose account door person).sms,
          Nexmo.draft baseUrl apiKey apiSecret sender account door person, fun _ => none⟩)
        fun _ _ => none
  | twilio (baseUrl accountSid authToken sender : String) :
      Serves account .twilio (Twilio.notifier baseUrl accountSid authToken sender account)
        (fun door person => ⟨(KnockMessage.compose account door person).sms,
          Twilio.draft baseUrl accountSid authToken sender account door person, fun _ => none⟩)
        fun _ _ => none
  | mailgun (baseUrl domain apiKey sender : String) :
      Serves account .mailgun (Mailgun.notifier baseUrl domain apiKey sender account)
        (fun door person => ⟨(KnockMessage.compose account door person).text,
          Mailgun.draft baseUrl domain apiKey (.knock sender account door person), fun _ => none⟩)
        fun person password => some ⟨Welcome.text account person password,
          Mailgun.draft baseUrl domain apiKey (.welcome sender account person password),
          fun _ => none⟩
  | postmark (baseUrl serverToken sender : String) :
      Serves account .postmark (Postmark.notifier baseUrl serverToken sender account)
        (fun door person => ⟨(KnockMessage.compose account door person).text,
          Postmark.draft baseUrl serverToken (.knock sender account door person), fun _ => none⟩)
        fun person password => some ⟨Welcome.text account person password,
          Postmark.draft baseUrl serverToken (.welcome sender account person password),
          fun _ => none⟩

/-- The service makes no others. -/
theorem ProviderSettings.notifier?_serves {p : ProviderSettings} {c : Channel} {account : Account}
    {n : Notifier Network} (h : p.notifier? c account = some n) :
    ∃ knock welcome, n.Serves account c knock welcome := by
  unfold notifier? at h
  cases c <;> simp only [Option.bind_eq_bind, Option.bind_eq_some_iff, Option.pure_def,
    Option.some.injEq] at h
  · obtain ⟨token, -, rfl⟩ := h
    exact ⟨_, _, .hipchat _ _⟩
  · obtain ⟨token, -, rfl⟩ := h
    exact ⟨_, _, .slack _ _⟩
  · obtain ⟨secret, -, key, -, rfl⟩ := h
    exact ⟨_, _, .nexmo _ _ _ _⟩
  · obtain ⟨token, -, sid, -, sender, -, rfl⟩ := h
    exact ⟨_, _, .twilio _ _ _ _⟩
  · obtain ⟨key, -, domain, -, rfl⟩ := h
    exact ⟨_, _, .mailgun _ _ _ _⟩
  · obtain ⟨token, -, rfl⟩ := h
    exact ⟨_, _, .postmark _ _ _⟩

/-- A person who is looked up by email address. -/
def sampleVisited : Person :=
  ⟨.ofNat 11, .ofNat 1, "Ann", "", "ann@example.test", "", true, true, .all⟩

/-- The door that somebody is at. -/
def sampleDoor : Door := ⟨.ofNat 31, .ofNat 1, "Front"⟩

/-- A network on which Slack names a user and takes a message. -/
def sampleSlack : Outside Network :=
  ⟨.scripted [
    .answer ⟨200, Utf8.encode "\x7b\"ok\":true,\"user\":\x7b\"id\":\"U1\"\x7d\x7d", .complete⟩,
    .answer ⟨200, Utf8.encode "\x7b\"ok\":true\x7d", .complete⟩], []⟩

end Concierge
