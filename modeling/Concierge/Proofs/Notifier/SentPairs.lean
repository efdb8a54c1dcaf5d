import Concierge.Proofs.Directory.Paging
import Concierge.Proofs.Notifier.Acceptance
import Concierge.Proofs.Url.Endpoint
import Concierge.Proofs.Url.Form

/-!
# The pairs that are sent are the pairs that are read

Telephone numbers, email addresses, templates, passwords, keys and names of pages come from outside and
hold any characters.  Whatever they hold, a provider that reads the form or the query of a request finds
exactly the intended pairs, in order: no value ends a pair, starts another one or changes its neighbour.
-/

namespace Concierge

open Http (Network Draft Turn Conversation)

namespace Http

/-- The body of a request is a form of these pairs. -/
def Request.Posts (r : Request) (pairs : List (String × String)) : Prop :=
  ("content-type", "application/x-www-form-urlencoded") ∈ r.headers ∧
    Form.decode r.body.text.toList = pairs

/-- The query of a request consists of these pairs. -/
def Request.Queries (r : Request) (pairs : List (String × String)) : Prop :=
  ∃ q, r.url.query = some q ∧ Form.decode q.toList = pairs

variable {d : Draft} {r : Request} {pairs : List (String × String)}

theorem posts_of_build (h : d.build = .ok r) (hbody : d.body = .form pairs) : r.Posts pairs := by
  have hr := (Draft.build_eq_ok_iff.1 h).2.2.2
  refine ⟨?_, ?_⟩
  · rw [hr]
    simp [Draft.allHeaders, hbody, Body.mediaType?]
  · rw [Draft.body_of_build h, hbody, Body.text, String.toList_ofList, Form.decode_encode]

theorem queries_of_build (h : d.build = .ok r) (hquery : d.query = pairs) (hpairs : pairs ≠ [])
    (haddress : '?' ∉ d.address.toList) : r.Queries pairs := by
  have hurl := (Draft.build_eq_ok_iff.1 h).1
  rw [Draft.url] at hurl
  cases hread : Url.ofText d.address with
  | error fault =>
    rw [hread] at hurl
    cases hurl
  | ok u =>
    have hnone := Url.query_eq_none_of_not_mem hread haddress
    rw [hread, hquery] at hurl
    rw [Request.Queries, ← Except.ok.inj hurl, List.isEmpty_eq_false_iff.2 hpairs]
    refine ⟨String.ofList (Form.encode pairs), by simp [Url.withPairs, hnone], ?_⟩
    rw [String.toList_ofList, Form.decode_encode]

/-- Whatever the network replies, the turns of an attempt start with the request of a draft, if there is
one, and have a property. -/
def Converses {α : Type} (d : Draft) (attempt : Attempt Network α) (property : List Turn → Prop) :
    Prop :=
  ∀ o, ∃ turns, Conversation o.state turns (attempt o).2.state ∧
    (∀ r, d.build = .ok r → ∃ reply later, turns = ⟨r, reply⟩ :: later) ∧ property turns

/-- What holds of the request of a draft holds of all requests of an attempt that asks for it once. -/
theorem AsksOnce.converses {α : Type} {attempt : Attempt Network α} {counts : Answer → α → Prop}
    (h : AsksOnce d attempt counts) {property : Request → Prop}
    (hbuild : ∀ r, d.build = .ok r → property r) :
    Converses d attempt fun turns => ∀ t ∈ turns, property t.request := fun o => by
  obtain ⟨turns, hconversation, honce, -⟩ := h o
  refine ⟨turns, hconversation, fun r hr => ?_, fun t ht => hbuild _ (honce.build t ht)⟩
  obtain ⟨reply, rfl⟩ := honce.of_built hr
  exact ⟨reply, [], rfl⟩

end Http

open Http (Converses)

/-! ## Emails -/

theorem Mailgun.mail_posts (baseUrl domain apiKey : String) (email : Email) :
    Converses (Mailgun.draft baseUrl domain apiKey email) (Mailgun.mail baseUrl domain apiKey email)
      fun turns => ∀ t ∈ turns, t.request.Posts [("from", email.sender), ("to", email.recipient),
        ("subject", email.subject), ("text", email.text)] :=
  (Mailgun.mail_asksOnce baseUrl domain apiKey email).converses fun _ h => Http.posts_of_build h rfl

/-! ## Slack and Google -/

theorem not_mem_endpoint {c : Char} {base path : String} (hbase : c ∉ base.toList)
    (hpath : c ∉ path.toList) (hc : c ≠ '/') : c ∉ (Url.endpoint base path).toList := by
  rw [Url.endpoint_toList, List.mem_append, List.mem_cons]
  rintro (hmem | hmem | hmem)
  · exact hbase ((List.rdropWhile_prefix _ _).mem hmem)
  · exact hc hmem
  · exact hpath ((List.dropWhile_sublist _).mem hmem)

/-- The first request of a knock through Slack asks for the person's email address. -/
theorem Slack.knock_queries {baseUrl : String} (hbase : '?' ∉ baseUrl.toList) (token : String)
    (account : Account) (door : Door) (person : Person) :
    Converses (Slack.lookupDraft baseUrl token person.email)
      ((Slack.notifier baseUrl token account).knock door person) fun turns =>
        ∀ first later, turns = first :: later → first.request.Queries [("email", person.email)] := by
  intro o
  obtain ⟨turns, hconducted⟩ := Slack.conducted baseUrl token account door person o
  refine ⟨turns, hconducted.conversation, fun r hr => (hconducted.made r hr).1, ?_⟩
  rintro first later rfl
  exact Http.queries_of_build hconducted.build_first rfl (by simp)
    (not_mem_endpoint hbase (by decide) (by decide))

namespace Google

variable {baseUrl customer token : String}

/-- The page that comes after turns: the first one, if there are none, and otherwise the one that the last
answer named. -/
def NamedBy (first : Option String) (before : List Turn) (page : Option String) : Prop :=
  (before = [] ∧ page = first) ∨
    ∃ earlier r a p name, before = earlier ++ [⟨r, .answer a⟩] ∧ a.Gives Page.reader p ∧
      p.Names name ∧ page = some name

/-- Each turn of a fetch asks for the page that the turn before it named. -/
theorem Paged.named {first : Option String} {turns : List Turn}
    (h : Paged baseUrl customer token first turns) :
    ∀ before t after, turns = before ++ t :: after → ∃ page, NamedBy first before page ∧
      (draft baseUrl customer token page).build = .ok t.request := by
  induction h with
  | nil first => exact fun before t after h => by simp at h
  | @last first t asked =>
    intro before t' after h
    obtain ⟨rfl, hfirst⟩ | ⟨before', rfl, hlater⟩ := List.cons_eq_append_iff.1 h
    · obtain ⟨rfl, -⟩ := List.cons.inj hfirst
      exact ⟨first, .inl ⟨rfl, rfl⟩, asked⟩
    · simp at hlater
  | @more first r a p next later asked gives names rest ih =>
    intro before t after h
    obtain ⟨rfl, hfirst⟩ | ⟨before', rfl, hlater⟩ := List.cons_eq_append_iff.1 h
    · obtain ⟨rfl, -⟩ := List.cons.inj hfirst
      exact ⟨first, .inl ⟨rfl, rfl⟩, asked⟩
    · obtain ⟨page, hnamed, hbuild⟩ := ih before' t after hlater
      refine ⟨page, .inr ?_, hbuild⟩
      obtain ⟨rfl, rfl⟩ | ⟨earlier, r', a', p', name, rfl, hgives, hname⟩ := hnamed
      · exact ⟨[], r, a, p, next, rfl, gives, names, rfl⟩
      · exact ⟨_ :: earlier, r', a', p', name, rfl, hgives, hname⟩

/-- Each request of a fetch asks for its page, and the query consists of nothing else. -/
theorem users_queries (hbase : '?' ∉ baseUrl.toList) (customer token : String) :
    Converses (draft baseUrl customer token none) (users baseUrl customer token) fun turns =>
      ∀ before t after, turns = before ++ t :: after →
        ∃ page, NamedBy none before page ∧ t.request.Queries (pairs customer page) := by
  intro o
  obtain ⟨turns, hconversation, hpaged, hmade⟩ := users_paged baseUrl customer token o
  refine ⟨turns, hconversation, hmade, fun before t after h => ?_⟩
  obtain ⟨page, hnamed, hbuild⟩ := hpaged.named before t after h
  exact ⟨page, hnamed, Http.queries_of_build hbuild (draft_query page) (by simp [pairs])
    (not_mem_endpoint hbase (by decide) (by decide))⟩

end Google

/-! ## All forms and queries -/

/-- Whatever the account, the door, the person, the password, the configuration and the names of pages
hold, what a provider reads from a form or a query are exactly the intended pairs, in order. -/
theorem sent_pairs_are_read_back (account : Account) (door : Door) (person : Person)
    (password : String) :
    let message := KnockMessage.compose account door person
    (∀ baseUrl apiKey apiSecret sender,
      Converses (Nexmo.draft baseUrl apiKey apiSecret sender account door person)
        ((Nexmo.notifier baseUrl apiKey apiSecret sender account).knock door person)
        fun turns => ∀ t ∈ turns, t.request.Posts [("api_key", apiKey), ("api_secret", apiSecret),
          ("from", sender), ("to", person.phoneNumber), ("text", message.sms)]) ∧
    (∀ baseUrl accountSid authToken sender,
      Converses (Twilio.draft baseUrl accountSid authToken sender account door person)
        ((Twilio.notifier baseUrl accountSid authToken sender account).knock door person)
        fun turns => ∀ t ∈ turns, t.request.Posts [("From", sender), ("To", person.phoneNumber),
          ("Body", message.sms)]) ∧
    (∀ baseUrl domain apiKey sender,
      Converses (Mailgun.draft baseUrl domain apiKey (.knock sender account door person))
          ((Mailgun.notifier baseUrl domain apiKey sender account).knock door person)
          (fun turns => ∀ t ∈ turns, t.request.Posts [("from", sender), ("to", person.email),
            ("subject", message.subject), ("text", message.text)]) ∧
        Converses (Mailgun.draft baseUrl domain apiKey (.welcome sender account person password))
          ((Mailgun.notifier baseUrl domain apiKey sender account).welcome person password)
          (fun turns => ∀ t ∈ turns, t.request.Posts [("from", sender), ("to", person.email),
            ("subject", Welcome.subject), ("text", Welcome.text account person password)])) ∧
    (∀ baseUrl token, '?' ∉ baseUrl.toList →
      Converses (Slack.lookupDraft baseUrl token person.email)
        ((Slack.notifier baseUrl token account).knock door person) fun turns =>
          ∀ first later, turns = first :: later →
            first.request.Queries [("email", person.email)]) ∧
    ∀ baseUrl customer token, '?' ∉ baseUrl.toList →
      Converses (Google.draft baseUrl customer token none) (Google.users baseUrl customer token)
        fun turns => ∀ before t after, turns = before ++ t :: after →
          ∃ page, Google.NamedBy none before page ∧
            t.request.Queries (Google.pairs customer page) := by
  refine ⟨fun baseUrl apiKey apiSecret sender => ?_, fun baseUrl accountSid authToken sender => ?_,
    fun baseUrl domain apiKey sender => ⟨?_, ?_⟩, fun baseUrl token hbase => ?_,
    fun baseUrl customer token hbase => ?_⟩
  · exact (Nexmo.knock_asksOnce baseUrl apiKey apiSecret sender account door person).converses
      fun _ h => Http.posts_of_build h rfl
  · exact (Twilio.knock_asksOnce baseUrl accountSid authToken sender account door person).converses
      fun _ h => Http.posts_of_build h rfl
  · exact Mailgun.mail_posts baseUrl domain apiKey (.knock sender account door person)
  · exact Mailgun.mail_posts baseUrl domain apiKey (.welcome sender account person password)
  · exact Slack.knock_queries hbase token account door person
  · exact Google.users_queries hbase customer token

/-- An email address that looks like two pairs is looked up as one. -/
theorem sent_pairs_are_read_back_sample :
    let eve : Person := { sampleVisited with email := "ann@example.test&email=eve@example.test" }
    '?' ∉ "https://slack.test".toList ∧
      ∃ first later, Conversation sampleSlack.state (first :: later)
          ((Slack.notifier "https://slack.test" "t" default).knock sampleDoor eve
            sampleSlack).2.state ∧
        first.request.Queries [("email", "ann@example.test&email=eve@example.test")] := by
  intro eve
  have hbase : '?' ∉ "https://slack.test".toList := by decide
  have hbuilt : (Slack.lookupDraft "https://slack.test" "t" eve.email).build.isOk = true := by
    decide +kernel
  obtain ⟨-, -, -, hslack, -⟩ := sent_pairs_are_read_back default sampleDoor eve ""
  obtain ⟨turns, hconversation, hmade, hqueries⟩ := hslack "https://slack.test" "t" hbase sampleSlack
  cases hbuild : (Slack.lookupDraft "https://slack.test" "t" eve.email).build with
  | error e =>
    rw [hbuild] at hbuilt
    cases hbuilt
  | ok r =>
    obtain ⟨reply, later, rfl⟩ := hmade r hbuild
    exact ⟨hbase, _, later, hconversation, hqueries _ later rfl⟩

end Concierge
