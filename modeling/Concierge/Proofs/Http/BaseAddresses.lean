import Concierge.Http.Providers
import Concierge.Proofs.Http.Addresses
import Concierge.Proofs.Http.Conversation
import Concierge.Proofs.Url.Joining

/-!
# Accepted base addresses in use

The base address of every provider is read once, alone, before the service starts.  What is sent goes to
texts in which a path stands behind such a base, and these are read again for every request.  That the
first reading succeeds says little about the others: it accepts every scheme, it drops blanks at the end
of a base, and it lets queries and fragments pass.  Requests go to their paths below an accepted base
exactly if the base is one that paths can be joined with.  Where a path takes in a name from the settings,
the name has to be one that is read as it stands.
-/

namespace Concierge

open Http (Draft)
open Url (IsPlain Joinable Lands pathText)

variable {p : ProviderSettings} {base : String} {segs : List String} {d : Draft}

namespace ProviderSettings

/-- What is sent to the providers: below which base, to which path, and in which draft. -/
inductive Calls (p : ProviderSettings) : String → List String → Draft → Prop
  | listHipChat (token : String) :
    Calls p p.hipchat.baseUrl ["v2", "user"] (HipChat.Directory.listDraft p.hipchat.baseUrl token)
  | viewHipChat (token : String) (id : Nat) :
    Calls p p.hipchat.baseUrl ["v2", "user", toString id]
      (HipChat.Directory.userDraft p.hipchat.baseUrl token id)
  | writeHipChat (token : String) (account : Account) (door : Door) (person : Person)
      (plain : IsPlain person.email) :
    Calls p p.hipchat.baseUrl ["v2", "user", person.email, "message"]
      (HipChat.draft p.hipchat.baseUrl token account door person)
  | listSlack (token : String) :
    Calls p p.slack.baseUrl ["api", "users.list"] (Slack.Directory.draft p.slack.baseUrl token)
  | lookUpSlack (token email : String) :
    Calls p p.slack.baseUrl ["api", "users.lookupByEmail"]
      (Slack.lookupDraft p.slack.baseUrl token email)
  | writeSlack (token userId text : String) :
    Calls p p.slack.baseUrl ["api", "chat.postMessage"]
      (Slack.postDraft p.slack.baseUrl token userId text)
  | writeNexmo (apiKey apiSecret sender : String) (account : Account) (door : Door) (person : Person) :
    Calls p p.nexmo.baseUrl ["sms", "json"]
      (Nexmo.draft p.nexmo.baseUrl apiKey apiSecret sender account door person)
  | writeTwilio (accountSid authToken sender : String) (account : Account) (door : Door)
      (person : Person) (plain : IsPlain accountSid) :
    Calls p p.twilio.baseUrl ["2010-04-01", "Accounts", accountSid, "Messages.json"]
      (Twilio.draft p.twilio.baseUrl accountSid authToken sender account door person)
  | writeMailgun (domain apiKey : String) (email : Email) (plain : IsPlain domain) :
    Calls p p.mailgun.baseUrl ["v3", domain, "messages"]
      (Mailgun.draft p.mailgun.baseUrl domain apiKey email)
  | writePostmark (serverToken : String) (email : Email) :
    Calls p p.postmark.baseUrl ["email"] (Postmark.draft p.postmark.baseUrl serverToken email)
  | listGoogle (customer token : String) (page : Option String) :
    Calls p p.googleDirectory.baseUrl ["admin", "directory", "v1", "users"]
      (Google.draft p.googleDirectory.baseUrl customer token page)

namespace Calls

/-- The address of a draft is its path behind its base. -/
theorem address_eq (h : p.Calls base segs d) : d.address = Url.endpoint base (pathText segs) := by
  cases h <;>
    exact congrArg (Url.endpoint _) (String.toList_injective (by simp [Url.pathText_toList]))

/-- The base is one of those that are checked. -/
theorem mem_baseUrls (h : p.Calls base segs d) : base ∈ p.baseUrls.map Prod.snd := by
  cases h <;> simp [baseUrls]

theorem isPlain (h : p.Calls base segs d) : ∀ s ∈ segs, IsPlain s := by
  cases h <;> simp only [List.forall_mem_cons, List.not_mem_nil, false_implies, implies_true, and_true]
  case viewHipChat id => exact ⟨by decide, by decide, .of_nat id⟩
  case writeHipChat plain => exact ⟨by decide, by decide, plain, by decide⟩
  case writeTwilio plain => exact ⟨by decide, by decide, plain, by decide⟩
  case writeMailgun plain => exact ⟨by decide, plain, by decide⟩
  all_goals decide

theorem ne_nil (h : p.Calls base segs d) : segs ≠ [] := by
  cases h <;> exact List.cons_ne_nil _ _

end Calls

/-- Where every base is accepted, each can be read. -/
theorem ofText_of_accepted (accepted : p.invalidAddress? = none) (h : base ∈ p.baseUrls.map Prod.snd) :
    ∃ u, Url.ofText base = .ok u := by
  obtain ⟨⟨name, text⟩, hmem, rfl⟩ := List.mem_map.1 h
  have hread := List.findSome?_eq_none_iff.1 accepted _ hmem
  cases hu : Url.ofText text with
  | ok u => exact ⟨u, rfl⟩
  | error fault => simp [hu] at hread

end ProviderSettings

/-- Pairs in the query do not change where an address leads. -/
theorem Url.Lands.url {u v : Url} {path : String} (hlands : Lands u path v)
    (address : Url.ofText d.address = .ok v) : ∃ w, d.url = .ok w ∧ Lands u path w := by
  refine ⟨_, congrArg (Except.map _) address, ?_⟩
  split
  · exact hlands
  · exact ⟨hlands.web, hlands.scheme, hlands.server, hlands.path⟩

/-- A draft that leads somewhere and whose header fields can be sent becomes a request exactly if its
address can be named. -/
theorem Http.Draft.build_iff_of_lands {u w : Url} {path : String} (hurl : d.url = .ok w)
    (hlands : Lands u path w)
    (sendable : ∀ field ∈ d.ownHeaders, field.2.toList.all Http.isFieldChar = true) :
    (∃ r, d.build = .ok r ∧ r.url = w) ↔
      (u.server?.any fun (host, _) => Http.canNameHost host) = true ∧
        w.toText.utf8ByteSize ≤ Http.longestAddress := by
  have hnamed := Http.canName_iff (u := w)
  constructor
  · rintro ⟨r, hr, rfl⟩
    have hroom := hnamed.1 (Draft.build_eq_ok_iff.1 hr).2.2.1.2
    exact ⟨hlands.server ▸ hroom.host, hroom.length⟩
  · rintro ⟨hhost, hlength⟩
    have hname : Http.canName w = true := hnamed.2 ⟨hlands.server ▸ hhost, hlength⟩
    refine ⟨⟨d.method, w, d.allHeaders, d.body⟩, Draft.build_eq_ok_iff.2 ⟨hurl, sendable, ?_, rfl⟩, rfl⟩
    exact ⟨Http.mem_schemes_iff.2 hlands.web, hname⟩

namespace ProviderSettings

/-- Of providers whose base addresses were accepted, every path is found behind its base, on the server of
the base and below the path of the base, exactly if the base can be joined with paths: if it has one of
the schemes of the web, neither query nor fragment, no blanks at its end and, with a slash behind it, no
second one there.  The request is made then exactly if requests can name the host of the base and the
address, with the pairs that come behind it, is not too long for them. -/
theorem request_lands_iff (accepted : p.invalidAddress? = none) (call : p.Calls base segs d) :
    ∃ u, Url.ofText base = .ok u ∧
      ((∃ v, Url.ofText d.address = .ok v ∧ Lands u (pathText segs) v) ↔ Joinable base u) ∧
      (Joinable base u → (∀ field ∈ d.ownHeaders, field.2.toList.all Http.isFieldChar = true) →
        ∃ w, d.url = .ok w ∧ Lands u (pathText segs) w ∧
          ((∃ r, d.build = .ok r ∧ r.url = w) ↔
            (u.server?.any fun (host, _) => Http.canNameHost host) = true ∧
              w.toText.utf8ByteSize ≤ Http.longestAddress)) := by
  obtain ⟨u, hu⟩ := ofText_of_accepted accepted call.mem_baseUrls
  have hlands := Url.lands_iff hu call.isPlain call.ne_nil
  rw [← call.address_eq] at hlands
  refine ⟨u, hu, hlands, fun hj sendable => ?_⟩
  obtain ⟨v, hv, hleads⟩ := hlands.2 hj
  obtain ⟨w, hw, hreaches⟩ := hleads.url hv
  exact ⟨w, hw, hreaches, Http.Draft.build_iff_of_lands hw hreaches sendable⟩

/-- Slack at a base address, the other providers as they are. -/
def slackAt (base : String) : ProviderSettings := { standard with slack := ⟨base, none⟩ }

theorem standard_accepted : standard.invalidAddress? = none := by decide +kernel

theorem slackAt_accepted {u : Url} (h : Url.ofText base = .ok u) :
    (slackAt base).invalidAddress? = none := by
  have hbases : (slackAt base).baseUrls = standard.baseUrls.set 1 ("slack", base) := rfl
  have standards := standard_accepted
  rw [invalidAddress?, List.findSome?_eq_none_iff] at standards ⊢
  intro entry hentry
  rw [hbases] at hentry
  obtain hmem | rfl := List.mem_or_eq_of_mem_set hentry
  · exact standards entry hmem
  · simp only [h]

theorem request_lands_iff_sample :
    (slackAt "http://slack.mock/a/").invalidAddress? = none ∧
      ∃ u r, Url.ofText "http://slack.mock/a/" = .ok u ∧
        (Slack.Directory.draft "http://slack.mock/a/" "T").build = .ok r ∧
        Lands u "/api/users.list" r.url := by
  have hbase : Url.ofText "http://slack.mock/a/" =
      .ok ⟨"http", .hosted (.name "slack.mock") none ["a", ""], none, none⟩ := by decide +kernel
  have hslash : Url.ofText (Url.endpoint "http://slack.mock/a/" "") =
      .ok ⟨"http", .hosted (.name "slack.mock") none ["a", ""], none, none⟩ := by decide +kernel
  have accepted := slackAt_accepted hbase
  obtain ⟨u, hu, -, hmade⟩ := request_lands_iff accepted (.listSlack "T")
  obtain rfl := Except.ok.inj (hbase.symm.trans hu)
  have joinable : Joinable "http://slack.mock/a/"
      ⟨"http", .hosted (.name "slack.mock") none ["a", ""], none, none⟩ :=
    ⟨.inl rfl, rfl, rfl, by decide, fun v hv => by
      rw [← Except.ok.inj (hslash.symm.trans hv)]
      decide⟩
  have hdraft : (Slack.Directory.draft "http://slack.mock/a/" "T").url =
      .ok ⟨"http", .hosted (.name "slack.mock") none ["a", "api", "users.list"], none, none⟩ := by
    decide +kernel
  obtain ⟨w, hw, hleads, hbuilt⟩ := hmade joinable (by decide)
  obtain rfl := Except.ok.inj (hdraft.symm.trans hw)
  obtain ⟨r, hr, hurl⟩ := hbuilt.2 ⟨by decide, by decide +kernel⟩
  exact ⟨accepted, _, r, hbase, hr, hurl ▸ hleads⟩

/-- Bases are accepted with which no request gets to its path: a blank at the end of one becomes a part of
the path, to the scheme of another one nothing is sent, and no request can name the host of a third. -/
theorem accepted_bases_mislead :
    ((slackAt "http://slack.mock/a ").invalidAddress? = none ∧
      ∃ u v, Url.ofText "http://slack.mock/a " = .ok u ∧ u.path = ["a"] ∧
        Url.ofText (Slack.Directory.draft "http://slack.mock/a " "T").address = .ok v ∧
        v.path = ["a%20", "api", "users.list"] ∧ ¬ Lands u "/api/users.list" v) ∧
    ((slackAt "ftp://slack.mock").invalidAddress? = none ∧
      ∀ r, (Slack.Directory.draft "ftp://slack.mock" "T").build ≠ .ok r) ∧
    (slackAt "http://a\x7bb\x7d.mock").invalidAddress? = none ∧
      ∀ r, (Slack.Directory.draft "http://a\x7bb\x7d.mock" "T").build ≠ .ok r := by
  have hblank : Url.ofText "http://slack.mock/a " =
      .ok ⟨"http", .hosted (.name "slack.mock") none ["a"], none, none⟩ := by decide +kernel
  have hjoined : Url.ofText (Slack.Directory.draft "http://slack.mock/a " "T").address =
      .ok ⟨"http", .hosted (.name "slack.mock") none ["a%20", "api", "users.list"], none, none⟩ := by
    decide +kernel
  have hfiles : Url.ofText "ftp://slack.mock" =
      .ok ⟨"ftp", .hosted (.name "slack.mock") none [""], none, none⟩ := by decide +kernel
  have hother : (Slack.Directory.draft "ftp://slack.mock" "T").url =
      .ok ⟨"ftp", .hosted (.name "slack.mock") none ["api", "users.list"], none, none⟩ := by
    decide +kernel
  have hbraces : Url.ofText "http://a\x7bb\x7d.mock" =
      .ok ⟨"http", .hosted (.name "a\x7bb\x7d.mock") none [""], none, none⟩ := by decide +kernel
  have hunnamed : (Slack.Directory.draft "http://a\x7bb\x7d.mock" "T").url =
      .ok ⟨"http", .hosted (.name "a\x7bb\x7d.mock") none ["api", "users.list"], none, none⟩ := by
    decide +kernel
  refine ⟨⟨slackAt_accepted hblank, _, _, hblank, rfl, hjoined, rfl, fun hlands => ?_⟩,
    ⟨slackAt_accepted hfiles, fun r hr => ?_⟩, slackAt_accepted hbraces, fun r hr => ?_⟩
  · exact absurd hlands.path (by decide)
  · obtain ⟨hurl, -, ⟨hscheme, -⟩, -⟩ := Http.Draft.build_eq_ok_iff.1 hr
    rw [← Except.ok.inj (hother.symm.trans hurl)] at hscheme
    exact absurd hscheme (by decide)
  · obtain ⟨hurl, -, ⟨-, hnamed⟩, -⟩ := Http.Draft.build_eq_ok_iff.1 hr
    rw [← Except.ok.inj (hunnamed.symm.trans hurl)] at hnamed
    exact absurd hnamed (by decide +kernel)

end ProviderSettings

end Concierge
