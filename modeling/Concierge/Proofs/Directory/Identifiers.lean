import Concierge.Proofs.Directory.AllOrNothing
import Concierge.Proofs.Directory.Paging
import Concierge.Proofs.Sync.Origins

/-!
# Users as link keys

Links are made for the external ids of users, so a directory must not give users who have none.  The
hub and HipChat number their users and Google's readers ask, so a fetch from these gives identified
users only, and an entry that has no identifier leaves the whole answer undecoded.  Slack's reader
asks for a text and takes whatever it is: the external ids are those of the listing, blank ones
among them.

Followed into a synchronization, a link with a blank external id is one that was there before or one to
Slack.
-/

namespace Concierge

open Http (Network Turn Conversation Asked Interview)
open Json (Tree Reader)

/-! ## Identifiers -/

/-- A number in digits is no blank text. -/
theorem isBlank_toString (n : Nat) : Text.isBlank (toString n) = false := by
  obtain ⟨c, others, hdigits⟩ := List.exists_cons_of_ne_nil (Nat.toDigits_ne_nil (n := n) (b := 10))
  have hdigit : c.isDigit = true :=
    Nat.isDigit_of_mem_toDigits (n := n) (b := 10) (by decide) (by decide)
      (hdigits ▸ List.mem_cons_self)
  have hspace : Text.isSpace c = false := by
    simp only [Char.isDigit, Bool.and_eq_true, decide_eq_true_eq, ge_iff_le,
      UInt32.le_iff_toNat_le] at hdigit
    have hlow : 48 ≤ c.toNat := hdigit.1
    have hhigh : c.toNat ≤ 57 := hdigit.2
    simp only [Text.isSpace, Bool.or_eq_false_iff, Bool.and_eq_false_iff, decide_eq_false_iff_not,
      beq_eq_false_iff_ne]
    omega
  rw [Text.isBlank, Nat.toString_eq_repr, Nat.toList_repr, hdigits, List.all_cons, hspace,
    Bool.false_and]

theorem Json.Tree.Numbered.identifies {names : List String} {place : Nat} {t : Tree}
    (h : t.Numbered names place) : Text.isBlank (t.decimalAt names place) = false := by
  obtain ⟨n, hfield, -⟩ := h
  rw [Json.decimalAt_eq hfield]
  exact isBlank_toString n

/-- Every user has an external id. -/
def Identified (users : List RemoteUser) : Prop :=
  ∀ user ∈ users, Text.isBlank user.externalId = false

theorem identified_map {α : Type} {toUser : α → RemoteUser} {entries : List α}
    (h : ∀ e ∈ entries, Text.isBlank (toUser e).externalId = false) :
    Identified (entries.map toUser) := by
  intro user huser
  obtain ⟨e, he, rfl⟩ := List.mem_map.1 huser
  exact h e he

/-- What was told to the question at a place has an entry without an identifier such as the
directory has: a number of 64 bits, or else a text, which Google does not leave blank. -/
def Lacks : Bridge → Nat → Tree → Prop
  | .hub, _, t => ∃ e ∈ t.elements, ¬ e.Numbered ["ID", "id"] 0
  | .googleDirectory, _, t =>
    ∃ e ∈ Google.listed t, ∀ id, e.textAt? ["id"] 0 = some id → Text.isBlank id = true
  | .hipchat, 0, t => ∃ e ∈ t.elementsAt ["items"] 0, ¬ e.Numbered ["id"] 0
  | .hipchat, _ + 1, t => ¬ t.Numbered ["id"] 0
  | .slack, _, t => ∃ e ∈ Slack.Directory.listed t, e.textAt? ["id"] 0 = none

/-- What a fetch comes to, as far as identifiers go. -/
structure Vetted (bridge : Bridge) (turns : List Turn) (found : Except Stop (List RemoteUser)) :
    Prop where
  /-- Without an identifier for every entry there are no users. -/
  undecoded : ∀ place r a t, turns[place]? = some ⟨r, .answer a⟩ → a.Tells t →
    Lacks bridge place t → ∃ text, found = .error (.failed (.decode text))
  identified : bridge ≠ .slack → ∀ users, found = .ok users → Identified users
  /-- Slack's users have what external ids their entries say. -/
  verbatim : bridge = .slack → ∀ users, found = .ok users →
    ∃ r a t, turns = [⟨r, .answer a⟩] ∧ a.Tells t ∧
      users.map (some ·.externalId) =
        ((Slack.Directory.listed t).filter (! Slack.Directory.isGone ·)).map (·.textAt? ["id"] 0)

namespace Vetted

variable {bridge : Bridge} {turns : List Turn}

/-- Nobody was asked. -/
theorem of_unsent (bridge : Bridge) (stop : Stop) : Vetted bridge [] (.error stop) where
  undecoded _ _ _ _ hturn := nomatch hturn
  identified _ _ hfound := nomatch hfound
  verbatim _ _ hfound := nomatch hfound

/-- Nobody was found. -/
theorem of_failed {stop : Stop}
    (h : ∀ place r a t, turns[place]? = some ⟨r, .answer a⟩ → a.Tells t →
      Lacks bridge place t → ∃ text, stop = .failed (.decode text)) :
    Vetted bridge turns (.error stop) where
  undecoded place r a t hturn htells hlacks := by
    obtain ⟨text, rfl⟩ := h place r a t hturn htells hlacks
    exact ⟨text, rfl⟩
  identified _ _ hfound := nomatch hfound
  verbatim _ _ hfound := nomatch hfound

/-- A question that is put before all others and fails, of whose answers none can be read that lacks an
identifier. -/
theorem of_asked {α : Type} {reader : Reader α} {d : Http.Draft} {stop : Stop}
    (h : Asked reader d turns (.error stop))
    (unfit : ∀ t, Lacks bridge 0 t → ∀ x, reader t ≠ .ok x) : Vetted bridge turns (.error stop) := by
  refine of_failed fun place r a t hturn htells hlacks => ?_
  obtain rfl : place = 0 := by
    have hplace := (List.getElem?_eq_some_iff.1 hturn).1
    have hlength := h.length_le
    omega
  have hunread := h.unreadable_of_tells (List.mem_of_getElem? hturn) htells (unfit t hlacks)
  exact ⟨_, Except.error.inj hunread⟩

end Vetted

/-! ## What each directory gives -/

theorem Hub.unfit_of_lacks {t : Tree} (h : Lacks .hub 0 t) (entries : List Entry) :
    Reader.list Entry.reader t ≠ .ok entries := by
  obtain ⟨e, he, hlacks⟩ := h
  exact fun hread => hlacks ((Hub.of_read hread).2 e he)

theorem Hub.Course.vetted {url token : String} {turns : List Turn}
    {found : Except Stop (List RemoteUser)} (h : Hub.Course url token turns found) :
    Vetted .hub turns found := by
  cases h with
  | unanswered asked => exact .of_asked asked fun _ => Hub.unfit_of_lacks
  | @given t asked =>
    obtain ⟨-, -, -, -, entries, hread⟩ := asked.turns_of_told
    have hnumbered : ∀ e ∈ t.elements, e.Numbered ["ID", "id"] 0 := (Hub.of_read hread).2
    refine ⟨fun place r a t' hturn htells hlacks => ?_, fun _ users husers => ?_, fun h => nomatch h⟩
    · cases asked.unreadable_of_tells (List.mem_of_getElem? hturn) htells (Hub.unfit_of_lacks hlacks)
    · cases husers
      exact identified_map fun e he => (hnumbered e he).identifies

namespace Slack.Directory

theorem unfit_of_lacks {t : Tree} (h : Lacks .slack 0 t) (listing : Listing) :
    Listing.reader t ≠ .ok listing := by
  obtain ⟨e, he, hlacks⟩ := h
  intro hread
  obtain ⟨id, hid⟩ := (Listing.of_read hread).2.2.2 e he
  cases hlacks.symm.trans hid

theorem Course.vetted {baseUrl token : String} {turns : List Turn}
    {found : Except Stop (List RemoteUser)} (h : Course baseUrl token turns found) :
    Vetted .slack turns found := by
  cases h with
  | unanswered asked => exact .of_asked asked fun _ => unfit_of_lacks
  | rejected asked unwell =>
    refine .of_failed fun place r a t' hturn htells hlacks => ?_
    cases asked.unreadable_of_tells (List.mem_of_getElem? hturn) htells (unfit_of_lacks hlacks)
  | @given t asked well =>
    obtain ⟨r, a, hturns, htells, listing, hread⟩ := asked.turns_of_told
    refine ⟨fun place r a t' hturn htells hlacks => ?_, fun h => absurd rfl h, fun _ users husers => ?_⟩
    · cases asked.unreadable_of_tells (List.mem_of_getElem? hturn) htells (unfit_of_lacks hlacks)
    · cases husers
      refine ⟨r, a, t, hturns, htells, ?_⟩
      rw [List.map_map]
      refine List.map_congr_left fun e he => ?_
      obtain ⟨id, hid⟩ := (Listing.of_read hread).2.2.2 e (List.mem_of_mem_filter he)
      simp only [Function.comp_apply, described, hid, Option.getD_some]

end Slack.Directory

namespace HipChat.Directory

theorem list_unfit_of_lacks {t : Tree} (h : Lacks .hipchat 0 t) (ids : List Nat) :
    listReader t ≠ .ok ids := by
  obtain ⟨e, he, hlacks⟩ := h
  exact fun hread => hlacks ((listed_of_read hread).2 e he)

theorem view_unfit_of_lacks {t : Tree} {place : Nat} (h : Lacks .hipchat (place + 1) t) (d : Details) :
    Details.reader t ≠ .ok d :=
  fun hread => h (Details.of_read hread).2

theorem Course.vetted {baseUrl token : String} {turns : List Turn}
    {found : Except Stop (List RemoteUser)} (h : Course baseUrl token turns found) :
    Vetted .hipchat turns found := by
  cases h with
  | unlisted asked => exact .of_asked asked fun _ => list_unfit_of_lacks
  | @listed first later t views asked viewed =>
    obtain ⟨r, a, rfl, -, -⟩ := asked.turns_of_told
    refine ⟨fun place r' a' t' hturn htells hlacks => ?_, fun _ users husers => ?_, fun h => nomatch h⟩
    · cases place with
      | zero =>
        have hturn := List.mem_singleton.2 (Option.some.inj hturn).symm
        cases asked.unreadable_of_tells hturn htells (list_unfit_of_lacks hlacks)
      | succ place =>
        have hlater : (⟨r', .answer a'⟩ : Turn) ∈ later := List.mem_of_getElem? hturn
        rw [viewed.unreadable_of_tells hlater htells (view_unfit_of_lacks hlacks)]
        exact ⟨_, rfl⟩
    · cases views with
      | error stop => cases husers
      | ok ts =>
        obtain rfl := Except.ok.inj husers
        refine identified_map fun e he => ?_
        obtain ⟨d, hread⟩ := viewed.fits_of_ok e he
        exact (Details.of_read hread).2.identifies

end HipChat.Directory

namespace Google

/-- A page all of whose users have identifiers lacks none. -/
theorem not_lacks_of_filled {t : Tree} {p : Page} {place : Nat} (h : Page.reader t = .ok p)
    (filled : p.Filled) : ¬ Lacks .googleDirectory place t := by
  rintro ⟨e, he, hlacks⟩
  have hpairs := (List.forall₂_and_left p.entries (listed t)).2 ⟨filled, (Page.of_read h).flip⟩
  have hsaid : ∀ e ∈ listed t, ∃ id, Text.isBlank id = false ∧ e.textAt? ["id"] 0 = some id :=
    forall_of_forall₂ hpairs.flip fun _ entry hentry => ⟨entry.id, hentry⟩
  obtain ⟨id, hfilled, hid⟩ := hsaid e he
  cases (hlacks id hid).symm.trans hfilled

theorem identified_users {p : Page} (h : p.Filled) : Identified p.users :=
  identified_map h

theorem vetted_nil : Vetted .googleDirectory [] (.ok []) where
  undecoded _ _ _ _ hturn := nomatch hturn
  identified _ _ husers := Except.ok.inj husers ▸ fun _ huser => nomatch huser
  verbatim hslack := nomatch hslack

/-- What comes after a page that lacks no identifier is found besides its users. -/
theorem vetted_cons {r : Http.Request} {a : Http.Answer} {t : Tree} {p : Page} {later : List Turn}
    {found : Except Stop (List RemoteUser)} (tells : a.Tells t) (read : Page.reader t = .ok p)
    (filled : p.Filled) (h : Vetted .googleDirectory later found) :
    Vetted .googleDirectory (⟨r, .answer a⟩ :: later) (found.map (p.users ++ ·)) where
  undecoded place r' a' t' hturn htells hlacks := by
    cases place with
    | zero =>
      cases hturn
      obtain rfl := tells.unique htells
      exact absurd hlacks (not_lacks_of_filled read filled)
    | succ place =>
      obtain ⟨text, htext⟩ := h.undecoded place r' a' t' hturn htells hlacks
      exact ⟨text, by rw [htext]; rfl⟩
  identified hslack users husers := by
    cases found with
    | error stop => cases husers
    | ok more =>
      obtain rfl := Except.ok.inj husers
      have hmore := h.identified hslack more rfl
      intro user huser
      obtain hfirst | hlater := List.mem_append.1 huser
      · exact identified_users filled user hfirst
      · exact hmore user hlater
  verbatim hslack := nomatch hslack

theorem pages_vetted (baseUrl customer token : String) (fuel : Nat) (page : Option String)
    (o : Outside Network) :
    ∃ turns, Conversation o.state turns (pages baseUrl customer token fuel page o).2.state ∧
      Vetted .googleDirectory turns (pages baseUrl customer token fuel page o).1 := by
  induction fuel generalizing page o with
  | zero => exact ⟨[], .nil _, .of_unsent _ _⟩
  | succ fuel ih =>
    rw [pages_succ]
    obtain ⟨turns, o', hconversation, ⟨stop, hasked, heq⟩ | ⟨t, p, hasked, hread, heq⟩⟩ :=
      Http.ask_cases Page.reader (draft baseUrl customer token page)
        (afterPage baseUrl customer token fuel) o
    · rw [heq]
      refine ⟨turns, hconversation, .of_failed fun place r a t hturn htells hlacks => ?_⟩
      -- A page that could be read would not have failed.
      obtain ⟨hresult, -⟩ | ⟨hresult, -⟩ := hasked.of_tells (List.mem_of_getElem? hturn) htells
      · cases hresult
      · exact ⟨_, Except.error.inj hresult⟩
    · rw [heq]
      obtain ⟨r, a, rfl, htells, -⟩ := hasked.turns_of_told
      by_cases hfilled : p.Filled
      · cases hnext : p.next? with
        | none =>
          rw [afterPage_of_last hfilled (Page.next?_eq_none_iff.1 hnext)]
          have hlast : Vetted .googleDirectory [⟨r, .answer a⟩] (.ok (p.users ++ [])) :=
            vetted_cons htells hread hfilled vetted_nil
          rw [List.append_nil] at hlast
          exact ⟨_, hconversation, hlast⟩
        | some next =>
          obtain ⟨later, hlater, hvetted⟩ := ih (some next) o'
          rw [afterPage_of_names hfilled (Page.next?_eq_some_iff.1 hnext), Fallible.bind_pure_eq]
          exact ⟨_, hconversation.append hlater, vetted_cons htells hread hfilled hvetted⟩
      · rw [afterPage_of_not_filled hfilled]
        exact ⟨_, hconversation, .of_failed fun _ _ _ _ _ _ _ => ⟨_, rfl⟩⟩

theorem users_vetted (baseUrl customer token : String) (o : Outside Network) :
    ∃ turns, Conversation o.state turns (users baseUrl customer token o).2.state ∧
      Vetted .googleDirectory turns (users baseUrl customer token o).1 := by
  obtain ⟨turns, hconversation, hvetted⟩ := pages_vetted baseUrl customer token
    (o.state.script.length + 1) none o
  refine ⟨turns, ?_⟩
  rw [users_eq]
  cases hresult : pages baseUrl customer token (o.state.script.length + 1) none o with
  | mk result o' =>
    rw [hresult] at hconversation hvetted
    cases result with
    | error stop => exact ⟨hconversation, hvetted⟩
    | ok users => exact ⟨hconversation, hvetted⟩

end Google

/-! ## All directories -/

theorem ProviderSettings.users_vetted (p : ProviderSettings) (account : Account) (bridge : Bridge)
    (o : Outside Network) :
    ∃ turns, Conversation o.state turns (p.users account bridge o).2.state ∧
      Vetted bridge turns (p.users account bridge o).1 := by
  have h := p.users_asks account bridge
  generalize p.users account bridge = fetch at h ⊢
  cases h with
  | refused bridge e => exact ⟨[], .nil _, .of_unsent _ _⟩
  | hub url token =>
    obtain ⟨turns, hconversation, hcourse⟩ := Hub.users_course url token o
    exact ⟨turns, hconversation, hcourse.vetted⟩
  | googleDirectory token => exact Google.users_vetted _ _ token o
  | hipchat token =>
    obtain ⟨turns, hconversation, hcourse⟩ := HipChat.Directory.users_course p.hipchat.baseUrl token o
    exact ⟨turns, hconversation, hcourse.vetted⟩
  | slack token =>
    obtain ⟨turns, hconversation, hcourse⟩ := Slack.Directory.users_course p.slack.baseUrl token o
    exact ⟨turns, hconversation, hcourse.vetted⟩

/-- Whatever the network replies, users are tagged with the directory that they were asked of, and
unless it is Slack they have external ids; an entry without an identifier leaves the fetch
undecoded.  Slack's users have the ids that their entries say.  So a synchronization makes no link
with a blank external id but to Slack. -/
theorem users_identified_unless_slack (p : ProviderSettings) (account : Account) (o : Outside Network)
    (w : World Network) :
    (∀ bridge,
      (∀ users, (p.users account bridge o).1 = .ok users → ∀ user ∈ users, user.bridge = bridge) ∧
      ∃ turns, Conversation o.state turns (p.users account bridge o).2.state ∧
        Vetted bridge turns (p.users account bridge o).1) ∧
    ∀ key bridges, ∀ row ∈ (Sync.run key bridges p.providers account w).2.store.links,
      row ∈ w.store.links ∨ Text.isBlank row.externalId = false ∨ row.bridgeId = Bridge.slack.id := by
  refine ⟨fun bridge => ⟨fun users husers user huser => ?_, p.users_vetted account bridge o⟩,
    fun key bridges row hrow => ?_⟩
  · exact (p.users_yields account bridge o users _ (Prod.ext husers rfl) user huser).1
  · obtain hold | ⟨user, huser, htag, hid⟩ := Sync.run_links key bridges p.providers account w row hrow
    · exact .inl hold
    · obtain ⟨before, bridge, after, users, -, husers, hmem⟩ := Sync.exists_fetch_of_mem huser
      obtain ⟨_, -, hvetted⟩ := p.users_vetted account bridge
        (Sync.fetchAll p.providers account before w).2.outside
      have hbridge : user.bridge = bridge :=
        (p.users_yields account bridge _ users _ (Prod.ext husers rfl) user hmem).1
      by_cases hslack : bridge = .slack
      · exact .inr (.inr (by rw [htag, hbridge, hslack]))
      · exact .inr (.inl (hid ▸ hvetted.identified hslack users husers user hmem))

/-! ## Slack leaves identifiers blank -/

/-- An account whose people are taken from Slack. -/
def samplePlaza : Account :=
  { (default : Account) with bridges := { (default : BridgeSettings) with slack := .withToken "t" } }

/-- An installation that asks Slack. -/
def samplePlazaSettings : ProviderSettings :=
  { (default : ProviderSettings) with slack := ⟨"http://slack.test", none⟩ }

/-- A network on which Slack lists two members, neither of whom has an identifier. -/
def sampleNameless : Outside Network where
  state := .scripted [.answer ⟨200, Utf8.encode
    ("\x7b\"ok\":true,\"members\":[\x7b\"id\":\"\",\"real_name\":\"Ann\"\x7d," ++
      "\x7b\"id\":\"\",\"real_name\":\"Bob\"\x7d]\x7d"), .complete⟩]
  log := []

/-- A world with this network and no people. -/
def samplePlazaWorld : World Network :=
  ⟨.new (some { Tables.empty with accounts := [samplePlaza] }) .ofNat, sampleNameless, []⟩

/-- Two members of Slack without identifiers are given as users, and a synchronization makes one person
of both. -/
theorem blank_slack_users_are_one_person :
    (samplePlazaSettings.users samplePlaza .slack sampleNameless).1 =
        .ok [⟨.slack, "", "Ann", "", "", ""⟩, ⟨.slack, "", "Bob", "", "", ""⟩] ∧
      let synced := Sync.run .bridgeAndExternalId [.slack] samplePlazaSettings.providers samplePlaza
        samplePlazaWorld
      synced.1 = .ok ⟨1, 1, []⟩ ∧ synced.2.store.links.map (fun row => (row.bridgeId, row.externalId)) =
        [(Bridge.slack.id, "")] ∧
        (synced.2.store.tables.map fun t => t.people.map (·.name)) = some ["Bob"] := by
  decide +kernel

end Concierge
