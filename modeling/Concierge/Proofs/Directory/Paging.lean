import Concierge.Directory.Google
import Concierge.Proofs.Http.Addresses
import Concierge.Proofs.Http.Questions
import Mathlib.Data.List.Forall2

/-!
# Paging loses and repeats nothing

Google's directory comes page by page, each page but the last naming the next.  A fetch is followed here
through a chain of replies of any length: by induction on the chain, the users so far are those of the
pages so far, and the request that comes next names exactly the page that the last one named.  A reply
that is no page, a page with a user who has no identifier, or a name with which no request can be made
ends the fetch where it stands and with nothing.
-/

namespace Concierge.Google

open Http (Network Reply Turn Conversation Request takenOf telling)

/-! ## Pages -/

/-- The reply is a page. -/
def Shows (reply : Reply) (p : Page) : Prop := ∃ a, reply = .answer a ∧ a.Gives Page.reader p

/-- Every user of a page has an identifier. -/
def Page.Filled (p : Page) : Prop := ∀ e ∈ p.entries, Text.isBlank e.id = false

/-- The reply is a page all of whose users have identifiers. -/
structure Good (reply : Reply) (p : Page) : Prop where
  shown : Shows reply p
  filled : p.Filled

theorem Shows.unique {reply : Reply} {p q : Page} (hp : Shows reply p) (hq : Shows reply q) :
    p = q := by
  obtain ⟨a, rfl, hgives⟩ := hp
  obtain ⟨b, hb, hgives'⟩ := hq
  cases hb
  exact hgives.unique hgives'

theorem Good.rightUnique : Relator.RightUnique Good := fun _ _ _ hp hq => hp.shown.unique hq.shown

theorem exists_of_mem {α β : Type} {R : α → β → Prop} {xs : List α} {ys : List β} {x : α}
    (h : List.Forall₂ R xs ys) (hx : x ∈ xs) : ∃ y, R x y :=
  have hboth : List.Forall₂ (fun x y => (∃ y, R x y) ∧ R x y) xs ys := h.imp fun _ y hy => ⟨⟨y, hy⟩, hy⟩
  ((List.forall₂_and_left xs ys).1 hboth).1 x hx

/-- The page names the one after it. -/
def Page.Names (p : Page) (token : String) : Prop := p.next = some token ∧ token ≠ ""

theorem Page.next?_eq_some_iff {p : Page} {token : String} : p.next? = some token ↔ p.Names token := by
  unfold next? Names
  cases p.next with
  | none => simp
  | some t =>
    by_cases ht : t.isEmpty = true
    · simp only [ht, if_true, reduceCtorEq, Option.some.injEq, false_iff, not_and, not_not]
      rintro rfl
      exact String.isEmpty_iff.1 ht
    · simp only [ht, if_false, Option.some.injEq, Bool.false_eq_true]
      exact ⟨fun h => ⟨h, fun hempty => ht (String.isEmpty_iff.2 (h.trans hempty))⟩, fun h => h.1⟩

theorem Page.next?_eq_none_iff {p : Page} : p.next? = none ↔ ∀ token, ¬ p.Names token := by
  simp only [Option.eq_none_iff_forall_ne_some, ne_eq, next?_eq_some_iff]

/-- The users of a page. -/
def Page.users (p : Page) : List RemoteUser := p.entries.map Entry.toUser

theorem Page.users?_eq_some_iff {p : Page} {users : List RemoteUser} :
    p.users? = some users ↔ p.Filled ∧ users = p.users := by
  obtain ⟨entries, next⟩ := p
  change entries.mapM _ = _ ↔ (∀ e ∈ entries, Text.isBlank e.id = false) ∧
    users = entries.map Entry.toUser
  induction entries generalizing users with
  | nil => exact ⟨fun h => ⟨fun _ he => (nomatch he), (Option.some.inj h).symm⟩, fun h => h.2 ▸ rfl⟩
  | cons e others ih =>
    rw [List.mapM_cons, List.forall_mem_cons]
    cases hblank : Text.isBlank e.id with
    | true => exact ⟨fun h => (nomatch h), fun h => nomatch h.1.1⟩
    | false =>
      constructor
      · intro h
        obtain ⟨_, hfirst, hrest⟩ := Option.bind_eq_some_iff.1 h
        obtain ⟨more, hmore, hall⟩ := Option.bind_eq_some_iff.1 hrest
        obtain rfl := Option.some.inj hfirst
        obtain ⟨hfilled, rfl⟩ := ih.1 hmore
        exact ⟨⟨rfl, hfilled⟩, (Option.some.inj hall).symm⟩
      · rintro ⟨⟨-, hfilled⟩, rfl⟩
        have hmore := ih.2 ⟨hfilled, rfl⟩
        exact Option.bind_eq_some_iff.2 ⟨e.toUser, rfl, Option.bind_eq_some_iff.2 ⟨_, hmore, rfl⟩⟩

/-! ## What a fetch asks for -/

variable {baseUrl customer token : String}

/-- The turns of a fetch, from the page that is asked for first: each turn but the last gave a page that
names the one which is asked for next. -/
inductive Paged (baseUrl customer token : String) : Option String → List Turn → Prop where
  | nil (page : Option String) : Paged baseUrl customer token page []
  | last {page : Option String} {t : Turn}
      (asked : (draft baseUrl customer token page).build = .ok t.request) :
      Paged baseUrl customer token page [t]
  | more {page : Option String} {r : Request} {a : Http.Answer} {p : Page} {next : String}
      {later : List Turn} (asked : (draft baseUrl customer token page).build = .ok r)
      (gives : a.Gives Page.reader p) (names : p.Names next)
      (rest : Paged baseUrl customer token (some next) later) :
      Paged baseUrl customer token page (⟨r, .answer a⟩ :: later)

/-- What follows when a page was read. -/
def afterPage (baseUrl customer token : String) (fuel : Nat) (p : Page) :
    Attempt Network (List RemoteUser) :=
  match p.users? with
  | none => Attempt.fail (.decode "google user without id")
  | some users =>
    match p.next? with
    | none => return users
    | some next => return users ++ (← pages baseUrl customer token fuel (some next))

theorem pages_succ (fuel : Nat) (page : Option String) :
    pages baseUrl customer token (fuel + 1) page =
      Http.sendFor Page.reader (draft baseUrl customer token page) >>=
        afterPage baseUrl customer token fuel := rfl

theorem afterPage_of_not_filled {p : Page} (h : ¬ p.Filled) (fuel : Nat) :
    afterPage baseUrl customer token fuel p = Attempt.fail (.decode "google user without id") := by
  have hnone : p.users? = none := Option.eq_none_iff_forall_ne_some.2 fun users husers =>
    h (Page.users?_eq_some_iff.1 husers).1
  rw [afterPage, hnone]

theorem afterPage_of_last {p : Page} (h : p.Filled) (last : ∀ next, ¬ p.Names next) (fuel : Nat) :
    afterPage baseUrl customer token fuel p = pure p.users := by
  rw [afterPage, Page.users?_eq_some_iff.2 ⟨h, rfl⟩, Page.next?_eq_none_iff.2 last]

theorem afterPage_of_names {p : Page} {next : String} (h : p.Filled) (names : p.Names next)
    (fuel : Nat) :
    afterPage baseUrl customer token fuel p =
      pages baseUrl customer token fuel (some next) >>= fun more => pure (p.users ++ more) := by
  rw [afterPage, Page.users?_eq_some_iff.2 ⟨h, rfl⟩, Page.next?_eq_some_iff.2 names]

/-- The turns of a fetch; the first page is asked for, if it can be. -/
theorem pages_paged (baseUrl customer token : String) (fuel : Nat) (page : Option String)
    (o : Outside Network) :
    ∃ turns, Conversation o.state turns (pages baseUrl customer token fuel page o).2.state ∧
      Paged baseUrl customer token page turns ∧
      (0 < fuel → ∀ r, (draft baseUrl customer token page).build = .ok r →
        ∃ reply later, turns = ⟨r, reply⟩ :: later) := by
  induction fuel generalizing page o with
  | zero => exact ⟨[], .nil _, .nil page, fun h => absurd h (Nat.lt_irrefl 0)⟩
  | succ fuel ih =>
    rw [pages_succ]
    obtain ⟨turns, stop, hconversation, honce, -⟩ | ⟨r, a, p, o', hturn, hasked, hp, heq⟩ :=
      (Http.sendFor_asksOnce Page.reader (draft baseUrl customer token page)).bind_cases
        (afterPage baseUrl customer token fuel) o
    · refine ⟨turns, hconversation, ?_, fun _ r hr => ?_⟩
      · cases honce with
        | unbuilt build => exact .nil page
        | built reply build => exact .last build
      · obtain ⟨reply, rfl⟩ := honce.of_built hr
        exact ⟨reply, [], rfl⟩
    · have hfirst (later : List Turn) (r' : Request)
          (hr' : (draft baseUrl customer token page).build = .ok r') :
          ∃ reply more, (⟨r, .answer a⟩ :: later : List Turn) = ⟨r', reply⟩ :: more :=
        ⟨.answer a, later, by rw [Except.ok.inj (hasked.symm.trans hr')]⟩
      rw [heq]
      by_cases hfilled : p.Filled
      · cases hnext : p.next? with
        | none =>
          rw [afterPage_of_last hfilled (Page.next?_eq_none_iff.1 hnext)]
          exact ⟨_, hturn, .last hasked, fun _ => hfirst []⟩
        | some next =>
          have hnames := Page.next?_eq_some_iff.1 hnext
          obtain ⟨later, hlater, hpaged, -⟩ := ih (some next) o'
          rw [afterPage_of_names hfilled hnames, Fallible.bind_pure_eq]
          exact ⟨_, hturn.append hlater, .more hasked ((hp p).2 rfl) hnames hpaged,
            fun _ => hfirst later⟩
      · rw [afterPage_of_not_filled hfilled]
        exact ⟨_, hturn, .last hasked, fun _ => hfirst []⟩

theorem users_eq (o : Outside Network) :
    users baseUrl customer token o =
      match pages baseUrl customer token (o.state.script.length + 1) none o with
      | (.ok users, o') => (.ok users,
        { o' with log := o'.log ++ [.usersFetched .googleDirectory users.length] })
      | (.error stop, o') => (.error stop, o') := by
  unfold users
  rw [Fallible.bind_of_ok (a := get) rfl]
  cases hresult : pages baseUrl customer token (o.state.script.length + 1) none o with
  | mk result o' =>
    cases result with
    | error stop => rw [Fallible.bind_of_error hresult]
    | ok users =>
      rw [Fallible.bind_of_ok hresult]
      rfl

/-- Without all pages there are no users. -/
theorem users_of_failed {o o' : Outside Network} {stop : Stop}
    (h : pages baseUrl customer token (o.state.script.length + 1) none o = (.error stop, o')) :
    users baseUrl customer token o = (.error stop, o') := by
  rw [users_eq, h]

theorem users_paged (baseUrl customer token : String) (o : Outside Network) :
    ∃ turns, Conversation o.state turns (users baseUrl customer token o).2.state ∧
      Paged baseUrl customer token none turns ∧
      ∀ r, (draft baseUrl customer token none).build = .ok r →
        ∃ reply later, turns = ⟨r, reply⟩ :: later := by
  obtain ⟨turns, hconversation, hpaged, hmade⟩ := pages_paged baseUrl customer token
    (o.state.script.length + 1) none o
  refine ⟨turns, ?_, hpaged, hmade (Nat.succ_pos _)⟩
  rw [users_eq]
  cases hresult : pages baseUrl customer token (o.state.script.length + 1) none o with
  | mk result o' =>
    rw [hresult] at hconversation
    cases result with
    | error stop => exact hconversation
    | ok users => exact hconversation

/-! ## Chains of replies -/

/-- The pairs that ask for a page. -/
def pairs (customer : String) (page : Option String) : List (String × String) :=
  [("customer", customer), ("maxResults", "500")] ++ page.toList.map fun name => ("pageToken", name)

theorem draft_query (page : Option String) :
    (draft baseUrl customer token page).query = pairs customer page := by
  have hsize : toString pageSize = "500" := by decide +kernel
  change [("customer", customer), ("maxResults", toString pageSize)] ++ _ = _
  rw [hsize]
  cases page <;> rfl

/-- The request for a page. -/
def Asks (baseUrl customer token : String) (page : Option String) (r : Request) : Prop :=
  (draft baseUrl customer token page).build = .ok r

/-- The request for a page at an address. -/
def request (u : Url) (customer token : String) (page : Option String) : Request where
  method := .get
  url := u.withPairs (pairs customer page)
  headers := [("accept", "*/*"), ("authorization", "Bearer " ++ token),
    ("user-agent", Http.userAgent)]
  body := .empty

/-- When there is a request for a page, and which. -/
theorem asks_iff {u : Url} {page : Option String} {r : Request}
    (address : Url.ofText (Url.endpoint baseUrl "/admin/directory/v1/users") = .ok u) :
    Asks baseUrl customer token page r ↔ token.toList.all Http.isFieldChar = true ∧
      u.scheme ∈ Http.Draft.schemes ∧ Http.canName (u.withPairs (pairs customer page)) = true ∧
      r = request u customer token page := by
  have hurl : (draft baseUrl customer token page).url = .ok (u.withPairs (pairs customer page)) := by
    rw [Http.Draft.url, draft_query]
    change (Url.ofText (Url.endpoint baseUrl "/admin/directory/v1/users")).map _ = _
    rw [address]
    rfl
  have hfields : (∀ field ∈ (draft baseUrl customer token page).ownHeaders,
      field.2.toList.all Http.isFieldChar = true) ↔ token.toList.all Http.isFieldChar = true := by
    rw [← Http.Credentials.bearer_sendable_iff]
    exact List.forall_mem_singleton
  rw [Asks, Http.Draft.build_eq_ok_iff, hurl, hfields]
  constructor
  · rintro ⟨hr, hsendable, ⟨hscheme, hnamed⟩, heq⟩
    have hr := Except.ok.inj hr
    rw [← hr] at hscheme hnamed
    refine ⟨hsendable, hscheme, hnamed, heq.trans ?_⟩
    rw [← hr]
    rfl
  · rintro ⟨hsendable, hscheme, hnamed, rfl⟩
    exact ⟨rfl, hsendable, ⟨hscheme, hnamed⟩, rfl⟩

theorem Asks.rightUnique : Relator.RightUnique (Asks baseUrl customer token) :=
  fun _ _ _ hr hr' => Except.ok.inj (hr.symm.trans hr')

/-- A page with a name that is longer than an address may be is not asked for. -/
theorem Asks.length_le {name : String} {r : Request} (h : Asks baseUrl customer token (some name) r) :
    name.length ≤ Http.longestAddress := by
  obtain ⟨hurl, -, ⟨-, hnamed⟩, -⟩ := Http.Draft.build_eq_ok_iff.1 h
  rw [Http.Draft.url, draft_query] at hurl
  cases hread : Url.ofText (draft baseUrl customer token (some name)).address with
  | error fault =>
    rw [hread] at hurl
    cases hurl
  | ok u =>
    have hpair : ("pageToken", name) ∈ pairs customer (some name) := by simp [pairs]
    rw [hread] at hurl
    have hwith : u.withPairs (pairs customer (some name)) = r.url := Except.ok.inj hurl
    exact Http.length_le_of_canName (hwith ▸ hnamed) hpair

/-- The pages that are asked for: one, and those that pages name. -/
def asked (page : Option String) (ps : List Page) : List (Option String) := page :: ps.map (·.next)

/-- A chain of replies: every page but the last names the next one. -/
def Chain : List Reply → Prop
  | [] => False
  | [last] => ∀ p, Shows last p → ∀ next, ¬ p.Names next
  | reply :: others => (∀ p, Shows reply p → ∃ next, p.Names next) ∧ Chain others

/-- The network carries all requests for pages. -/
def Reached (baseUrl customer token : String) (n : Network) : Prop :=
  ∀ page r, Asks baseUrl customer token page r → n.carries r.url = true

section

variable {reply : Reply} {rest : List Reply} {o : Outside Network} {page : Option String}
  {r : Request} (fuel : Nat)

theorem sendFor_page (h : Asks baseUrl customer token page r) (carried : o.state.carries r.url = true)
    (script : o.state.script = reply :: rest) :
    Http.sendFor Page.reader (draft baseUrl customer token page) o =
      (reply.read Page.reader r, takenOf o [⟨r, reply⟩] rest) := by
  rw [Http.sendFor_eq_read h, Network.exchange_of_cons carried script]
  rfl

/-- A page is read and then decides what follows. -/
theorem pages_of_shows (h : Asks baseUrl customer token page r)
    (carried : o.state.carries r.url = true) (script : o.state.script = reply :: rest) {p : Page}
    (shown : Shows reply p) :
    pages baseUrl customer token (fuel + 1) page o =
      afterPage baseUrl customer token fuel p (takenOf o [⟨r, reply⟩] rest) := by
  rw [pages_succ]
  refine Fallible.bind_of_ok ?_
  rw [sendFor_page h carried script, Http.Reply.read_eq_ok_iff.2 shown]

/-- A reply that is no page with all identifiers ends the fetch. -/
theorem pages_of_bad (h : Asks baseUrl customer token page r) (carried : o.state.carries r.url = true)
    (script : o.state.script = reply :: rest) (bad : ∀ p, ¬ Good reply p) :
    ∃ stop, pages baseUrl customer token (fuel + 1) page o =
      (.error stop, takenOf o [⟨r, reply⟩] rest) := by
  by_cases hshown : ∃ p, Shows reply p
  · obtain ⟨p, hp⟩ := hshown
    have hfilled : ¬ p.Filled := fun hfilled => bad p ⟨hp, hfilled⟩
    rw [pages_of_shows fuel h carried script hp, afterPage_of_not_filled hfilled]
    exact ⟨_, rfl⟩
  · have hpage := sendFor_page h carried script
    cases hread : reply.read Page.reader r with
    | error stop =>
      rw [hread] at hpage
      exact ⟨stop, Fallible.bind_of_error hpage⟩
    | ok p => exact absurd ⟨p, Http.Reply.read_eq_ok_iff.1 hread⟩ hshown

/-- Without a request there is no page. -/
theorem pages_of_unasked {e : ProviderError}
    (h : (draft baseUrl customer token page).build = .error e) :
    pages baseUrl customer token (fuel + 1) page o = (.error (.failed e), o) := by
  rw [pages_succ, Http.sendFor_eq]
  exact Fallible.bind_of_error (Fallible.bind_of_error (Http.send_of_unbuilt h))

end

/-- Where a chain of replies breaks off, with the turns up to there and the replies that are left: at one
that is no good, or before a page that cannot be asked for. -/
inductive Breaks (baseUrl customer token : String) (page : Option String) (replies : List Reply) :
    List Turn → List Reply → Prop where
  | bad {before after : List Reply} {bad : Reply} {ps : List Page} {rs : List Request}
      (split : replies = before ++ bad :: after) (good : List.Forall₂ Good before ps)
      (asks : List.Forall₂ (Asks baseUrl customer token) (asked page ps) rs)
      (noGood : ∀ p, ¬ Good bad p) :
      Breaks baseUrl customer token page replies (rs.zipWith Turn.mk (before ++ [bad])) after
  | unasked {before after : List Reply} {ps : List Page} {names : List (Option String)}
      {name : Option String} {rs : List Request} (split : replies = before ++ after) (left : after ≠ [])
      (good : List.Forall₂ Good before ps) (named : asked page ps = names ++ [name])
      (asks : List.Forall₂ (Asks baseUrl customer token) names rs)
      (noRequest : ∀ r, ¬ Asks baseUrl customer token name r) :
      Breaks baseUrl customer token page replies (rs.zipWith Turn.mk before) after

/-- What a chain of replies comes to: the users of all pages, or nothing as soon as it breaks off. -/
inductive Fetched (baseUrl customer token : String) (page : Option String) (o : Outside Network)
    (replies rest : List Reply) : Except Stop (List RemoteUser) × Outside Network → Prop where
  | complete {ps : List Page} {rs : List Request} (good : List.Forall₂ Good replies ps)
      (asks : List.Forall₂ (Asks baseUrl customer token) (asked page ps.dropLast) rs) :
      Fetched baseUrl customer token page o replies rest
        (.ok (ps.flatMap Page.users), takenOf o (rs.zipWith Turn.mk replies) rest)
  | broken {turns : List Turn} {after : List Reply} (stop : Stop)
      (breaks : Breaks baseUrl customer token page replies turns after) :
      Fetched baseUrl customer token page o replies rest
        (.error stop, takenOf o turns (after ++ rest))

section

variable {reply : Reply} {replies rest : List Reply} {o : Outside Network} {page : Option String}
  {r : Request} {p : Page} {next : String}

theorem asked_cons (h : p.Names next) (ps : List Page) :
    asked page (p :: ps) = page :: asked (some next) ps := by
  rw [asked, List.map_cons, h.1]
  rfl

/-- A good page before the others adds a turn. -/
theorem Breaks.cons {turns : List Turn} {after : List Reply} (hp : Good reply p)
    (hnext : p.Names next) (hr : Asks baseUrl customer token page r)
    (h : Breaks baseUrl customer token (some next) replies turns after) :
    Breaks baseUrl customer token page (reply :: replies) (⟨r, reply⟩ :: turns) after := by
  cases h with
  | @bad before after bad ps rs split good asks noGood =>
    have hasks : List.Forall₂ (Asks baseUrl customer token) (asked page (p :: ps)) (r :: rs) := by
      rw [asked_cons hnext]
      exact .cons hr asks
    have hsplit : reply :: replies = (reply :: before) ++ bad :: after := by
      rw [split, List.cons_append]
    exact .bad hsplit (.cons hp good) hasks noGood
  | @unasked before after ps names name rs split left good named asks noRequest =>
    have hnamed : asked page (p :: ps) = (page :: names) ++ [name] := by
      rw [asked_cons hnext, named, List.cons_append]
    have hsplit : reply :: replies = (reply :: before) ++ after := by rw [split, List.cons_append]
    exact .unasked hsplit left (.cons hp good) hnamed (.cons hr asks) noRequest

/-- A good page before the others adds its users and its turn. -/
theorem Fetched.cons {outcome : Except Stop (List RemoteUser) × Outside Network} (hp : Good reply p)
    (hnext : p.Names next) (hr : Asks baseUrl customer token page r) (hreplies : replies ≠ [])
    (h : Fetched baseUrl customer token (some next) (takenOf o [⟨r, reply⟩] (replies ++ rest)) replies
      rest outcome) :
    Fetched baseUrl customer token page o (reply :: replies) rest
      (outcome.1.map (p.users ++ ·), outcome.2) := by
  cases h with
  | @complete ps rs good asks =>
    have hpages : ps ≠ [] := by
      rintro rfl
      cases good
      exact hreplies rfl
    have hasks : List.Forall₂ (Asks baseUrl customer token) (asked page (p :: ps).dropLast)
        (r :: rs) := by
      rw [List.dropLast_cons_of_ne_nil hpages, asked_cons hnext]
      exact .cons hr asks
    rw [Http.takenOf_takenOf]
    exact .complete (.cons hp good) hasks
  | broken stop breaks =>
    rw [Http.takenOf_takenOf]
    exact .broken stop (breaks.cons hp hnext hr)

theorem pages_fetched {fuel : Nat} (chain : Chain replies) (enough : replies.length ≤ fuel)
    (reached : Reached baseUrl customer token o.state) (script : o.state.script = replies ++ rest) :
    Fetched baseUrl customer token page o replies rest
      (pages baseUrl customer token fuel page o) := by
  induction replies generalizing fuel page o with
  | nil => cases chain
  | cons reply others ih =>
    rw [List.length_cons] at enough
    obtain ⟨fuel, rfl⟩ := Nat.exists_eq_add_of_le' (Nat.one_le_of_lt enough)
    cases hbuild : (draft baseUrl customer token page).build with
    | error e =>
      have hbreaks : Breaks baseUrl customer token page (reply :: others) [] (reply :: others) :=
        .unasked (List.nil_append _).symm (List.cons_ne_nil _ _) .nil (List.nil_append _).symm .nil
          fun r hr => nomatch hbuild.symm.trans hr
      have hnothing : Fetched baseUrl customer token page o (reply :: others) rest
          (.error (.failed e), takenOf o [] ((reply :: others) ++ rest)) := .broken _ hbreaks
      rw [Http.takenOf_nil script] at hnothing
      rwa [pages_of_unasked fuel hbuild]
    | ok r =>
      have hr : Asks baseUrl customer token page r := hbuild
      have carried := reached page r hr
      by_cases hgood : ∃ p, Good reply p
      · obtain ⟨p, hp⟩ := hgood
        rw [pages_of_shows fuel hr carried script hp.shown]
        cases others with
        | nil =>
          rw [afterPage_of_last hp.filled (chain p hp.shown)]
          have hasks : List.Forall₂ (Asks baseUrl customer token) (asked page [p].dropLast) [r] :=
            .cons hr .nil
          have hcomplete : Fetched baseUrl customer token page o [reply] rest
              (.ok ([p].flatMap Page.users), takenOf o [⟨r, reply⟩] rest) :=
            .complete (.cons hp .nil) hasks
          rwa [List.flatMap_singleton] at hcomplete
        | cons second more =>
          obtain ⟨next, hnext⟩ := chain.1 p hp.shown
          rw [afterPage_of_names hp.filled hnext, Fallible.bind_pure_eq]
          exact .cons hp hnext hr (List.cons_ne_nil _ _)
            (ih chain.2 (by omega) reached rfl)
      · have hbad : ∀ p, ¬ Good reply p := fun p hp => hgood ⟨p, hp⟩
        obtain ⟨stop, hstop⟩ := pages_of_bad fuel hr carried script hbad
        rw [hstop]
        have hasks : List.Forall₂ (Asks baseUrl customer token) (asked page []) [r] := .cons hr .nil
        have hbreaks : Breaks baseUrl customer token page (reply :: others) [⟨r, reply⟩] others :=
          .bad (List.nil_append _).symm .nil hasks hbad
        exact .broken stop hbreaks

/-- Of a chain that breaks off, not all pages are good and can be asked for. -/
theorem Breaks.not_complete {turns : List Turn} {after : List Reply} {ps : List Page}
    {rs : List Request} (h : Breaks baseUrl customer token page replies turns after)
    (good : List.Forall₂ Good replies ps) :
    ¬ List.Forall₂ (Asks baseUrl customer token) (asked page ps.dropLast) rs := by
  intro asks
  cases h with
  | @bad before after bad qs rs' split good' asks' noGood =>
    have hmem : bad ∈ replies := by simp [split]
    obtain ⟨p, hp⟩ := exists_of_mem good hmem
    exact noGood p hp
  | @unasked before after qs names name rs' split left good' named asks' noRequest =>
    -- More pages follow than those before the name, so the page of that name is one of them.
    have hbefore := List.forall₂_take before.length good
    have hafter := List.forall₂_drop before.length good
    rw [split, List.take_left] at hbefore
    rw [split, List.drop_left] at hafter
    have hqs : ps.take before.length = qs := Good.rightUnique.forall₂ hbefore good'
    have hmore : ps.drop before.length ≠ [] := by
      intro hnil
      rw [hnil, List.forall₂_nil_right_iff] at hafter
      exact left hafter
    have hname : name ∈ asked page ps.dropLast := by
      rw [← List.take_append_drop before.length ps, hqs, List.dropLast_append_of_ne_nil hmore, asked,
        List.map_append, ← List.cons_append, ← asked, named]
      simp
    obtain ⟨r, hr⟩ := exists_of_mem asks hname
    exact noRequest r hr

/-- A fetch over a chain of pages.  If all are good and all can be asked for, the users are those of the
pages in order, with their identifiers as they were, and each page was asked for once: the first without
a name and every other one by exactly the name that the page before gave.  If one is not good or cannot
be asked for, there are no users, and the first such page was the last that was reached. -/
theorem users_of_chain (chain : Chain replies) (reached : Reached baseUrl customer token o.state)
    (script : o.state.script = replies ++ rest) :
    (∀ ps rs, List.Forall₂ Good replies ps →
      List.Forall₂ (Asks baseUrl customer token) (asked none ps.dropLast) rs →
        let found := ps.flatMap Page.users
        users baseUrl customer token o = (.ok found,
            ⟨{ o.state with script := rest, turns := o.state.turns ++ rs.zipWith Turn.mk replies },
              o.log ++ [.usersFetched .googleDirectory found.length]⟩) ∧
          rs.length = replies.length ∧
          found.map (·.externalId) = ps.flatMap fun p => p.entries.map (·.id)) ∧
    ((∃ reply ∈ replies, ∀ p, ¬ Good reply p) ∨
        (∃ ps, List.Forall₂ Good replies ps ∧
          ∃ name ∈ asked none ps.dropLast, ∀ r, ¬ Asks baseUrl customer token name r) →
      ∃ stop turns after, Breaks baseUrl customer token none replies turns after ∧
        users baseUrl customer token o = (.error stop,
          ⟨{ o.state with script := after ++ rest, turns := o.state.turns ++ turns }, o.log⟩)) := by
  have henough : replies.length ≤ o.state.script.length + 1 := by
    rw [script, List.length_append]
    omega
  have hfetched : Fetched baseUrl customer token none o replies rest
      (pages baseUrl customer token (o.state.script.length + 1) none o) :=
    pages_fetched chain henough reached script
  rw [users_eq]
  generalize pages baseUrl customer token (o.state.script.length + 1) none o = outcome at hfetched
  cases hfetched with
  | @complete ps rs good asks =>
    constructor
    · intro ps' rs' hps' hrs'
      obtain rfl := Good.rightUnique.forall₂ good hps'
      obtain rfl := Asks.rightUnique.forall₂ asks hrs'
      have hpages : ps ≠ [] := by
        rintro rfl
        cases good
        exact chain
      refine ⟨rfl, ?_, ?_⟩
      · have hlength := List.length_pos_iff.2 hpages
        rw [good.length_eq, ← asks.length_eq, asked, List.length_cons, List.length_map,
          List.length_dropLast]
        omega
      · rw [List.map_flatMap]
        exact List.flatMap_congr fun p _ => by rw [Page.users, List.map_map]; rfl
    · rintro (⟨reply, hmem, hbad⟩ | ⟨ps', hps', name, hname, hnone⟩)
      · obtain ⟨p, hp⟩ := exists_of_mem good hmem
        exact absurd hp (hbad p)
      · obtain rfl := Good.rightUnique.forall₂ good hps'
        obtain ⟨r, hr⟩ := exists_of_mem asks hname
        exact absurd hr (hnone r)
  | @broken turns after stop breaks =>
    exact ⟨fun ps rs hps hrs => absurd hrs (breaks.not_complete hps),
      fun _ => ⟨stop, turns, after, breaks, rfl⟩⟩

end

deriving instance DecidableEq for Entry, Page

/-- The address of a directory. -/
def sampleUrl : Url :=
  ⟨"https", .hosted (.name "google.test") none ["admin", "directory", "v1", "users"], none, none⟩

/-- A page that names another one. -/
def sampleFirst : Http.Answer :=
  ⟨200, Utf8.encode "\x7b\"users\":[\x7b\"id\":\"1\"\x7d],\"nextPageToken\":\"two\"\x7d", .complete⟩

/-- A page that names none. -/
def sampleLast : Http.Answer :=
  ⟨200, Utf8.encode "\x7b\"users\":[\x7b\"id\":\" 2\"\x7d]\x7d", .complete⟩

theorem sampleAddress :
    Url.ofText (Url.endpoint "https://google.test" "/admin/directory/v1/users") = .ok sampleUrl := by
  decide +kernel

theorem asks_sample (name : Option String)
    (h : Http.canName (sampleUrl.withPairs (pairs "acme" name)) = true) :
    Asks "https://google.test" "acme" "t" name (request sampleUrl "acme" "t" name) :=
  (asks_iff sampleAddress).2 ⟨by decide, by decide, h, rfl⟩

/-- The first page of a fetch is asked for. -/
theorem asks_sample_none :
    Asks "https://google.test" "acme" "t" none (request sampleUrl "acme" "t" none) :=
  asks_sample none (by decide +kernel)

/-- Where everything is carried, all pages are reached. -/
theorem reached_scripted (baseUrl customer token : String) (script : List Reply) :
    Reached baseUrl customer token (.scripted script) := fun _ _ _ => rfl

theorem good_sampleLast : Good (.answer sampleLast) ⟨[⟨" 2", "", ""⟩], none⟩ :=
  ⟨⟨sampleLast, rfl, ⟨by decide, by decide⟩, rfl, by decide +kernel⟩,
    fun e he => List.mem_singleton.1 he ▸ by decide⟩

/-- The page after one that names it ends a chain. -/
theorem chain_sampleLast {a : Http.Answer} {p : Page} {next : String} (hp : Good (.answer a) p)
    (hnext : p.Names next) : Chain [.answer a, .answer sampleLast] := by
  refine ⟨fun q hq => ⟨next, hq.unique hp.shown ▸ hnext⟩, fun q hq name hname => ?_⟩
  rw [hq.unique good_sampleLast.shown] at hname
  cases hname.1

/-- Two pages are fetched by two requests. -/
theorem users_of_chain_sample :
    users "https://google.test" "acme" "t" ⟨.scripted [.answer sampleFirst, .answer sampleLast], []⟩ =
      (.ok [⟨.googleDirectory, "1", "", "", "", ""⟩, ⟨.googleDirectory, " 2", "", "", "", ""⟩],
        ⟨{ Network.scripted [] with turns :=
            [⟨request sampleUrl "acme" "t" none, .answer sampleFirst⟩,
              ⟨request sampleUrl "acme" "t" (some "two"), .answer sampleLast⟩] },
          [.usersFetched .googleDirectory 2]⟩) := by
  have hfirst : Good (.answer sampleFirst) ⟨[⟨"1", "", ""⟩], some "two"⟩ :=
    ⟨⟨sampleFirst, rfl, ⟨by decide, by decide⟩, rfl, by decide +kernel⟩,
      fun e he => List.mem_singleton.1 he ▸ by decide⟩
  have hchain := chain_sampleLast hfirst ⟨rfl, by decide⟩
  have hsecond := asks_sample (some "two") (by decide +kernel)
  let o : Outside Network := ⟨.scripted [.answer sampleFirst, .answer sampleLast], []⟩
  have hscript : o.state.script = [.answer sampleFirst, .answer sampleLast] ++ [] := rfl
  have hfetched := users_of_chain hchain (reached_scripted "https://google.test" "acme" "t" _) hscript
  exact (hfetched.1 _ _ (.cons hfirst (.cons good_sampleLast .nil))
    (.cons asks_sample_none (.cons hsecond .nil))).1

/-- A page without users that names another one. -/
def naming (name : String) : Http.Answer :=
  telling (.object [("users", .array []), ("nextPageToken", .string name)])

theorem good_naming (name : String) : Good (.answer (naming name)) ⟨[], some name⟩ := by
  have hread : Page.reader
      (.object [(some "users", .array []), (some "nextPageToken", .string (some name))]) =
        .ok ⟨[], some name⟩ := by
    refine (Json.record_written (by constructor <;> decide) [.array [], .string (some name)] ?_).trans ?_
    · exact .cons rfl (.cons rfl .nil)
    · simp only [Json.Fields.map_build_eq_ok_iff, Json.Fields.seq_build_eq_ok_iff,
        Json.Fields.optional_build_eq_ok_iff, Json.Fields.defaulted_build_eq_ok_iff]
      exact ⟨_, some name, ⟨[], .inr ⟨_, rfl, rfl⟩, rfl⟩, .inr ⟨_, rfl, rfl⟩, rfl⟩
  exact ⟨⟨_, rfl, Http.telling_gives rfl hread⟩, List.forall_mem_nil _⟩

theorem ne_empty_of_long {name : String} {n : Nat} (h : n < name.length) : name ≠ "" := by
  rintro rfl
  exact Nat.not_lt_zero n h

/-- A chain of two good pages is not fetched where the name of the second one is longer than an address
may be. -/
theorem users_of_long_name {name : String} (h : Http.longestAddress < name.length) :
    ∃ stop, users "https://google.test" "acme" "t"
        ⟨.scripted [.answer (naming name), .answer sampleLast], []⟩ =
      (.error stop, ⟨{ Network.scripted [.answer sampleLast] with turns :=
        [⟨request sampleUrl "acme" "t" none, .answer (naming name)⟩] }, []⟩) := by
  cases hbuild : (draft "https://google.test" "acme" "t" (some name)).build with
  | ok r => exact absurd (Asks.length_le hbuild) (Nat.not_le.2 h)
  | error e =>
    refine ⟨.failed e, users_of_failed ?_⟩
    have hnames : (⟨[], some name⟩ : Page).Names name := ⟨rfl, ne_empty_of_long h⟩
    refine (pages_of_shows 2 asks_sample_none rfl rfl (good_naming name).shown).trans ?_
    rw [afterPage_of_names (good_naming name).filled hnames, Fallible.bind_pure_eq,
      pages_of_unasked 1 hbuild]
    simp only [takenOf, Network.scripted, List.nil_append, Except.map]

/-- A name of as many letters. -/
def nameOf (n : Nat) : String := String.ofList (List.replicate n 'a')

theorem nameOf_length (n : Nat) : (nameOf n).length = n := by
  rw [nameOf, String.length_ofList, List.length_replicate]

/-- A chain of two good pages is not fetched whole where the second one has too long a name. -/
theorem long_name_ends_fetch :
    ∃ ps, Chain [.answer (naming (nameOf 70000)), .answer sampleLast] ∧
      List.Forall₂ Good [.answer (naming (nameOf 70000)), .answer sampleLast] ps ∧
      ∃ stop, users "https://google.test" "acme" "t"
          ⟨.scripted [.answer (naming (nameOf 70000)), .answer sampleLast], []⟩ =
        (.error stop, ⟨{ Network.scripted [.answer sampleLast] with turns :=
          [⟨request sampleUrl "acme" "t" none, .answer (naming (nameOf 70000))⟩] }, []⟩) := by
  have hlong : Http.longestAddress < (nameOf 70000).length := by
    rw [nameOf_length]
    decide
  have hgood := good_naming (nameOf 70000)
  exact ⟨_, chain_sampleLast hgood ⟨rfl, ne_empty_of_long hlong⟩,
    .cons hgood (.cons good_sampleLast .nil), users_of_long_name hlong⟩

end Concierge.Google
