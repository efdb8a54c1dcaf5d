import Concierge.Proofs.Directory.Entries
import Concierge.Proofs.Http.Addresses
import Concierge.Proofs.Http.Questions
import Concierge.Proofs.Url.Form
import Concierge.Proofs.Url.Joining

/-!
# How much of HipChat is fetched

HipChat's server lists its users by windows: a question says where the window starts and how many
users it holds at most, and each user is then viewed by number.  A fetch opens one window, at the
start and for a thousand users.  What it finds at any such server is therefore the first thousand
users, each one once and in the order of the server; a directory is fetched whole exactly if it is
no larger.
-/

namespace Concierge

open Http (Network Request Reply Turn takenOf telling telling_gives)

namespace Url

/-- The addresses of the list of users and of every user lie below the folders of a base, on its server,
and requests can name them as far as there is room for them. -/
theorem exists_user_addresses {base : String} {u : Url} (h : ofText base = .ok u)
    (web : IsWeb u.scheme) (query : u.query = none) (fragment : u.fragment = none)
    (firm : EndsFirmly base.toList) (room : Http.HasRoom u 40) :
    ∃ folder : List String, (∃ k, u.path = folder ++ List.replicate k "") ∧
      (∃ v, ofText (endpoint base "/v2/user") = .ok v ∧ v.scheme = u.scheme ∧ v.query = none ∧
        v.path = folder ++ ["v2", "user"] ∧ Http.HasRoom v 31) ∧
      ∀ id : Nat, ∃ v, ofText (endpoint base ("/v2/user/" ++ toString id)) = .ok v ∧
        v.scheme = u.scheme ∧ v.query = none ∧ v.path = folder ++ ["v2", "user", toString id] ∧
        (id < Width.count 64 → Http.canName v = true) := by
  obtain ⟨name, port, folder, ⟨k, hplace⟩, -, hbelow⟩ :=
    exists_folder h web query fragment firm.lateBlanks
  refine ⟨folder, ⟨k, by rw [Url.path, hplace]⟩,
    ⟨_, hbelow ["v2", "user"] (by decide) (List.cons_ne_nil _ _), rfl, query, rfl,
      room.below hplace (by decide)⟩, fun id => ?_⟩
  have hplain : ∀ s ∈ ["v2", "user", toString id], IsPlain s := by
    simp only [List.forall_mem_cons, List.not_mem_nil, false_implies, implies_true, and_true]
    exact ⟨by decide, by decide, .of_nat id⟩
  have hpath : pathText ["v2", "user", toString id] = "/v2/user/" ++ toString id :=
    String.toList_injective (by simp [pathText_toList])
  have hview := hbelow _ hplain (List.cons_ne_nil _ _)
  rw [hpath] at hview
  refine ⟨_, hview, rfl, query, rfl, fun hid => Http.canName_iff.2 (room.below hplace ?_)⟩
  have hdigits : (toString id).utf8ByteSize ≤ 20 :=
    size_toString_le (by decide) (hid.trans (by decide))
  have hprefix : "/v2/user/".utf8ByteSize = 9 := by decide
  rw [hpath, String.utf8ByteSize_append, hprefix]
  omega

end Url

namespace HipChat.Directory

/-! ## Servers -/

/-- A request for a window of the list of users. -/
structure AsksWindow (folder : List String) (start count : Nat) (r : Request) : Prop where
  method : r.method = .get
  path : r.url.path = folder ++ ["v2", "user"]
  query : r.url.query.map (Form.decode ·.toList) =
    some [("start-index", toString start), ("max-results", toString count)]

/-- A request for what is known about a user. -/
structure AsksUser (folder : List String) (id : Nat) (r : Request) : Prop where
  method : r.method = .get
  path : r.url.path = folder ++ ["v2", "user", toString id]
  query : r.url.query = none

/-- A server below a folder that has these users, in this order. -/
structure Hosts (folder : List String) (people : List Details) (serve : Request → Reply) : Prop where
  window : ∀ start count r, AsksWindow folder start count r →
    ∃ a, serve r = .answer a ∧ a.Gives listReader (((people.drop start).take count).map Details.id)
  user : ∀ d ∈ people, ∀ r, AsksUser folder d.id r →
    ∃ a, serve r = .answer a ∧ a.Gives Details.reader d

/-! ## What is fetched from them -/

/-- A user that is viewed has the number that was read. -/
theorem Details.id_lt {t : Json.Tree} {d : Details} (h : Details.reader t = .ok d) :
    d.id < Width.count 64 := by
  obtain ⟨huser, n, hfield, hn⟩ := Details.of_read h
  have hid : toString d.id = t.decimalAt ["id"] 0 := congrArg RemoteUser.externalId huser
  rw [Json.decimalAt_eq hfield] at hid
  rwa [← Json.natOf_toString d.id, hid, Json.natOf_toString]

variable {base token : String}

/-- A question to HipChat that has nothing but its address. -/
def question (token : String) (v : Url) : Request where
  method := .get
  url := v
  headers := [("accept", "*/*"), ("authorization", "Bearer " ++ token),
    ("user-agent", Http.userAgent)]
  body := .empty

/-- The pairs that ask for the window which is opened. -/
def windowPairs : List (String × String) :=
  [("start-index", toString 0), ("max-results", toString maxResults)]

theorem listDraft_build {v : Url} (address : Url.ofText (Url.endpoint base "/v2/user") = .ok v)
    (web : Url.IsWeb v.scheme) (named : Http.canName (v.withPairs windowPairs) = true)
    (sendable : token.toList.all Http.isFieldChar = true) :
    (listDraft base token).build = .ok (question token (v.withPairs windowPairs)) := by
  rw [Http.Draft.build_eq_ok_iff]
  refine ⟨?_, fun field hfield => ?_, ⟨Http.mem_schemes_iff.2 web, named⟩, rfl⟩
  · change (Url.ofText (Url.endpoint base "/v2/user")).map _ = _
    rw [address]
    rfl
  · rw [List.mem_singleton.1 hfield]
    exact Http.Credentials.bearer_sendable_iff.2 sendable

theorem userDraft_build {v : Url} {id : Nat}
    (address : Url.ofText (Url.endpoint base ("/v2/user/" ++ toString id)) = .ok v)
    (web : Url.IsWeb v.scheme) (named : Http.canName v = true)
    (sendable : token.toList.all Http.isFieldChar = true) :
    (userDraft base token id).build = .ok (question token v) := by
  rw [Http.Draft.build_eq_ok_iff]
  refine ⟨?_, fun field hfield => ?_, ⟨Http.mem_schemes_iff.2 web, named⟩, rfl⟩
  · change (Url.ofText (Url.endpoint base ("/v2/user/" ++ toString id))).map _ = _
    rw [address]
    rfl
  · rw [List.mem_singleton.1 hfield]
    exact Http.Credentials.bearer_sendable_iff.2 sendable

section

variable {folder : List String} {people : List Details} {serve : Request → Reply} {u list : Url}
  {view : Nat → Url}
  (hosts : Hosts folder people serve) (web : Url.IsWeb u.scheme)
  (listed : Url.ofText (Url.endpoint base "/v2/user") = .ok list ∧ list.scheme = u.scheme ∧
    list.query = none ∧ list.path = folder ++ ["v2", "user"] ∧ Http.HasRoom list 31)
  (viewed : ∀ id, Url.ofText (Url.endpoint base ("/v2/user/" ++ toString id)) = .ok (view id) ∧
    (view id).scheme = u.scheme ∧ (view id).query = none ∧
    (view id).path = folder ++ ["v2", "user", toString id] ∧
    (id < Width.count 64 → Http.canName (view id) = true))
  (sendable : token.toList.all Http.isFieldChar = true)
include hosts web viewed sendable

/-- The turns in which a server is asked. -/
def turnsWith (serve : Request → Reply) (questions : List Request) : List Turn :=
  questions.map fun r => ⟨r, serve r⟩

/-- Users of the server are viewed in order, each by one request. -/
theorem details_of_hosts {ds : List Details} (known : ∀ d ∈ ds, d ∈ people) {o : Outside Network}
    {later : List Reply} (carried : o.state.carries u = true)
    (script : o.state.script = (ds.map fun d => serve (question token (view d.id))) ++ later) :
    details base token (ds.map Details.id) o =
      (.ok (ds.map Details.toUser),
        takenOf o (turnsWith serve (ds.map fun d => question token (view d.id))) later) := by
  induction ds generalizing o with
  | nil =>
    rw [List.map_nil, List.nil_append] at script
    exact Prod.ext rfl (Http.takenOf_nil script).symm
  | cons d ds ih =>
    obtain ⟨haddress, hscheme, hquery, hpath, hnamed⟩ := viewed d.id
    obtain ⟨a, ha, hgives⟩ := hosts.user d (known d List.mem_cons_self)
      (question token (view d.id)) ⟨rfl, hpath, hquery⟩
    obtain ⟨t, -, hread⟩ := Http.Answer.gives_iff.1 hgives
    have hbuild := userDraft_build haddress (hscheme ▸ web) (hnamed (Details.id_lt hread)) sendable
    rw [List.map_cons, List.cons_append, ha] at script
    have hfirst := Http.sendFor_of_gives hbuild ((Network.carries_congr hscheme).trans carried) script
      hgives
    have hsame : ∀ turns later, (takenOf o turns later).state.carries u = true := fun _ _ => carried
    rw [List.map_cons, details, Fallible.bind_of_ok hfirst, Fallible.bind_pure_eq,
      ih (fun d hd => known d (List.mem_cons_of_mem _ hd)) (hsame _ _) rfl, Http.takenOf_takenOf,
      ← ha]
    rfl

include listed

omit hosts web viewed sendable in
theorem asksWindow_of_listed :
    AsksWindow folder 0 maxResults (question token (list.withPairs windowPairs)) := by
  refine ⟨rfl, listed.2.2.2.1, ?_⟩
  change (list.withPairs windowPairs).query.map _ = _
  rw [Url.withPairs, listed.2.2.1]
  simp only [Option.map_some, String.toList_ofList, Form.decode_encode]
  rfl

/-- The users in the window that is opened are found, by a request for the window and one for each. -/
theorem users_of_hosts {o : Outside Network} {later : List Reply} (carried : o.state.carries u = true)
    (script : o.state.script =
      (question token (list.withPairs windowPairs) ::
        (people.take maxResults).map fun d => question token (view d.id)).map serve ++ later) :
    (users base token o).1 = .ok ((people.take maxResults).map Details.toUser) ∧
      (users base token o).2.state = (takenOf o
        (turnsWith serve (question token (list.withPairs windowPairs) ::
          (people.take maxResults).map fun d => question token (view d.id))) later).state := by
  have hwindow : AsksWindow folder 0 maxResults (question token (list.withPairs windowPairs)) :=
    asksWindow_of_listed listed
  obtain ⟨a, ha, hgives⟩ := hosts.window 0 maxResults _ hwindow
  have hpairs : (String.ofList (Form.encode windowPairs)).utf8ByteSize + 1 + 0 ≤ 31 := by
    decide +kernel
  have hnamed := Http.canName_iff.2 (listed.2.2.2.2.withPairs listed.2.2.1 hpairs)
  have hbuild := listDraft_build listed.1 (listed.2.1 ▸ web) hnamed sendable
  rw [List.map_cons, List.cons_append, ha, List.map_map] at script
  have hfirst := Http.sendFor_of_gives hbuild ((Network.carries_congr listed.2.1).trans carried) script
    hgives
  rw [List.drop_zero] at hfirst
  have hsame : (takenOf o [⟨question token (list.withPairs windowPairs), .answer a⟩]
      ((people.take maxResults).map (serve ∘ fun d => question token (view d.id)) ++
        later)).state.carries u = true := carried
  have hviews := details_of_hosts hosts web viewed sendable
    (fun d (hd : d ∈ people.take maxResults) => List.mem_of_mem_take hd) hsame rfl
  rw [users, Fallible.bind_of_ok hfirst, Fallible.bind_of_ok hviews, Http.takenOf_takenOf, ← ha]
  exact ⟨rfl, rfl⟩

end

/-- Below a base without query and fragment, of whatever users a server has, a fetch asks for the first
thousand in one window and views each of them once.  They are what it finds, in the order of the server,
so it finds all users exactly if these are no more than a thousand. -/
theorem finds_first_window {u : Url} (h : Url.ofText base = .ok u) (web : Url.IsWeb u.scheme)
    (query : u.query = none) (fragment : u.fragment = none) (firm : Url.EndsFirmly base.toList)
    (room : Http.HasRoom u 40) (sendable : token.toList.all Http.isFieldChar = true) :
    ∃ folder : List String, (∃ k, u.path = folder ++ List.replicate k "") ∧
      ∃ (window : Request) (view : Nat → Request), AsksWindow folder 0 1000 window ∧
        (∀ id, AsksUser folder id (view id)) ∧
        ∀ people serve, Hosts folder people serve →
          let questions := window :: (people.take 1000).map fun d => view d.id
          ∀ (o : Outside Network) (later : List Reply), o.state.carries u = true →
            o.state.script = questions.map serve ++ later →
              (users base token o).1 = .ok ((people.take 1000).map Details.toUser) ∧
              (users base token o).2.state = { o.state with
                script := later
                turns := o.state.turns ++ questions.map fun r => ⟨r, serve r⟩ } ∧
              ((users base token o).1 = .ok (people.map Details.toUser) ↔ people.length ≤ 1000) := by
  obtain ⟨folder, hfolder, ⟨list, listed⟩, hviewed⟩ :=
    Url.exists_user_addresses h web query fragment firm room
  choose view viewed using hviewed
  refine ⟨folder, hfolder, question token (list.withPairs windowPairs),
    fun id => question token (view id),
    asksWindow_of_listed listed, fun id => ⟨rfl, (viewed id).2.2.2.1, (viewed id).2.2.1⟩,
    fun people serve hosts => ?_⟩
  intro questions o later carried script
  obtain ⟨hfound, hstate⟩ := users_of_hosts hosts web listed viewed sendable carried script
  refine ⟨hfound, hstate, ?_⟩
  rw [hfound]
  refine ⟨fun hall => ?_, fun hsmall => ?_⟩
  · have hlength := congrArg List.length (Except.ok.inj hall)
    rw [List.length_map, List.length_map, List.length_take] at hlength
    change min 1000 people.length = people.length at hlength
    omega
  · rw [List.take_of_length_le (show people.length ≤ maxResults from hsmall)]

/-! ## A server for any users -/

/-- A printed list of users. -/
def listing (ids : List Nat) : Json :=
  .object [("items", .array (ids.map fun id => .object [("id", .nat id)]))]

/-- What is known about a user, printed. -/
def Details.shown (d : Details) : Json :=
  .object [("id", .nat d.id), ("name", .string d.name), ("email", .string d.email),
    ("title", .string d.title)]

/-- The path of the request ends with the number of the user. -/
def isFor (r : Request) (d : Details) : Bool := r.url.path.getLast? == some (toString d.id)

/-- A server for these users that looks at what it is asked. -/
def serverOf (people : List Details) (r : Request) : Reply :=
  match r.url.query.map (Form.decode ·.toList) with
  | some [("start-index", start), ("max-results", count)] =>
    .answer (telling (listing
      (((people.drop (Digit.natOf start.toList)).take (Digit.natOf count.toList)).map Details.id)))
  | _ =>
    match people.find? (isFor r) with
    | some d => .answer (telling d.shown)
    | none => .answer ⟨404, [], .complete⟩

theorem word64_int {n : Nat} (h : n < Width.count 64) : Json.Reader.word64 (.int n) = .ok n :=
  Json.Reader.word64_eq_ok_iff.2 ⟨rfl, h⟩

theorem item_read {n : Nat} (h : n < Width.count 64) :
    Json.record .lenient (Json.Fields.required "id" .word64) (.object [(some "id", .int n)]) =
      .ok n := by
  refine (Json.record_written (by constructor <;> decide) [.int n] ?_).trans
    (Json.Fields.required_build_eq_ok_iff.2 ⟨_, rfl, word64_int h⟩)
  exact .cons (Json.Fields.checkOf_ok (word64_int h)) .nil

theorem listing_gives {ids : List Nat} (h : ∀ id ∈ ids, id < Width.count 64) :
    (telling (listing ids)).Gives listReader ids := by
  have hitems : Json.integralItems (ids.map fun id => .object [("id", .nat id)]) = true ∧
      List.Forall₂ (fun t id => Json.record .lenient (Json.Fields.required "id" .word64) t = .ok id)
        (Json.treeItems (ids.map fun id => .object [("id", .nat id)])) ids := by
    induction ids with
    | nil => exact ⟨rfl, .nil⟩
    | cons id rest ih =>
      obtain ⟨hintegral, hread⟩ := ih fun id hid => h id (List.mem_cons_of_mem _ hid)
      have hid := h id List.mem_cons_self
      have hfirst := Json.integral_nat hid
      refine ⟨?_, .cons ?_ hread⟩
      · simp [Json.integralItems, Json.integral, Json.integralMembers, hfirst, hintegral]
      · rw [Json.tree, Json.treeMembers, Json.tree_nat hid]
        exact item_read hid
  have hlist := Json.Reader.list_eq_ok_iff.2 ⟨_, rfl, hitems.2⟩
  refine telling_gives ?_ ?_
  · simp [listing, Json.integral, Json.integralMembers, hitems.1]
  · refine (Json.record_written (by constructor <;> decide) [.array (Json.treeItems _)] ?_).trans
      (Json.Fields.defaulted_build_eq_ok_iff.2 (.inr ⟨_, rfl, hlist⟩))
    exact .cons (Json.Fields.checkOf_ok hlist) .nil

theorem shown_gives {d : Details} (h : d.id < Width.count 64) :
    (telling d.shown).Gives Details.reader d := by
  have hintegral := Json.integral_nat h
  have htree := Json.tree_nat h
  have hid := word64_int h
  have htext (s : String) : Json.Reader.text (.string (some s)) = .ok s := rfl
  refine telling_gives ?_ ?_
  · simp [Details.shown, Json.integral, Json.integralMembers, hintegral]
  · have hshown : Json.tree d.shown = .object [(some "id", .int d.id),
        (some "name", .string (some d.name)), (some "email", .string (some d.email)),
        (some "title", .string (some d.title))] := by
      rw [← htree]
      rfl
    rw [hshown]
    refine (Json.record_written (by constructor <;> decide) [.int d.id, .string (some d.name),
      .string (some d.email), .string (some d.title)] ?_).trans ?_
    · exact .cons (Json.Fields.checkOf_ok hid) (.cons rfl (.cons rfl (.cons rfl .nil)))
    · simp only [Json.Fields.map_build_eq_ok_iff, Json.Fields.seq_build_eq_ok_iff,
        Json.Fields.required_build_eq_ok_iff, Json.Fields.defaulted_build_eq_ok_iff]
      exact ⟨_, d.title, ⟨_, d.email, ⟨_, d.name, ⟨d.id, ⟨_, rfl, hid⟩, rfl⟩, .inr ⟨_, rfl, rfl⟩, rfl⟩,
        .inr ⟨_, rfl, rfl⟩, rfl⟩, .inr ⟨_, rfl, rfl⟩, rfl⟩

/-- The server answers whatever it may be asked about its users. -/
theorem hosts_serverOf (folder : List String) {people : List Details}
    (distinct : (people.map Details.id).Nodup) (bounded : ∀ d ∈ people, d.id < Width.count 64) :
    Hosts folder people (serverOf people) where
  window start count r asked := by
    have hids : ∀ id ∈ ((people.drop start).take count).map Details.id, id < Width.count 64 := by
      intro id hid
      obtain ⟨d, hd, rfl⟩ := List.mem_map.1 hid
      exact bounded d (List.mem_of_mem_drop (List.mem_of_mem_take hd))
    refine ⟨_, ?_, listing_gives hids⟩
    unfold serverOf
    rw [asked.query]
    simp only [Json.natOf_toString]
  user d hd r asked := by
    have hfor (d' : Details) : isFor r d' = true ↔ d'.id = d.id := by
      rw [isFor, asked.path, List.getLast?_append_of_ne_nil _ (by simp), beq_iff_eq]
      refine ⟨fun h => ?_, fun h => by rw [h]; rfl⟩
      have htext : toString d.id = toString d'.id := Option.some.inj h
      rw [← Json.natOf_toString d'.id, ← htext, Json.natOf_toString]
    have hfind : people.find? (isFor r) = some d := by
      obtain ⟨found, hfound⟩ := Option.isSome_iff_exists.1
        (List.find?_isSome.2 ⟨d, hd, (hfor d).2 rfl⟩)
      have hid := (hfor found).1 (List.find?_some hfound)
      rw [hfound, List.inj_on_of_nodup_map distinct (List.mem_of_find?_eq_some hfound) hd hid]
    refine ⟨_, ?_, shown_gives (bounded d hd)⟩
    unfold serverOf
    rw [asked.query]
    simp only [Option.map_none, hfind]

/-- Users numbered from one. -/
def numbered (n : Nat) : List Details := (List.range n).map fun i => ⟨i + 1, "", "", ""⟩

theorem hosts_numbered (folder : List String) {n : Nat} (h : n < Width.count 64) :
    Hosts folder (numbered n) (serverOf (numbered n)) := by
  refine hosts_serverOf folder ?_ fun d hd => ?_
  · rw [numbered, List.map_map]
    exact List.Nodup.map (fun i j hij => Nat.succ.inj hij) List.nodup_range
  · obtain ⟨i, hi, rfl⟩ := List.mem_map.1 hd
    have := List.mem_range.1 hi
    change i + 1 < _
    omega

theorem sampleBase : Url.ofText "http://hipchat.test" =
    .ok ⟨"http", .hosted (.name "hipchat.test") none [""], none, none⟩ := by
  decide +kernel

theorem sampleBase_room : Http.HasRoom
    ⟨"http", .hosted (.name "hipchat.test") none [""], none, none⟩ 40 :=
  ⟨by decide, by decide +kernel⟩

theorem sampleBase_firm : Url.EndsFirmly "http://hipchat.test".toList := by
  simp [Url.EndsFirmly, Url.isMargin]

/-- A network on which a server for these users answers the questions. -/
def answering (people : List Details) (questions : List Request) : Outside Network :=
  ⟨.scripted (questions.map (serverOf people)), []⟩

theorem answering_script (people : List Details) (questions : List Request) :
    (answering people questions).state.script = questions.map (serverOf people) ++ [] :=
  (List.append_nil _).symm

/-- A small directory is found whole. -/
theorem finds_first_window_sample :
    ∃ questions, (users "http://hipchat.test" "t" (answering (numbered 2) questions)).1 =
      .ok [⟨.hipchat, "1", "", "", "", ""⟩, ⟨.hipchat, "2", "", "", "", ""⟩] := by
  obtain ⟨folder, -, window, view, -, -, hfound⟩ := @finds_first_window "http://hipchat.test" "t" _
    sampleBase (.inl rfl) rfl rfl sampleBase_firm sampleBase_room (by decide)
  have hosts : Hosts folder (numbered 2) (serverOf (numbered 2)) := hosts_numbered folder (by decide)
  exact ⟨_, (hfound _ _ hosts _ [] rfl (answering_script _ _)).1⟩

/-- A server with one user more than fit into the window answers every question that it is asked,
and that user is not found. -/
theorem user_behind_window_is_missed :
    ∃ (folder : List String) (questions : List Request),
      Hosts folder (numbered 1001) (serverOf (numbered 1001)) ∧
      let found := users "http://hipchat.test" "t" (answering (numbered 1001) questions)
      found.2.state.sent = questions.map .request ∧
      found.1 = .ok ((numbered 1000).map Details.toUser) ∧
      found.1 ≠ .ok ((numbered 1001).map Details.toUser) := by
  obtain ⟨folder, -, ⟨list, listed⟩, hviewed⟩ :=
    Url.exists_user_addresses sampleBase (.inl rfl) rfl rfl sampleBase_firm sampleBase_room
  choose view viewed using hviewed
  have hosts : Hosts folder (numbered 1001) (serverOf (numbered 1001)) :=
    hosts_numbered folder (by decide)
  have hfirst : (numbered 1001).take maxResults = numbered 1000 := by
    rw [numbered, ← List.map_take, List.take_range]
    rfl
  obtain ⟨hfound, hstate⟩ := @users_of_hosts "http://hipchat.test" "t" folder (numbered 1001) _ _ list
    view hosts (.inl rfl) listed viewed (by decide) _ [] rfl (answering_script _ _)
  rw [hfirst] at hfound hstate
  refine ⟨folder, _, hosts, ?_, hfound, ?_⟩
  · rw [hstate, Network.sent_of_carried fun _ _ => rfl]
    exact List.map_map ..
  · rw [hfound]
    intro hall
    have hlength := congrArg List.length (Except.ok.inj hall)
    simp [numbered] at hlength

end HipChat.Directory

end Concierge
