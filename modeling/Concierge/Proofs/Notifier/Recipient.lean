import Concierge.Proofs.Http.Addresses
import Concierge.Proofs.Notifier.Acceptance
import Mathlib.Data.List.Flatten

/-!
# Whom a message through HipChat is for

HipChat is told whom a message is for by the path of the request, into which the email address is put as
it is.  The path is read again before it is sent, so an address may end it, leave it or turn into another
one.  It is settled here for which addresses the request names their person: those that hold no slash,
mark, line end or escape and are no points.  Every other one names somebody else, or something else on the
same server.
-/

namespace Concierge

open Http (Network)

namespace Url

variable {cs : List Char} {above : List (List Char)}

/-! ## A text inside a path -/

/-- The segments that HipChat's path puts around a text. -/
def around (above : List (List Char)) (cs : List Char) : List (List Char) :=
  resolve ("user".toList :: "v2".toList :: above)
    (splitPath true [] (body (cs ++ "/message".toList)))

theorem isBare_message : IsBare "/message".toList := by
  constructor <;> decide

/-- A segment of a text with a message behind it is that message, or a part of the text before query,
fragment and message. -/
theorem of_mem_splitPath_message {piece : List Char}
    (h : piece ∈ splitPath true [] (body (cs ++ "/message".toList))) :
    piece = "message".toList ∨ (∀ c ∈ piece, c ∉ ['/', '\\', '?', '#']) ∧ piece.Sublist cs := by
  have hpart (hpiece : piece ∈ splitPath true [] (body cs)) :
      (∀ c ∈ piece, c ∉ ['/', '\\', '?', '#']) ∧ piece.Sublist cs := by
    obtain ⟨hslash, hsublist⟩ := of_mem_splitPath hpiece fun c hc => nomatch hc
    rw [List.reverse_nil, List.nil_append] at hsublist
    refine ⟨fun c hc hmem => ?_, hsublist.trans (body_sublist cs)⟩
    obtain ⟨-, hmark, hhash⟩ := of_mem_body (hsublist.mem hc)
    have hother := hslash c hc
    simp only [isSlash, Bool.true_and, Bool.or_eq_false_iff, beq_eq_false_iff_ne] at hother
    simp [hmark, hhash, hother] at hmem
  by_cases hbare : IsBare cs
  · rw [(split_append hbare _).1, (isBare_iff_body.1 isBare_message)] at h
    change piece ∈ splitPath true [] (cs ++ '/' :: "message".toList) at h
    rw [splitPath_append_slash [] cs (by decide), ← isBare_iff_body.1 hbare] at h
    rcases List.mem_append.1 h with h | h
    · exact .inr (hpart h)
    · rw [splitPath_of_no_slash (by simp [isSlash]), List.reverse_nil, List.nil_append] at h
      exact .inl (List.mem_singleton.1 h)
  · rw [body_append_of_not_isBare hbare] at h
    exact .inr (hpart h)

/-- What the path of a message comes to behind a base. -/
theorem message_path (above : List (List Char)) (s : String) :
    let path := "/v2/user/" ++ s ++ "/message"
    let kept := (path.toList.dropWhile (· == '/')).filter isKept
    EndsFirmly (path.toList.dropWhile (· == '/')) ∧
      resolve above (splitPath true [] (body kept)) = around above (s.toList.filter isKept) ∧
      queryOf kept = queryOf (s.toList.filter isKept ++ "/message".toList) := by
  intro path kept
  have hpath : path.toList.dropWhile (· == '/') =
      "v2/user/".toList ++ (s.toList ++ "/message".toList) := by
    change ("/v2/user/" ++ s ++ "/message").toList.dropWhile _ = _
    rw [String.toList_append, String.toList_append, List.append_assoc]
    rfl
  have hkept : kept = "v2/user/".toList ++ (s.toList.filter isKept ++ "/message".toList) := by
    change (path.toList.dropWhile _).filter isKept = _
    rw [hpath, List.filter_append, List.filter_append]
    rfl
  have hfolders : IsBare "v2/user/".toList := by constructor <;> decide
  obtain ⟨hbody, hquery, -⟩ := split_append hfolders (s.toList.filter isKept ++ "/message".toList)
  refine ⟨?_, ?_, by rw [hkept, hquery]⟩
  · rw [hpath, EndsFirmly, ← List.append_assoc, List.getLast?_append_of_ne_nil _ (by decide)]
    simp [isMargin]
  · have hsplit : splitPath true [] (body kept) = ["v2".toList, "user".toList] ++
        splitPath true [] (body (s.toList.filter isKept ++ "/message".toList)) := by
      rw [hkept, hbody]
      rfl
    rw [hsplit, resolve_append (splitPath_ne_nil _ _)]
    rfl

/-! ## Which texts stand for themselves -/

/-- A text that is the same when it is read as a segment of a path. -/
structure StandsForItself (s : String) : Prop where
  plain : ∀ c ∈ s.toList, c ∉ ['/', '\\', '?', '#', '\t', '\n', '\r']
  unescaped : Percent.Unescaped s.toList
  noPoints : s ≠ "." ∧ s ≠ ".."

theorem StandsForItself.isBare {s : String} (h : StandsForItself s) : IsBare s.toList :=
  ⟨fun hc => h.plain _ hc (by simp), fun hc => h.plain _ hc (by simp)⟩

theorem StandsForItself.filter {s : String} (h : StandsForItself s) :
    s.toList.filter isKept = s.toList := by
  refine List.filter_eq_self.2 fun c hc => ?_
  have hplain := h.plain c hc
  simp only [List.mem_cons, List.not_mem_nil, or_false, not_or] at hplain
  simp [isKept, hplain]

/-- A text that stands for itself becomes the segment between the folders and the message. -/
theorem around_of_standsForItself {s : String} (h : StandsForItself s) (above : List (List Char)) :
    around above s.toList =
      above.reverse ++ ["v2".toList, "user".toList, s.toList, "message".toList] := by
  have hslash : ∀ c ∈ s.toList, isSlash true c = false := fun c hc => by
    have hplain := h.plain c hc
    simp only [List.mem_cons, List.not_mem_nil, or_false, not_or] at hplain
    simp [isSlash, hplain]
  have habove : isAbove s.toList = false := by
    rw [Bool.eq_false_iff, ne_eq, isAbove_of_unescaped h.unescaped]
    exact fun hs => h.noPoints.2 (String.toList_injective hs)
  have hhere : isHere s.toList = false := by
    rw [Bool.eq_false_iff, ne_eq, isHere_of_unescaped h.unescaped]
    exact fun hs => h.noPoints.1 (String.toList_injective hs)
  have hsplit : splitPath true [] (body (s.toList ++ "/message".toList)) =
      [s.toList, "message".toList] := by
    rw [(split_append h.isBare _).1, isBare_iff_body.1 isBare_message]
    change splitPath true [] (s.toList ++ '/' :: "message".toList) = _
    rw [splitPath_append_slash [] s.toList (by decide), splitPath_of_no_slash hslash]
    rfl
  rw [around, hsplit, resolve_cons (by simp), pass, habove, hhere]
  change ("message".toList :: s.toList :: "user".toList :: "v2".toList :: above).reverse = _
  simp only [List.reverse_cons, List.append_assoc, List.singleton_append]
  rfl

/-- A part of a text that is read as the whole text is the whole, and holds no escape. -/
theorem eq_of_decode_sublist {piece : List Char} (hpiece : piece.Sublist cs)
    (hread : Percent.decode (Utf8.octets piece) = Utf8.octets cs) :
    piece = cs ∧ Percent.Unescaped cs := by
  obtain ⟨hle, hunescaped⟩ := Percent.length_decode_le piece
  have hlength : (Utf8.octets piece).length ≤ (Utf8.octets cs).length :=
    (hpiece.flatMap String.utf8EncodeChar).length_le
  rw [hread] at hle hunescaped
  have hplain := hunescaped (Nat.le_antisymm hle hlength)
  rw [Percent.decode_unescaped hplain] at hread
  obtain rfl := Utf8.octets_injective hread
  exact ⟨rfl, hplain⟩

theorem standsForItself_message : StandsForItself "message" where
  plain := by simp
  unescaped := Percent.unescaped_of_not_mem (by decide)
  noPoints := by decide

theorem standsForItself_empty : StandsForItself "" where
  plain := by simp
  unescaped := Percent.unescaped_of_not_mem (by decide)
  noPoints := by decide

/-- Nothing else is read as a text that stands for itself. -/
theorem StandsForItself.of_decode {s t : String} (h : StandsForItself t)
    (hread : Percent.decode (Utf8.octets t.toList) = Utf8.octets s.toList) : StandsForItself s := by
  rw [Percent.decode_unescaped h.unescaped] at hread
  rwa [← String.toList_injective (Utf8.octets_injective hread)]

/-- The segment behind the folders, if it is read as the text, is the text itself: whatever was cut off,
resolved or read of an escape is missing from it. -/
theorem standsForItself_of_segment {s : String} {piece : List Char}
    (h : (around above (s.toList.filter isKept))[above.length + 2]? = some piece)
    (hread : Percent.decode (Utf8.octets piece) = Utf8.octets s.toList) : StandsForItself s := by
  obtain rfl | ⟨hmem, habove, hhere⟩ := mem_of_resolve_getElem? (Nat.le_refl _) h
  · exact standsForItself_empty.of_decode hread
  · obtain rfl | ⟨hplain, hsublist⟩ := of_mem_splitPath_message hmem
    · exact standsForItself_message.of_decode hread
    · obtain ⟨rfl, hunescaped⟩ := eq_of_decode_sublist (hsublist.trans List.filter_sublist) hread
      refine ⟨fun c hc hmem => ?_, hunescaped, fun hs => ?_, fun hs => ?_⟩
      · have hkept := List.of_mem_filter (hsublist.mem hc)
        have hother := hplain c hc
        simp [isKept] at hkept hother
        simp [hkept, hother] at hmem
      · rw [hs] at hhere
        exact absurd hhere (by decide)
      · rw [hs] at habove
        exact absurd habove (by decide)

/-- Behind a base, a text becomes the segment between the folders and the message, without a query,
exactly if it stands for itself. -/
theorem path_around_iff (above : List (List Char)) (s : String) :
    (queryOf (s.toList.filter isKept ++ "/message".toList) = none ∧
      ∃ segment, (around above (s.toList.filter isKept)).map written =
          above.reverse.map written ++ ["v2", "user", segment, "message"] ∧
        Percent.decode (Utf8.encode segment) = Utf8.encode s) ↔ StandsForItself s := by
  have hwritten (cs : List Char) :
      Percent.decode (Utf8.encode (written cs)) = Percent.decode (Utf8.octets cs) := by
    rw [written, Utf8.encode_ofList, Percent.decode_encode Percent.inPath_sparesEscapes]
  constructor
  · rintro ⟨-, segment, hpath, hread⟩
    have hsegment : ((around above (s.toList.filter isKept)).map written)[above.length + 2]? =
        some segment := by
      rw [hpath, List.getElem?_append_right (by simp)]
      simp
    rw [List.getElem?_map, Option.map_eq_some_iff] at hsegment
    obtain ⟨piece, hpiece, rfl⟩ := hsegment
    rw [hwritten, Utf8.encode_eq_octets] at hread
    exact standsForItself_of_segment hpiece hread
  · intro h
    rw [h.filter, around_of_standsForItself h, List.map_append]
    refine ⟨?_, written s.toList, rfl, ?_⟩
    · rw [(split_append h.isBare _).2.1]
      exact (isBare_iff.1 isBare_message).1
    · rw [hwritten, Percent.decode_unescaped h.unescaped, Utf8.encode_eq_octets]

end Url

/-! ## Messages through HipChat -/

namespace HipChat

variable {base token : String} {account : Account} {door : Door} {person : Person}
  {o : Outside Network} {r : Http.Request}

theorem draft_url (base token : String) (account : Account) (door : Door) (person : Person) :
    (draft base token account door person).url =
      Url.ofText (Url.endpoint base ("/v2/user/" ++ person.email ++ "/message")) := by
  unfold Http.Draft.url draft
  cases Url.ofText (Url.endpoint base ("/v2/user/" ++ person.email ++ "/message")) <;> rfl

/-- A message with a token that can be sent is sent exactly if requests can name its address. -/
theorem sent_iff {v : Url} (hurl : (draft base token account door person).url = .ok v)
    (http : v.scheme = "http") (sendable : token.toList.all Http.isFieldChar = true)
    (up : o.state.up = true) :
    (∃ r : Http.Request, r.url = v ∧
      ((notifier base token account).knock door person o).2.state.sent =
        o.state.sent ++ [.request r]) ↔ Http.canName v = true := by
  constructor
  · rintro ⟨r, rfl, hsent⟩
    have hbuild := (knock_asksOnce base token account door person).build_of_sent hsent
    exact (Http.Draft.build_eq_ok_iff.1 hbuild).2.2.1.2
  · intro hnamed
    have hbuild : (draft base token account door person).build =
        .ok ⟨.post, v, (draft base token account door person).allHeaders,
          (draft base token account door person).body⟩ := by
      refine Http.Draft.build_eq_ok_iff.2 ⟨hurl, fun field hfield => ?_, ⟨?_, hnamed⟩, rfl⟩
      · rw [List.mem_singleton.1 hfield]
        exact Http.Credentials.bearer_sendable_iff.2 sendable
      · exact Http.mem_schemes_iff.2 (.inl http)
    have hcarried : o.state.carries v = true := by
      simp [Network.carries, up, http]
    have hknock : (notifier base token account).knock door person =
        Http.send (draft base token account door person) >>= fun _ => pure () := rfl
    rw [hknock, Fallible.bind_pure_eq, Http.send_of_built hbuild]
    exact ⟨_, rfl, Network.exchange_sent hcarried⟩

/-- The address of a message behind a base without query and fragment. -/
theorem exists_draft_url {u : Url} (h : Url.ofText base = .ok u) (http : u.scheme = "http")
    (query : u.query = none) (fragment : u.fragment = none) :
    ∃ host above,
      (∀ token account door person, ∃ fragment, (draft base token account door person).url =
        (Url.readAuthority "http" host false).map fun (name, port) =>
          ⟨"http", .hosted name port
              ((Url.around above (person.email.toList.filter Url.isKept)).map Url.written),
            Url.queryOf (person.email.toList.filter Url.isKept ++ "/message".toList), fragment⟩) ∧
      (Url.EndsFirmly base.toList →
        ∃ name port k, Url.readAuthority "http" host false = .ok (name, port) ∧
          u.server? = some (name, port) ∧
          u.path = above.reverse.map Url.written ++ List.replicate k "") := by
  obtain ⟨host, above, hpath, hbase⟩ := Url.ofText_endpoint h http query fragment
  refine ⟨host, above, fun token account door person => ?_, fun hends => ?_⟩
  · obtain ⟨hfirm, hresolve, hquery⟩ := Url.message_path above person.email
    exact ⟨_, by rw [draft_url, hpath _ hfirm, hresolve, hquery]⟩
  · obtain ⟨name, port, k, hread, rfl⟩ := hbase hends
    refine ⟨name, port, k, hread, rfl, ?_⟩
    change (above.reverse ++ List.replicate k []).map Url.written = _
    rw [List.map_append, List.map_replicate]
    rfl

/-- Of a base without query and fragment, a message goes to a folder of its own below the base.  The
request for it names the person's email address and nothing else exactly if the address stands for
itself.  Unless the base ends in blanks, that folder is the base's path, and whatever the email address,
the message is for the server of the base and is sent exactly if requests can name where it goes. -/
theorem names_person_iff {u : Url} (h : Url.ofText base = .ok u) (http : u.scheme = "http")
    (query : u.query = none) (fragment : u.fragment = none) :
    ∃ folder : List String,
      (∀ token account door person o r,
        ((notifier base token account).knock door person o).2.state.sent =
          o.state.sent ++ [.request r] →
        ((r.url.query = none ∧
            ∃ segment, r.url.path = folder ++ ["v2", "user", segment, "message"] ∧
              Percent.decode (Utf8.encode segment) = Utf8.encode person.email) ↔
          Url.StandsForItself person.email)) ∧
      (Url.EndsFirmly base.toList →
        (∃ k, u.path = folder ++ List.replicate k "") ∧
        ∀ token account door person o, token.toList.all Http.isFieldChar = true →
          o.state.up = true →
          ∃ v, (draft base token account door person).url = .ok v ∧ v.server? = u.server? ∧
            ((∃ r : Http.Request, r.url = v ∧
              ((notifier base token account).knock door person o).2.state.sent =
                o.state.sent ++ [.request r]) ↔ Http.canName v = true)) := by
  obtain ⟨host, above, hurl, hbase⟩ := exists_draft_url h http query fragment
  refine ⟨above.reverse.map Url.written, fun token account door person o r hsent => ?_,
    fun hends => ?_⟩
  · have hbuild := (knock_asksOnce base token account door person).build_of_sent hsent
    obtain ⟨fragment, hdraft⟩ := hurl token account door person
    rw [(Http.Draft.build_eq_ok_iff.1 hbuild).1] at hdraft
    cases hread : Url.readAuthority "http" host false with
    | error fault =>
      rw [hread] at hdraft
      cases hdraft
    | ok found =>
      rw [hread] at hdraft
      rw [Except.ok.inj hdraft]
      exact Url.path_around_iff above person.email
  · obtain ⟨name, port, k, hread, hserver, hpath⟩ := hbase hends
    refine ⟨⟨k, hpath⟩, fun token account door person o hsendable hup => ?_⟩
    obtain ⟨fragment, hdraft⟩ := hurl token account door person
    rw [hread] at hdraft
    exact ⟨_, hdraft, by rw [hserver]; rfl, sent_iff hdraft rfl hsendable hup⟩

/-- A network on which requests can be sent. -/
def sampleChat : Outside Network := ⟨.scripted [], []⟩

/-- Below a base with a path, a person with an ordinary address is named. -/
theorem names_person_iff_sample :
    ∃ folder : List String, (∃ k, ["api", ""] = folder ++ List.replicate k "") ∧
      ∃ r, ((notifier "http://hipchat.test/api/" "t" default).knock sampleDoor sampleVisited
          sampleChat).2.state.sent = [.request r] ∧ r.url.query = none ∧
        ∃ segment, r.url.path = folder ++ ["v2", "user", segment, "message"] ∧
          Percent.decode (Utf8.encode segment) = Utf8.encode "ann@example.test" := by
  have hbase : Url.ofText "http://hipchat.test/api/" =
      .ok ⟨"http", .hosted (.name "hipchat.test") none ["api", ""], none, none⟩ := by decide +kernel
  have hann : Url.StandsForItself sampleVisited.email :=
    ⟨by simp [sampleVisited], Percent.unescaped_of_not_mem (by decide), by decide⟩
  obtain ⟨folder, hiff, hsent⟩ := names_person_iff hbase rfl rfl rfl
  obtain ⟨hfolder, hsent⟩ := hsent (by simp [Url.EndsFirmly, Url.isMargin])
  obtain ⟨v, hv, -, hnamed⟩ := hsent "t" default sampleDoor sampleVisited sampleChat (by decide) rfl
  have hurl : (draft "http://hipchat.test/api/" "t" default sampleDoor sampleVisited).url = .ok ⟨"http",
      .hosted (.name "hipchat.test") none ["api", "v2", "user", "ann@example.test", "message"], none,
      none⟩ := by
    rw [draft_url]
    decide +kernel
  obtain rfl := Except.ok.inj (hurl.symm.trans hv)
  obtain ⟨r, -, hr⟩ := hnamed.2 (by decide +kernel)
  obtain ⟨hquery, hsegment⟩ := (hiff "t" default sampleDoor sampleVisited sampleChat r hr).2 hann
  exact ⟨folder, hfolder, r, hr, hquery, hsegment⟩

/-- An email address with points between slashes names another person of the same server. -/
theorem names_another_person :
    let eve : Person := { sampleVisited with email := "eve/../grace@example.test" }
    Url.ofText "http://hipchat.test" =
        .ok ⟨"http", .hosted (.name "hipchat.test") none [""], none, none⟩ ∧
      ∃ r, ((notifier "http://hipchat.test" "t" default).knock sampleDoor eve
          sampleChat).2.state.sent = [.request r] ∧
        r.url.path = ["v2", "user", "grace@example.test", "message"] ∧
        ¬ ∃ segment, r.url.path = ["v2", "user", segment, "message"] ∧
          Percent.decode (Utf8.encode segment) = Utf8.encode eve.email := by
  intro eve
  have hurl : (draft "http://hipchat.test" "t" default sampleDoor eve).url = .ok ⟨"http",
      .hosted (.name "hipchat.test") none ["v2", "user", "grace@example.test", "message"], none,
      none⟩ := by
    rw [draft_url]
    decide +kernel
  obtain ⟨r, hr, hsent⟩ := (@sent_iff "http://hipchat.test" "t" default sampleDoor eve sampleChat _ hurl
    rfl (by decide) rfl).2 (by decide +kernel)
  refine ⟨by decide +kernel, r, hsent, by rw [hr]; rfl, ?_⟩
  rintro ⟨segment, hpath, hread⟩
  rw [hr] at hpath
  obtain rfl : "grace@example.test" = segment := by simpa [Url.path] using hpath
  exact absurd hread (by decide +kernel)

end HipChat

end Concierge
