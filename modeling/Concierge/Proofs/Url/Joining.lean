import Concierge.Proofs.Url.Authority

/-!
# Which addresses paths can be joined with

A base address is checked alone but used with a path behind it.  The two agree for some bases only: the
scheme has to be one that requests are sent with, and nothing may stand at the end of the base that is
dropped, cut off or closed when the base is read alone and means something else once a path follows.
Which bases these are does not depend on the path, as long as its segments are read as they stand.
-/

namespace Concierge.Url

variable {cs : List Char} {segment scheme base : String} {xs ys segs : List String} {u v : Url}

/-! ## Paths as texts -/

theorem pathText_toList (path : List String) :
    (pathText path).toList = path.flatMap fun s => '/' :: s.toList := by
  simp [pathText, List.flatMap_map]

theorem pathText_append (xs ys : List String) : pathText (xs ++ ys) = pathText xs ++ pathText ys := by
  apply String.toList_injective
  simp [pathText_toList]

theorem pathText_cons (segment : String) (xs : List String) :
    (pathText (segment :: xs)).toList = '/' :: (segment.toList ++ (pathText xs).toList) := by
  simp [pathText_toList]

theorem pathText_empties (k : Nat) :
    (pathText (List.replicate k "")).toList = List.replicate k '/' := by
  induction k with
  | zero => rfl
  | succ k ih =>
    rw [List.replicate_succ, pathText_cons, ih]
    rfl

/-- A text without the slashes at its end. -/
def unslashed (path : String) : String := String.ofList (path.toList.rdropWhile (· == '/'))

theorem rdropWhile_slashes (cs : List Char) (k : Nat) :
    (cs ++ List.replicate k '/').rdropWhile (· == '/') = cs.rdropWhile (· == '/') := by
  induction k with
  | zero => rw [List.replicate_zero, List.append_nil]
  | succ k ih =>
    rw [List.replicate_succ', ← List.append_assoc, List.rdropWhile_concat_pos _ _ _ (by decide), ih]

/-- Empty segments at the end of a path are slashes at the end of its text. -/
theorem unslashed_empties (xs : List String) (k : Nat) :
    unslashed (pathText (xs ++ List.replicate k "")) = unslashed (pathText xs) := by
  rw [unslashed, pathText_append, String.toList_append, pathText_empties, rdropWhile_slashes, unslashed]

theorem length_unslashed_le (path : String) : (unslashed path).length ≤ path.length := by
  rw [unslashed, String.length_ofList, ← String.length_toList]
  exact (List.rdropWhile_prefix _ _).length_le

/-- A text has no slash at its end exactly if one more is the only one there. -/
theorem unslashed_eq_self_iff {path : String} :
    unslashed path = path ↔ ¬ ['/', '/'] <:+ path.toList ++ ['/'] := by
  have hlast : ['/', '/'] <:+ path.toList ++ ['/'] ↔ ['/'] <:+ path.toList :=
    ⟨fun ⟨before, h⟩ => ⟨before, List.append_cancel_right (by simpa using h)⟩,
      fun ⟨before, h⟩ => ⟨before, by simp [← h]⟩⟩
  rw [hlast, unslashed, ← String.toList_inj, String.toList_ofList, List.rdropWhile_eq_self_iff]
  constructor
  · rintro hself ⟨before, hsplit⟩
    refine hself (by simp [← hsplit]) ?_
    simp [← hsplit]
  · intro hsuffix hne hslash
    have hlast := List.dropLast_concat_getLast hne
    rw [eq_of_beq hslash] at hlast
    exact hsuffix ⟨_, hlast⟩

/-! ## Segments that are read as they stand -/

/-- A character that stands for itself in a path. -/
def isLiteral (c : Char) : Bool :=
  Percent.encodeChar Percent.inPath c == [c] && ! isSlash true c && c != '%'

theorem isLiteral_iff {c : Char} : isLiteral c = true ↔
    Percent.encodeChar Percent.inPath c = [c] ∧ isSlash true c = false ∧ c ≠ '%' := by
  simp only [isLiteral, Bool.and_eq_true, beq_iff_eq, Bool.not_eq_true', bne_iff_ne, and_assoc]

/-- Blanks are written as escapes, and so are the marks of a query and a fragment. -/
theorem of_isLiteral {c : Char} (h : isLiteral c = true) :
    isMargin c = false ∧ isKept c = true ∧ c ∉ ['?', '#'] := by
  obtain ⟨hencode, -, -⟩ := isLiteral_iff.1 h
  have hmargin : isMargin c = false := Bool.eq_false_iff.2 fun hc =>
    forall_isMargin (P := fun c => Percent.encodeChar Percent.inPath c ≠ [c]) (by decide) hc hencode
  refine ⟨hmargin, ?_, ?_⟩
  · simp only [isKept, Bool.and_eq_true, bne_iff_ne]
    refine ⟨⟨?_, ?_⟩, ?_⟩ <;> · rintro rfl; exact absurd hmargin (by decide)
  · simp only [List.mem_cons, List.not_mem_nil, or_false, not_or]
    refine ⟨?_, ?_⟩ <;> · rintro rfl; exact absurd hencode (by decide)

/-- A segment of such characters that names no place by points. -/
structure IsPlain (segment : String) : Prop where
  named : segment ∉ ["", ".", ".."]
  all : segment.toList.all isLiteral = true

instance (segment : String) : Decidable (IsPlain segment) :=
  decidable_of_iff (segment ∉ ["", ".", ".."] ∧ segment.toList.all isLiteral = true)
    ⟨fun h => ⟨h.1, h.2⟩, fun h => ⟨h.named, h.all⟩⟩

theorem isLiteral_of_isHex {c : Char} (h : Percent.IsHex c) : isLiteral c = true :=
  Percent.forall_isHex (P := fun c => isLiteral c = true) (by decide) h

namespace IsPlain

theorem literal (h : IsPlain segment) : ∀ c ∈ segment.toList, isLiteral c = true :=
  List.all_eq_true.1 h.all

theorem exists_cons (h : IsPlain segment) :
    ∃ c more, segment.toList = c :: more ∧ isLiteral c = true := by
  cases hs : segment.toList with
  | nil => exact absurd (by simp [show segment = "" from String.toList_injective hs]) h.named
  | cons c more => exact ⟨c, more, rfl, h.literal c (hs ▸ List.mem_cons_self)⟩

/-- A number is written with digits. -/
theorem of_nat (n : Nat) : IsPlain (toString n) := by
  have htoList : (toString n).toList = Nat.toDigits 10 n := by
    rw [Nat.toString_eq_repr, Nat.toList_repr]
  have hdigit : ∀ c ∈ (toString n).toList, c.isDigit = true := fun c hc =>
    Nat.isDigit_of_mem_toDigits (by decide) (by decide) (htoList ▸ hc)
  refine ⟨fun hmem => ?_, List.all_eq_true.2 fun c hc => isLiteral_of_isHex ?_⟩
  · simp only [List.mem_cons, List.not_mem_nil, or_false] at hmem
    obtain hempty | hpoint | hpoints := hmem
    · exact Nat.toDigits_ne_nil (htoList.symm.trans (congrArg String.toList hempty))
    · exact absurd (hdigit '.' (by simp [hpoint])) (by decide)
    · exact absurd (hdigit '.' (by simp [hpoints])) (by decide)
  · have hrange : '0' ≤ c ∧ c ≤ '9' := by simpa [Char.isDigit, Char.le_def] using hdigit c hc
    simp [Percent.IsHex, Digit.hex?, hrange]

theorem written_eq (h : IsPlain segment) : written segment.toList = segment := by
  have hencode (cs : List Char) (hcs : ∀ c ∈ cs, isLiteral c = true) :
      Percent.encode Percent.inPath cs = cs := by
    induction cs with
    | nil => rfl
    | cons c rest ih =>
      rw [Percent.encode_cons, (isLiteral_iff.1 (hcs c List.mem_cons_self)).1,
        ih fun d hd => hcs d (List.mem_cons_of_mem c hd), List.singleton_append]
  rw [written, hencode _ h.literal, String.ofList_toList]

theorem pass_eq (h : IsPlain segment) (above : List (List Char)) :
    isAbove segment.toList = false ∧ isHere segment.toList = false ∧
      pass above segment.toList = segment.toList :: above := by
  have hunescaped : Percent.Unescaped segment.toList := Percent.unescaped_of_not_mem fun hc =>
    (isLiteral_iff.1 (h.literal _ hc)).2.2 rfl
  have hnamed := h.named
  simp only [List.mem_cons, List.not_mem_nil, or_false, not_or] at hnamed
  have habove : isAbove segment.toList = false := Bool.eq_false_iff.2 fun hpoints =>
    hnamed.2.2 (String.toList_injective ((isAbove_of_unescaped hunescaped).1 hpoints))
  have hhere : isHere segment.toList = false := Bool.eq_false_iff.2 fun hpoint =>
    hnamed.2.1 (String.toList_injective ((isHere_of_unescaped hunescaped).1 hpoint))
  exact ⟨habove, hhere, by simp [pass, habove, hhere]⟩

/-- Plain segments are resolved to themselves. -/
theorem resolve_eq (hplain : ∀ s ∈ segs, IsPlain s) (hne : segs ≠ []) (above : List (List Char)) :
    resolve above (segs.map String.toList) = above.reverse ++ segs.map String.toList := by
  induction segs generalizing above with
  | nil => exact absurd rfl hne
  | cons s rest ih =>
    obtain ⟨habove, hhere, hpass⟩ := (hplain s List.mem_cons_self).pass_eq above
    by_cases hrest : rest = []
    · subst hrest
      simp [resolve, habove, hhere]
    · rw [List.map_cons, resolve_cons (by simpa using hrest), hpass,
        ih (fun t ht => hplain t (List.mem_cons_of_mem s ht)) hrest, List.reverse_cons,
        List.append_assoc, List.singleton_append]

/-- A path of plain segments is read as these segments, whatever it is joined with. -/
theorem path_chars (hplain : ∀ s ∈ segs, IsPlain s) (hne : segs ≠ []) :
    ∃ cs, (pathText segs).toList = '/' :: cs ∧ cs.dropWhile (· == '/') = cs ∧
      (∀ c ∈ cs, isMargin c = false ∧ isKept c = true ∧ c ∉ ['?', '#']) ∧
      splitPath true [] cs = segs.map String.toList := by
  induction segs with
  | nil => exact absurd rfl hne
  | cons s rest ih =>
    have hs := hplain s List.mem_cons_self
    have hslash : ∀ c ∈ s.toList, isSlash true c = false := fun c hc =>
      (isLiteral_iff.1 (hs.literal c hc)).2.1
    have hchars : ∀ c ∈ s.toList, isMargin c = false ∧ isKept c = true ∧ c ∉ ['?', '#'] := fun c hc =>
      of_isLiteral (hs.literal c hc)
    -- No segment is empty, so only one slash stands at the start.
    have hdrop (more : List Char) : (s.toList ++ more).dropWhile (· == '/') = s.toList ++ more := by
      obtain ⟨c, chars, hcons, hc⟩ := hs.exists_cons
      have hother := (isLiteral_iff.1 hc).2.1
      simp only [isSlash, Bool.or_eq_false_iff] at hother
      simp [hcons, hother.1]
    refine ⟨_, pathText_cons s rest, hdrop _, ?_⟩
    by_cases hrest : rest = []
    · subst hrest
      rw [show (pathText []).toList = [] from rfl, List.append_nil]
      exact ⟨hchars, by simp [splitPath_of_no_slash hslash]⟩
    · obtain ⟨cs, hcs, -, hmore, hsplit⟩ :=
        ih (fun t ht => hplain t (List.mem_cons_of_mem s ht)) hrest
      rw [hcs]
      refine ⟨fun c hc => ?_, ?_⟩
      · obtain hc | hc := List.mem_append.1 hc
        · exact hchars c hc
        · obtain rfl | hc := List.mem_cons.1 hc
          · decide
          · exact hmore c hc
      · rw [splitPath_append_slash [] _ (by decide), hsplit, splitPath_of_no_slash hslash,
          List.reverse_nil, List.nil_append]
        rfl

end IsPlain

/-! ## Joining -/

/-- The address of a base that was joined with a path: what it names is the path below the path of the
base, on the same server. -/
structure Lands (u : Url) (path : String) (v : Url) : Prop where
  web : IsWeb v.scheme
  scheme : v.scheme = u.scheme
  server : v.server? = u.server?
  path : pathText v.path = unslashed (pathText u.path) ++ path

/-- A base that paths can be joined with. -/
structure Joinable (base : String) (u : Url) : Prop where
  web : IsWeb u.scheme
  query : u.query = none
  fragment : u.fragment = none
  /-- No blank counts as soon as something follows. -/
  unblank : lateBlanks base.toList = []
  /-- With a slash behind it, its path ends in one slash only. -/
  single : ∀ v, ofText (endpoint base "") = .ok v → ¬ ['/', '/'] <:+ (pathText v.path).toList

/-- Plain segments are never passed over. -/
theorem Lands.path_ne (hplain : ∀ s ∈ segs, IsPlain s) (hne : segs ≠ [])
    (h : Lands u (pathText segs) v) : v.path ≠ u.path := by
  intro hsame
  have htext := congrArg String.toList h.path
  rw [hsame, String.toList_append, unslashed, String.toList_ofList] at htext
  have hslashes : (pathText segs).toList = (pathText u.path).toList.rtakeWhile (· == '/') :=
    List.append_cancel_left (htext.symm.trans List.rdropWhile_append_rtakeWhile.symm)
  obtain ⟨s, rest, rfl⟩ := List.exists_cons_of_ne_nil hne
  obtain ⟨c, more, hcons, hc⟩ := (hplain s List.mem_cons_self).exists_cons
  have hmem : c ∈ (pathText (s :: rest)).toList := by simp [pathText_cons, hcons]
  rw [hslashes] at hmem
  have hother := (isLiteral_iff.1 hc).2.1
  simp [isSlash, List.mem_rtakeWhile_imp hmem] at hother

/-! ### Bases with blanks at their end -/

/-- An authority at the end of a text goes on with what follows; others, and what stands below them, do
not depend on it. -/
theorem authority_append_other (h : ∃ c ∈ cs, isSlash true c = false) {more : List Char}
    (hmore : ∀ c ∈ more, isSlash true c = false) :
    (below cs = [] → authority (cs ++ more) = authority cs ++ more) ∧
      (below cs ≠ [] →
        authority (cs ++ more) = authority cs ∧ below (cs ++ more) = below cs ++ more) := by
  have hdrop := dropWhile_append_of_other h more
  have hkeep : ∀ c ∈ more, (! isSlash true c) = true := fun c hc => by rw [hmore c hc]; rfl
  have hsplit : authority cs ++ below cs = cs.dropWhile (isSlash true) :=
    List.takeWhile_append_dropWhile
  refine ⟨fun hbelow => ?_, fun hbelow => ?_⟩
  · rw [hbelow, List.append_nil] at hsplit
    rw [authority, hdrop, List.takeWhile_append, ← authority, hsplit, if_pos rfl,
      List.takeWhile_eq_self_iff.2 hkeep]
  · refine ⟨?_, ?_⟩
    · rw [authority, hdrop, List.takeWhile_append, ← authority, if_neg]
      intro hlength
      have := congrArg List.length hsplit
      rw [List.length_append, hlength] at this
      exact hbelow (List.eq_nil_of_length_eq_zero (by omega))
    · rw [below, hdrop, List.dropWhile_append, ← below, if_neg (by simpa using hbelow)]

/-- No blank is a point, plain or escaped. -/
theorem exists_of_afterPoint? {segment rest : List Char} (h : afterPoint? segment = some rest) :
    ∃ point, segment = point ++ rest ∧ ∀ c ∈ point, isMargin c = false := by
  unfold afterPoint? at h
  split at h
  · exact ⟨['.'], by rw [Option.some.inj h]; rfl, by simp [isMargin]⟩
  · next c after =>
    split at h
    · next hc =>
      refine ⟨['%', '2', c], by rw [Option.some.inj h]; rfl, ?_⟩
      obtain rfl | rfl := hc <;> simp [isMargin]
    · cases h
  · cases h

/-- A segment with a blank names no place by points. -/
theorem pass_of_blank {c : Char} {segment : List Char} (hc : isMargin c = true) (h : c ∈ segment)
    (above : List (List Char)) : pass above segment = segment :: above := by
  have hhere : isHere segment = false := Bool.eq_false_iff.2 fun hpoint => by
    obtain ⟨point, rfl, hclear⟩ := exists_of_afterPoint? (eq_of_beq hpoint)
    rw [List.append_nil] at h
    exact absurd hc (Bool.eq_false_iff.1 (hclear c h))
  have habove : isAbove segment = false := Bool.eq_false_iff.2 fun hpoints => by
    obtain ⟨rest, hfirst, hsecond⟩ := Option.bind_eq_some_iff.1 (eq_of_beq hpoints)
    obtain ⟨one, rfl, hone⟩ := exists_of_afterPoint? hfirst
    obtain ⟨two, rfl, htwo⟩ := exists_of_afterPoint? hsecond
    rw [List.append_nil] at h
    obtain h | h := List.mem_append.1 h
    · exact absurd hc (Bool.eq_false_iff.1 (hone c h))
    · exact absurd hc (Bool.eq_false_iff.1 (htwo c h))
  rw [pass, habove, hhere]
  rfl

theorem length_pathText_append (xs ys : List String) :
    (pathText (xs ++ ys)).length = (pathText xs).length + (pathText ys).length := by
  rw [pathText_append, String.length_append]

theorem length_pathText_singleton (segment : String) :
    (pathText [segment]).length = segment.length + 1 := by
  rw [← String.length_toList, pathText_cons]
  simp [pathText_toList, String.length_toList]

/-- The last segment of a path adds no more than its own text. -/
theorem length_resolve_le (above : List (List Char)) (last : List Char) :
    (pathText ((resolve above [last]).map written)).length ≤
      (pathText (above.reverse.map written)).length + (written last).length + 1 := by
  have hempty : (written []).length = 0 := rfl
  unfold resolve
  split
  · cases above with
    | nil =>
      rw [List.drop_nil, List.reverse_singleton, List.map_singleton, length_pathText_singleton]
      omega
    | cons first others =>
      simp only [List.drop_succ_cons, List.drop_zero, List.reverse_cons, List.map_append,
        List.map_singleton, length_pathText_append, length_pathText_singleton]
      omega
  · split
    · simp only [List.reverse_cons, List.map_append, List.map_singleton, length_pathText_append,
        length_pathText_singleton]
      omega
    · simp only [List.reverse_cons, List.map_append, List.map_singleton, length_pathText_append,
        length_pathText_singleton]
      omega

/-- Blanks are written out, so they make a segment longer. -/
theorem length_written_lt (last : List Char) {blanks : List Char} (hne : blanks ≠ [])
    (hmargin : ∀ c ∈ blanks, isMargin c = true) :
    (written last).length < (written (last ++ blanks)).length := by
  obtain ⟨c, others, rfl⟩ := List.exists_cons_of_ne_nil hne
  have hpos : 0 < (Percent.encodeChar Percent.inPath c).length :=
    forall_isMargin (P := fun c => 0 < (Percent.encodeChar Percent.inPath c).length) (by decide)
      (hmargin c List.mem_cons_self)
  simp only [written, String.length_ofList, Percent.encode, List.flatMap_append, List.flatMap_cons,
    List.length_append]
  omega

/-! ### What a base comes to -/

/-- The segments that a text leaves for what follows it. -/
def folder (stem : List Char) : List String :=
  ((segments (below stem)).foldl pass []).reverse.map written

namespace IsStem

variable {rest stem blanks : List Char} {name : Host} {port : Option Nat}

/-- A path of plain segments behind a stem is found below the segments of the stem. -/
theorem readWeb_plain (h : IsStem scheme rest stem blanks) (hplain : ∀ s ∈ segs, IsPlain s)
    (hne : segs ≠ []) (hsplit : splitPath true [] cs = segs.map String.toList) (hbare : IsBare cs) :
    readWeb scheme (stem ++ '/' :: cs) = (readAuthority scheme (authority stem) false).map
      fun (name, port) => ⟨scheme, .hosted name port (folder stem ++ segs), none, none⟩ := by
  obtain ⟨hquery, hfragment⟩ := isBare_iff.1 hbare
  have hwritten : (segs.map String.toList).map written = segs := by
    rw [List.map_map]
    exact (List.map_congr_left fun s hs => (hplain s hs).written_eq).trans (List.map_id _)
  rw [h.readWeb_append, isBare_iff_body.1 hbare, hquery, hfragment, hsplit,
    IsPlain.resolve_eq hplain hne, List.map_append, hwritten, ← folder]

/-- Nothing but a slash behind a stem is an empty segment. -/
theorem readWeb_slash (h : IsStem scheme rest stem blanks) :
    readWeb scheme (stem ++ ['/']) = (readAuthority scheme (authority stem) false).map
      fun (name, port) => ⟨scheme, .hosted name port (folder stem ++ [""]), none, none⟩ := by
  have hempty : (resolve ((segments (below stem)).foldl pass []) [[]]).map written =
      folder stem ++ [""] := by
    change (([] :: (segments (below stem)).foldl pass []).reverse).map written = _
    rw [List.reverse_cons, List.map_append]
    rfl
  have hread := h.readWeb_append []
  rw [show splitPath true [] (body []) = [[]] from rfl, hempty] at hread
  exact hread

/-- Blanks that count are no slashes, so none were taken from behind them. -/
theorem eq_append (h : IsStem scheme rest stem blanks) (hne : blanks ≠ [])
    (hmargin : ∀ c ∈ blanks, isMargin c = true) : stem = rest ++ blanks := by
  obtain ⟨k, hk⟩ := h.slashes
  cases k with
  | zero => rwa [List.replicate_zero, List.append_nil] at hk
  | succ k =>
    have hlast := congrArg List.getLast? hk
    rw [List.replicate_succ', ← List.append_assoc, List.getLast?_concat,
      List.getLast?_append_of_ne_nil _ hne] at hlast
    exact absurd (hmargin '/' (List.mem_of_getLast? hlast.symm)) (by decide)

/-- Blanks at the end of a base are part of it once a path follows: if a host is left at all, the last
segment is longer. -/
theorem length_lt_of_blanks (h : IsStem scheme rest stem blanks) (hne : blanks ≠ [])
    (hmargin : ∀ c ∈ blanks, isMargin c = true) {found left : Host × Option Nat}
    (hread : readAuthority scheme (authority rest) false = .ok found)
    (hleft : readAuthority scheme (authority stem) false = .ok left) :
    (pathText (readPath true (afterSlash true (below rest)))).length <
      (pathText (folder stem)).length := by
  have hother := exists_other_of_readAuthority h.web hread
  have hclear : ∀ c ∈ blanks, isSlash true c = false := fun c hc =>
    forall_isMargin (P := fun c => isSlash true c = false) (by decide) (hmargin c hc)
  obtain ⟨hends, hgoes⟩ := authority_append_other hother hclear
  rw [h.eq_append hne hmargin] at hleft ⊢
  cases hbelow : below rest with
  | nil =>
    obtain ⟨before, c, rfl⟩ := (List.eq_nil_or_concat blanks).resolve_left hne
    rw [List.concat_eq_append] at hends hmargin hleft
    obtain ⟨fault, hfault⟩ := readAuthority_of_blank h.web (hmargin c (by simp))
      (authority rest ++ before)
    rw [hends hbelow, ← List.append_assoc, hfault] at hleft
    cases hleft
  | cons slash path =>
    -- What stands before the last segment is the same with and without the blanks.
    obtain ⟨before, last, hlast, hlonger⟩ := splitPath_append_other true [] path
    have hafter : afterSlash true (slash :: path) = path := by
      have hslash := afterSlash_of_below hbelow []
      rwa [List.append_nil, List.append_nil] at hslash
    have hrest : readPath true path = (resolve (before.foldl pass []) [last]).map written := by
      rw [readPath, hlast, resolve_append (List.cons_ne_nil _ _)]
      rfl
    obtain ⟨c, hc⟩ := List.exists_mem_of_ne_nil _ hne
    have hstem : folder (rest ++ blanks) =
        (before.foldl pass []).reverse.map written ++ [written (last ++ blanks)] := by
      rw [folder, (hgoes (by simp [hbelow])).2, hbelow, List.cons_append, segments,
        hlonger blanks hclear, List.foldl_append, List.foldl_cons, List.foldl_nil,
        pass_of_blank (hmargin c hc) (List.mem_append_right last hc), List.reverse_cons,
        List.map_append, List.map_singleton]
    have hless := length_resolve_le (before.foldl pass []) last
    have hlong := length_written_lt last hne hmargin
    rw [hafter, hrest, hstem, length_pathText_append, length_pathText_singleton]
    omega

end IsStem

/-- What follows a query or a fragment is no part of the path. -/
theorem path_eq_of_not_isBare {rest stem blanks : List Char} {k : Nat}
    (hslashes : stem ++ List.replicate k '/' = rest ++ blanks) (hbare : ¬ IsBare rest)
    (hu : readWeb scheme rest = .ok u) {more : List Char}
    (hv : readWeb scheme (stem ++ more) = .ok v) : v.path = u.path := by
  have hstem : ¬ IsBare stem := fun hstem => hbare ⟨fun hc => hstem.1 ?_, fun hc => hstem.2 ?_⟩
  · have hbody : body rest = body (stem ++ more) := by
      rw [body_append_of_not_isBare hstem, ← body_append_of_not_isBare hstem (List.replicate k '/'),
        hslashes, body_append_of_not_isBare hbare]
    obtain ⟨_, _, -, rfl⟩ := of_readWeb hu
    obtain ⟨_, _, -, rfl⟩ := of_readWeb hv
    exact congrArg (fun cs => readPath true (afterSlash true (below cs))) hbody.symm
  all_goals
    have hmem := hslashes ▸ List.mem_append_left blanks hc
    exact (List.mem_append.1 hmem).resolve_right fun hslash =>
      absurd (List.eq_of_mem_replicate hslash) (by decide)

/-- How a base is read alone, and how with plain segments or nothing behind it. -/
structure Joint (base : String) (u : Url) (rest stem : List Char) : Prop where
  alone : readWeb u.scheme rest = .ok u
  slashes : ∃ k, stem ++ List.replicate k '/' = rest ++ lateBlanks base.toList
  nothing : ofText (endpoint base "") = readWeb u.scheme (stem ++ ['/'])
  path : ∀ segs, (∀ s ∈ segs, IsPlain s) → segs ≠ [] → ∃ cs, IsBare cs ∧
    splitPath true [] cs = segs.map String.toList ∧
    ofText (endpoint base (pathText segs)) = readWeb u.scheme (stem ++ '/' :: cs)

theorem exists_joint (h : ofText base = .ok u) (web : IsWeb u.scheme) :
    ∃ rest stem, Joint base u rest stem := by
  obtain ⟨rest, hscheme, -⟩ := exists_rest h
  obtain ⟨stem, k, hslashes, hjoin⟩ := exists_stem hscheme
  refine ⟨rest, stem, ofText_web web hscheme ▸ h, ⟨k, hslashes⟩,
    ofText_web web (hjoin "" (endsFirmly_slashes 0)), fun segs hplain hne => ?_⟩
  obtain ⟨cs, hcs, hdrop, hchars, hsplit⟩ := IsPlain.path_chars hplain hne
  have hplace : (pathText segs).toList.dropWhile (· == '/') = cs := by
    rw [hcs]
    simpa using hdrop
  have haddress := hjoin (pathText segs)
  rw [hplace, List.filter_eq_self.2 fun c hc => (hchars c hc).2.1] at haddress
  exact ⟨cs, ⟨fun hc => (hchars _ hc).2.2 (by simp), fun hc => (hchars _ hc).2.2 (by simp)⟩, hsplit,
    ofText_web web (haddress fun c hc => (hchars c (List.mem_of_getLast? hc)).1)⟩

/-- Of a base without query and fragment, all that was read but slashes at its end is found again. -/
theorem Joint.isStem {rest stem : List Char} (joint : Joint base u rest stem) (web : IsWeb u.scheme)
    (query : u.query = none) (fragment : u.fragment = none) :
    IsStem u.scheme rest stem (lateBlanks base.toList) ∧
      ∃ name port, readAuthority u.scheme (authority rest) false = .ok (name, port) ∧
        u.place = .hosted name port (readPath true (afterSlash true (below rest))) := by
  obtain ⟨k, hslashes⟩ := joint.slashes
  obtain ⟨name, port, hread, hu⟩ := of_readWeb joint.alone
  have hrest : IsBare rest := by
    rw [isBare_iff]
    rw [hu] at query fragment
    exact ⟨query, fragment⟩
  rw [isBare_iff_body.1 hrest] at hread hu
  exact ⟨.of_read web hslashes (fun _ => isMargin_of_mem_lateBlanks) hrest hread, name, port, hread,
    congrArg Url.place hu⟩

/-- A base of the web without query, fragment and blanks at its end leaves its segments for a path, but for
empty ones at their end. -/
theorem exists_folder (h : ofText base = .ok u) (web : IsWeb u.scheme) (query : u.query = none)
    (fragment : u.fragment = none) (unblank : lateBlanks base.toList = []) :
    ∃ name port folder, (∃ k, u.place = .hosted name port (folder ++ List.replicate k "")) ∧
      ofText (endpoint base "") = .ok { u with place := .hosted name port (folder ++ [""]) } ∧
      ∀ segs, (∀ s ∈ segs, IsPlain s) → segs ≠ [] →
        ofText (endpoint base (pathText segs)) =
          .ok { u with place := .hosted name port (folder ++ segs) } := by
  obtain ⟨rest, stem, joint⟩ := exists_joint h web
  obtain ⟨hstem, name, port, hread, hplace⟩ := joint.isStem web query fragment
  rw [unblank] at hstem
  obtain ⟨hsame, j, hpath⟩ := hstem.readPath_rest
  rw [hsame] at hread
  refine ⟨name, port, folder stem, ⟨j, ?_⟩, ?_, fun segs hplain hne => ?_⟩
  · rw [hplace, hpath, List.map_append, List.map_replicate]
    rfl
  · rw [joint.nothing, hstem.readWeb_slash, hread, query, fragment]
    rfl
  · obtain ⟨cs, hbare, hsplit, haddress⟩ := joint.path segs hplain hne
    rw [haddress, hstem.readWeb_plain hplain hne hsplit hbare, hread, query, fragment]
    rfl

/-- What is found below the segments that a base leaves is below the path of the base exactly if these do
not end in a slash. -/
theorem lands_iff_folder (web : IsWeb u.scheme) {name : Host} {port : Option Nat} {folder : List String}
    {k : Nat} (hplace : u.place = .hosted name port (folder ++ List.replicate k "")) :
    Lands u (pathText segs) { u with place := .hosted name port (folder ++ segs) } ↔
      ¬ ['/', '/'] <:+ (pathText (folder ++ [""])).toList := by
  have hpath : unslashed (pathText u.path) = unslashed (pathText folder) := by
    rw [Url.path, hplace, unslashed_empties]
  have hslashed : (pathText (folder ++ [""])).toList = (pathText folder).toList ++ ['/'] := by
    rw [pathText_append, String.toList_append]
    rfl
  rw [hslashed, ← unslashed_eq_self_iff]
  constructor
  · intro hlands
    have htext : pathText (folder ++ segs) = _ := hlands.path
    rw [hpath, pathText_append, ← String.toList_inj, String.toList_append,
      String.toList_append] at htext
    exact String.toList_injective (List.append_cancel_right htext.symm)
  · intro hself
    refine ⟨web, rfl, by rw [server?, server?, hplace], ?_⟩
    change pathText (folder ++ segs) = _
    rw [hpath, hself, pathText_append]

/-- A base with a query or a fragment takes a path into these. -/
theorem Lands.bare (h : ofText base = .ok u) (hplain : ∀ s ∈ segs, IsPlain s) (hne : segs ≠ [])
    (hv : ofText (endpoint base (pathText segs)) = .ok v) (hlands : Lands u (pathText segs) v) :
    u.query = none ∧ u.fragment = none := by
  obtain ⟨rest, stem, joint⟩ := exists_joint h (hlands.scheme ▸ hlands.web)
  obtain ⟨k, hslashes⟩ := joint.slashes
  obtain ⟨cs, -, -, haddress⟩ := joint.path segs hplain hne
  rw [haddress] at hv
  have hrest : IsBare rest := by
    by_contra hrest
    exact hlands.path_ne hplain hne (path_eq_of_not_isBare hslashes hrest joint.alone hv)
  obtain ⟨_, _, -, hu⟩ := of_readWeb joint.alone
  rw [hu]
  exact isBare_iff.1 hrest

/-- Blanks at the end of a base become a part of its path, or of its host, which is none then. -/
theorem Lands.unblank (h : ofText base = .ok u) (hplain : ∀ s ∈ segs, IsPlain s) (hne : segs ≠ [])
    (hv : ofText (endpoint base (pathText segs)) = .ok v) (hlands : Lands u (pathText segs) v) :
    lateBlanks base.toList = [] := by
  by_contra hblank
  have web : IsWeb u.scheme := hlands.scheme ▸ hlands.web
  obtain ⟨query, fragment⟩ := hlands.bare h hplain hne hv
  obtain ⟨rest, stem, joint⟩ := exists_joint h web
  obtain ⟨hstem, name, port, hread, hplace⟩ := joint.isStem web query fragment
  obtain ⟨cs, hbare, hsplit, haddress⟩ := joint.path segs hplain hne
  rw [haddress, hstem.readWeb_plain hplain hne hsplit hbare] at hv
  cases hleft : readAuthority u.scheme (authority stem) false with
  | error fault =>
    rw [hleft] at hv
    cases hv
  | ok left =>
    rw [hleft] at hv
    have hlonger := hstem.length_lt_of_blanks hblank (fun _ => isMargin_of_mem_lateBlanks) hread hleft
    have hcut := length_unslashed_le (pathText u.path)
    have htext := congrArg String.length hlands.path
    rw [← Except.ok.inj hv] at htext
    change (pathText (folder stem ++ segs)).length = _ at htext
    rw [String.length_append, length_pathText_append] at htext
    rw [show u.path = readPath true (afterSlash true (below rest)) by rw [Url.path, hplace]] at hcut htext
    omega

/-- A path of plain segments that is joined with an accepted base leads below the path of the base, on the
same server, exactly if the base is one that paths can be joined with. -/
theorem lands_iff (h : ofText base = .ok u) (hplain : ∀ s ∈ segs, IsPlain s) (hne : segs ≠ []) :
    (∃ v, ofText (endpoint base (pathText segs)) = .ok v ∧ Lands u (pathText segs) v) ↔
      Joinable base u := by
  constructor
  · rintro ⟨v, hv, hlands⟩
    have web : IsWeb u.scheme := hlands.scheme ▸ hlands.web
    obtain ⟨query, fragment⟩ := hlands.bare h hplain hne hv
    have unblank := hlands.unblank h hplain hne hv
    obtain ⟨name, port, folder, ⟨k, hplace⟩, hnothing, hpath⟩ :=
      exists_folder h web query fragment unblank
    rw [hpath segs hplain hne] at hv
    rw [← Except.ok.inj hv] at hlands
    refine ⟨web, query, fragment, unblank, fun w hw => ?_⟩
    rw [hnothing] at hw
    rw [← Except.ok.inj hw]
    exact (lands_iff_folder web hplace).1 hlands
  · intro hj
    obtain ⟨name, port, folder, ⟨k, hplace⟩, hnothing, hpath⟩ :=
      exists_folder h hj.web hj.query hj.fragment hj.unblank
    have hsingle := hj.single _ hnothing
    exact ⟨_, hpath segs hplain hne, (lands_iff_folder hj.web hplace).2 hsingle⟩

end Concierge.Url
