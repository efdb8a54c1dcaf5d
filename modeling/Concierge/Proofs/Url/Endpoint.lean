import Concierge.Proofs.Url.Path
import Mathlib.Data.List.DropRight
import Mathlib.Data.List.TakeWhile

/-!
# What becomes of a path behind a base address

A base address without query and fragment is joined with a path as text, and the whole is read again.
The host and the segments of the base come out as they would alone: nothing in the path changes how the
text before it is read.  What the path itself comes to depends on nothing but its own characters and those
segments.
-/

namespace Concierge.Url

variable {cs before rest : List Char} {s scheme : String} {u : Url}

/-! ## What counts of an address -/

/-- Characters that do not count at the ends of an address. -/
def isMargin (c : Char) : Bool := c.toNat ≤ 0x20

/-- Characters that count inside an address. -/
def isKept (c : Char) : Bool := c != '\t' && c != '\n' && c != '\r'

/-- The characters that count. -/
def essence (cs : List Char) : List Char :=
  ((cs.dropWhile isMargin).rdropWhile isMargin).filter isKept

/-- The part before the query and the fragment. -/
def body (cs : List Char) : List Char := (cs.takeWhile (· != '#')).takeWhile (· != '?')

/-- The fragment, if there is one. -/
def fragmentOf (cs : List Char) : Option String :=
  (splitFragment cs).2.map fun f => String.ofList (Percent.encode Percent.inFragment f)

/-- The query, if there is one. -/
def queryOf (cs : List Char) : Option String :=
  (splitQuery (splitFragment cs).1).2.map fun q => String.ofList (Percent.encode Percent.inSpecialQuery q)

/-- Slashes before an authority are passed over; it ends at the next one. -/
def authority (cs : List Char) : List Char :=
  (cs.dropWhile (isSlash true)).takeWhile (! isSlash true ·)

/-- What stands below the authority. -/
def below (cs : List Char) : List Char :=
  (cs.dropWhile (isSlash true)).dropWhile (! isSlash true ·)

/-- A segment as it is written. -/
def written (segment : List Char) : String := String.ofList (Percent.encode Percent.inPath segment)

/-! ## Reading an address of the web -/

theorem scheme?_eq_some_iff {name : String} :
    scheme? cs = some (name, rest) ↔ ∃ letters, cs = letters ++ ':' :: rest ∧
      (∀ c ∈ letters, isSchemeChar c = true) ∧ letters.head?.map Char.isAlpha = some true ∧
      name = String.ofList (letters.map Char.toLower) := by
  constructor
  · intro h
    unfold scheme? at h
    simp only at h
    split at h
    · next hfirst hrest =>
      obtain ⟨hname, rfl⟩ := Prod.mk.inj (Option.some.inj h)
      refine ⟨cs.takeWhile isSchemeChar, ?_, fun c hc => List.mem_takeWhile_imp hc, hfirst, hname.symm⟩
      rw [← hrest, List.takeWhile_append_dropWhile]
    · cases h
  · rintro ⟨letters, rfl, hletters, hfirst, rfl⟩
    have hcolon : ¬ isSchemeChar ':' = true := by decide
    have htake : (letters ++ ':' :: rest).takeWhile isSchemeChar = letters := by
      rw [List.takeWhile_append_of_pos hletters, List.takeWhile_cons_of_neg hcolon, List.append_nil]
    have hdrop : (letters ++ ':' :: rest).dropWhile isSchemeChar = ':' :: rest := by
      rw [List.dropWhile_append_of_pos hletters, List.dropWhile_cons_of_neg hcolon]
    simp only [scheme?, htake, hdrop, hfirst]

theorem scheme?_append {name : String} (h : scheme? cs = some (name, rest)) (more : List Char) :
    scheme? (cs ++ more) = some (name, rest ++ more) := by
  obtain ⟨letters, rfl, hletters⟩ := scheme?_eq_some_iff.1 h
  exact scheme?_eq_some_iff.2 ⟨letters, by simp, hletters⟩

/-- Slashes behind a scheme are no part of it. -/
theorem scheme?_of_slashes {name : String} {k : Nat}
    (h : scheme? (cs ++ List.replicate k '/') = some (name, rest)) :
    ∃ rest₀, scheme? cs = some (name, rest₀) ∧ rest = rest₀ ++ List.replicate k '/' := by
  obtain ⟨letters, hcs, hletters⟩ := scheme?_eq_some_iff.1 h
  have hslashes {more : List Char} (hmore : ':' :: more = List.replicate k '/') : False := by
    have hcolon : ':' ∈ List.replicate k '/' := hmore ▸ List.mem_cons_self
    exact absurd (List.eq_of_mem_replicate hcolon) (by decide)
  obtain ⟨as, rfl, hsuffix⟩ | ⟨bs, rfl, hsuffix⟩ := List.append_eq_append_iff.1 hcs
  · have hcolon : ':' ∈ List.replicate k '/' := hsuffix ▸ by simp
    exact absurd (List.eq_of_mem_replicate hcolon) (by decide)
  · cases bs with
    | nil => exact (hslashes hsuffix).elim
    | cons c more =>
      obtain ⟨rfl, rfl⟩ := List.cons.inj hsuffix
      exact ⟨more, scheme?_eq_some_iff.2 ⟨letters, rfl, hletters⟩, rfl⟩

/-- The schemes that requests are sent with. -/
def IsWeb (scheme : String) : Prop := scheme = "http" ∨ scheme = "https"

theorem IsWeb.isSpecial (h : IsWeb scheme) : isSpecial scheme = true := by
  obtain rfl | rfl := h <;> decide

theorem IsWeb.ne_file (h : IsWeb scheme) : scheme ≠ "file" := by
  obtain rfl | rfl := h <;> decide

/-- Of an address of the web, whether anything follows makes no difference to the host. -/
theorem readAuthority_special (h : isSpecial scheme = true) (cs : List Char)
    (nothingFollows : Bool) :
    readAuthority scheme cs nothingFollows = readAuthority scheme cs false := by
  unfold readAuthority
  cases splitUser cs with
  | mk user after =>
    cases after with
    | nil => simp [splitHost, h]
    | cons c more => simp

theorem readAuthority_nil (h : isSpecial scheme = true) :
    readAuthority scheme [] false = .error .emptyHost := by
  simp [readAuthority, splitUser, splitHost, h]

theorem drop_authority (cs : List Char) :
    (cs.dropWhile (isSlash true)).drop (authority cs).length = below cs := by
  have hsplit : authority cs ++ below cs = cs.dropWhile (isSlash true) :=
    List.takeWhile_append_dropWhile
  rw [← hsplit, List.drop_left]

theorem readPlace_web (web : IsWeb scheme) (cs : List Char) (nothingFollows : Bool) :
    readPlace scheme cs nothingFollows =
      (readAuthority scheme (authority cs) false).map fun (host, port) =>
        .hosted host port (readPath true (afterSlash true (below cs))) := by
  unfold readPlace
  simp only [web.isSpecial, web.ne_file, true_or, if_true, if_false, Bool.not_true,
    Bool.false_eq_true, and_false]
  have hdrop := drop_authority cs
  rw [authority] at hdrop
  rw [hdrop, readAuthority_special web.isSpecial]
  rfl

/-- What is read of an address of the web behind its scheme. -/
def readWeb (scheme : String) (rest : List Char) : Except Fault Url :=
  (readAuthority scheme (authority (body rest)) false).map fun (host, port) =>
    ⟨scheme, .hosted host port (readPath true (afterSlash true (below (body rest)))), queryOf rest,
      fragmentOf rest⟩

theorem ofText_eq (s : String) :
    ofText s = match scheme? (essence s.toList) with
      | none => .error .relative
      | some (scheme, rest) =>
        let (beforeFragment, fragment) := splitFragment rest
        let (beforeQuery, query) := splitQuery beforeFragment
        let inQuery := if isSpecial scheme then Percent.inSpecialQuery else Percent.inQuery
        (readPlace scheme beforeQuery (query.isNone && fragment.isNone)).map fun place =>
          ⟨scheme, place, query.map fun q => String.ofList (Percent.encode inQuery q),
            fragment.map fun f => String.ofList (Percent.encode Percent.inFragment f)⟩ := rfl

theorem ofText_web (web : IsWeb scheme) (h : scheme? (essence s.toList) = some (scheme, rest)) :
    ofText s = readWeb scheme rest := by
  rw [ofText_eq, h]
  simp only [web.isSpecial, if_true]
  change (readPlace scheme (body rest) _).map _ = _
  rw [readPlace_web web, readWeb]
  cases readAuthority scheme (authority (body rest)) false with
  | error fault => rfl
  | ok found => rfl

/-- The parts of what was read. -/
theorem of_readWeb (h : readWeb scheme rest = .ok u) :
    ∃ host port, readAuthority scheme (authority (body rest)) false = .ok (host, port) ∧
      u = ⟨scheme, .hosted host port (readPath true (afterSlash true (below (body rest)))),
        queryOf rest, fragmentOf rest⟩ := by
  unfold readWeb at h
  cases hfound : readAuthority scheme (authority (body rest)) false with
  | error fault =>
    rw [hfound] at h
    cases h
  | ok found =>
    rw [hfound] at h
    exact ⟨found.1, found.2, rfl, (Except.ok.inj h).symm⟩

/-! ## Queries and fragments -/

theorem head?_dropWhile_eq_none {c : Char} : (cs.dropWhile (· != c)).head? = none ↔ c ∉ cs := by
  rw [List.head?_eq_none_iff, List.dropWhile_eq_nil_iff]
  constructor
  · intro h hmem
    exact absurd rfl (bne_iff_ne.1 (h c hmem))
  · rintro h d hd
    exact bne_iff_ne.2 fun heq => h (heq ▸ hd)

theorem fragmentOf_eq_none : fragmentOf cs = none ↔ '#' ∉ cs := by
  rw [fragmentOf, splitFragment, Option.map_eq_none_iff, Option.map_eq_none_iff,
    head?_dropWhile_eq_none]

theorem queryOf_eq_none : queryOf cs = none ↔ '?' ∉ cs.takeWhile (· != '#') := by
  rw [queryOf, splitQuery, Option.map_eq_none_iff, Option.map_eq_none_iff,
    head?_dropWhile_eq_none]
  rfl

/-- A text without query and fragment. -/
def IsBare (cs : List Char) : Prop := '?' ∉ cs ∧ '#' ∉ cs

theorem isBare_iff : IsBare cs ↔ queryOf cs = none ∧ fragmentOf cs = none := by
  rw [queryOf_eq_none, fragmentOf_eq_none]
  have htake (h : '#' ∉ cs) : cs.takeWhile (· != '#') = cs :=
    List.takeWhile_eq_self_iff.2 fun c hc => bne_iff_ne.2 fun heq => h (heq ▸ hc)
  constructor
  · rintro ⟨hquery, hfragment⟩
    rw [htake hfragment]
    exact ⟨hquery, hfragment⟩
  · rintro ⟨hquery, hfragment⟩
    rw [htake hfragment] at hquery
    exact ⟨hquery, hfragment⟩

/-- Query and fragment of a text are those of what follows a part that has none. -/
theorem split_append (h : IsBare before) (cs : List Char) :
    body (before ++ cs) = before ++ body cs ∧ queryOf (before ++ cs) = queryOf cs ∧
      fragmentOf (before ++ cs) = fragmentOf cs := by
  have hhash : ∀ c ∈ before, (c != '#') = true := fun c hc => bne_iff_ne.2 fun heq => h.2 (heq ▸ hc)
  have hmark : ∀ c ∈ before, (c != '?') = true := fun c hc => bne_iff_ne.2 fun heq => h.1 (heq ▸ hc)
  refine ⟨?_, ?_, ?_⟩
  · rw [body, List.takeWhile_append_of_pos hhash, List.takeWhile_append_of_pos hmark, body]
  · rw [queryOf, splitFragment, splitQuery, List.takeWhile_append_of_pos hhash,
      List.dropWhile_append_of_pos hmark]
    rfl
  · rw [fragmentOf, splitFragment, List.dropWhile_append_of_pos hhash]
    rfl

/-- The characters before a query and a fragment. -/
theorem of_mem_body {c : Char} (h : c ∈ body cs) : c ∈ cs ∧ c ≠ '?' ∧ c ≠ '#' := by
  have hfirst : c ∈ cs.takeWhile (· != '#') := (List.takeWhile_sublist _).mem h
  have hmark := List.mem_takeWhile_imp h
  have hhash := List.mem_takeWhile_imp hfirst
  exact ⟨(List.takeWhile_sublist _).mem hfirst, bne_iff_ne.1 hmark, bne_iff_ne.1 hhash⟩

theorem body_sublist (cs : List Char) : (body cs).Sublist cs :=
  (List.takeWhile_sublist _).trans (List.takeWhile_sublist _)

theorem isBare_iff_body : IsBare cs ↔ body cs = cs := by
  constructor
  · intro h
    have hempty := (split_append h []).1
    rwa [List.append_nil, show body [] = [] from rfl, List.append_nil] at hempty
  · intro h
    exact ⟨fun hc => (of_mem_body (h.symm ▸ hc)).2.1 rfl, fun hc => (of_mem_body (h.symm ▸ hc)).2.2 rfl⟩

/-- What a text ends with does not count if the text has a query or a fragment. -/
theorem body_append_of_not_isBare (h : ¬ IsBare cs) (more : List Char) :
    body (cs ++ more) = body cs := by
  rw [body, body, List.takeWhile_takeWhile, List.takeWhile_takeWhile, List.takeWhile_append, if_neg]
  intro hall
  have hplain := List.takeWhile_eq_self_iff.1 ((List.takeWhile_prefix _).eq_of_length hall)
  refine h ⟨fun hc => ?_, fun hc => ?_⟩
  · simpa using hplain _ hc
  · simpa using hplain _ hc

/-- Every address that can be read has a scheme, and a query if a question mark follows. -/
theorem exists_rest (h : ofText s = .ok u) :
    ∃ rest, scheme? (essence s.toList) = some (u.scheme, rest) ∧
      (u.query = none ↔ '?' ∉ rest.takeWhile (· != '#')) := by
  rw [ofText_eq] at h
  cases hscheme : scheme? (essence s.toList) with
  | none =>
    rw [hscheme] at h
    cases h
  | some found =>
    obtain ⟨scheme, rest⟩ := found
    rw [hscheme] at h
    simp only at h
    cases hplace : readPlace scheme (splitQuery (splitFragment rest).1).1
        ((splitQuery (splitFragment rest).1).2.isNone && (splitFragment rest).2.isNone) with
    | error fault =>
      rw [hplace] at h
      cases h
    | ok place =>
      rw [hplace] at h
      rw [← Except.ok.inj h]
      refine ⟨rest, rfl, ?_⟩
      rw [Option.map_eq_none_iff, splitQuery, Option.map_eq_none_iff, head?_dropWhile_eq_none]
      rfl

/-- An address without a question mark has no query. -/
theorem query_eq_none_of_not_mem (h : ofText s = .ok u) (hs : '?' ∉ s.toList) : u.query = none := by
  obtain ⟨rest, hscheme, hquery⟩ := exists_rest h
  obtain ⟨letters, hessence, -⟩ := scheme?_eq_some_iff.1 hscheme
  refine hquery.2 fun hc => ?_
  have hc : '?' ∈ essence s.toList := by
    rw [hessence]
    exact List.mem_append_right _ (List.mem_cons_of_mem _ ((List.takeWhile_sublist _).mem hc))
  exact hs ((List.dropWhile_sublist _).mem
    ((List.rdropWhile_prefix _ _).mem (List.mem_of_mem_filter hc)))

/-! ## Joining -/

/-- A text ends in a character that counts, or is empty. -/
def EndsFirmly (cs : List Char) : Prop := ∀ c ∈ cs.getLast?, isMargin c = false

/-- Of a text that goes on with a slash, only the beginning is trimmed. -/
theorem essence_append (before : List Char) {cs : List Char} (h : EndsFirmly cs) :
    essence (before ++ '/' :: cs) =
      (before.dropWhile isMargin).filter isKept ++ '/' :: cs.filter isKept := by
  have hdrop : (before ++ '/' :: cs).dropWhile isMargin = before.dropWhile isMargin ++ '/' :: cs := by
    rw [List.dropWhile_append]
    split
    · next hempty =>
      rw [List.isEmpty_iff.1 hempty]
      rfl
    · rfl
  have hlast : (before.dropWhile isMargin ++ '/' :: cs).rdropWhile isMargin =
      before.dropWhile isMargin ++ '/' :: cs := by
    rw [List.rdropWhile_eq_self_iff]
    intro hl
    rw [List.getLast_append_of_ne_nil _ (List.cons_ne_nil _ _)]
    cases cs with
    | nil => decide
    | cons c more =>
      rw [List.getLast_cons (List.cons_ne_nil _ _)]
      exact Bool.eq_false_iff.1 (h _ (List.getLast?_eq_some_getLast _))
  rw [essence, hdrop, hlast, List.filter_append, List.filter_cons_of_pos (by decide)]

/-- The blanks at the end of a text: alone, a text is read without them, but they count as soon as
something follows. -/
def lateBlanks (cs : List Char) : List Char :=
  ((cs.dropWhile isMargin).rtakeWhile isMargin).filter isKept

theorem isMargin_of_mem_lateBlanks {c : Char} (h : c ∈ lateBlanks cs) : isMargin c = true :=
  List.mem_rtakeWhile_imp (List.mem_of_mem_filter h)

/-- Blanks at the end of a text are all that is trimmed there. -/
theorem essence_lateBlanks (cs : List Char) :
    (cs.dropWhile isMargin).filter isKept = essence cs ++ lateBlanks cs := by
  rw [essence, lateBlanks, ← List.filter_append, List.rdropWhile_append_rtakeWhile]

theorem EndsFirmly.lateBlanks (h : EndsFirmly cs) : lateBlanks cs = [] := by
  have hnone : (cs.dropWhile isMargin).rtakeWhile isMargin = [] := by
    rw [List.rtakeWhile_eq_nil_iff]
    intro hl
    obtain ⟨trimmed, htrimmed⟩ := List.dropWhile_suffix isMargin (l := cs)
    have hlast : cs.getLast? = some ((cs.dropWhile isMargin).getLast hl) := by
      rw [← List.getLast?_eq_some_getLast hl, ← List.getLast?_append_of_ne_nil trimmed hl, htrimmed]
    exact Bool.eq_false_iff.1 (h _ hlast)
  rw [Url.lateBlanks, hnone, List.filter_nil]

theorem endsFirmly_slashes (k : Nat) : EndsFirmly (List.replicate k '/') := fun c hc => by
  rw [List.eq_of_mem_replicate (List.mem_of_getLast? hc)]
  decide

theorem endpoint_toList (base path : String) :
    (endpoint base path).toList =
      base.toList.rdropWhile (· == '/') ++ '/' :: path.toList.dropWhile (· == '/') :=
  String.toList_ofList

/-- What stands before a path when it is joined with a base is what was read of the base, but for
slashes at its end; and for blanks there, which count once something follows them. -/
theorem exists_stem {base name : String} (h : scheme? (essence base.toList) = some (name, rest)) :
    ∃ stem k, stem ++ List.replicate k '/' = rest ++ lateBlanks base.toList ∧
      ∀ path : String, EndsFirmly (path.toList.dropWhile (· == '/')) →
        scheme? (essence (endpoint base path).toList) =
          some (name, stem ++ '/' :: (path.toList.dropWhile (· == '/')).filter isKept) := by
  obtain ⟨k, hk⟩ : ∃ k, base.toList.rtakeWhile (· == '/') = List.replicate k '/' :=
    ⟨_, List.eq_replicate_iff.2 ⟨rfl, fun c hc => by simpa using List.mem_rtakeWhile_imp hc⟩⟩
  have hbase : base.toList.rdropWhile (· == '/') ++ List.replicate k '/' = base.toList := by
    rw [← hk, List.rdropWhile_append_rtakeWhile]
  generalize hstem : base.toList.rdropWhile (· == '/') = before at hbase
  have htrim : (before.dropWhile isMargin).filter isKept ++ List.replicate k '/' =
      essence base.toList ++ lateBlanks base.toList := by
    cases k with
    | zero =>
      rw [List.replicate_zero, List.append_nil] at hbase
      rw [List.replicate_zero, List.append_nil, hbase, essence_lateBlanks]
    | succ k =>
      have hessence := essence_append before (endsFirmly_slashes k)
      rw [← List.replicate_succ, hbase] at hessence
      have hfirm : EndsFirmly base.toList := fun c hc => by
        rw [← hbase, List.getLast?_append_of_ne_nil _ (by simp)] at hc
        exact endsFirmly_slashes (k + 1) c hc
      rw [hessence, hfirm.lateBlanks, List.filter_replicate, if_pos (by decide), List.append_nil,
        List.replicate_succ]
  have hmore := scheme?_append h (lateBlanks base.toList)
  rw [← htrim] at hmore
  obtain ⟨stem, hscheme, hrest⟩ := scheme?_of_slashes hmore
  refine ⟨stem, k, hrest.symm, fun path hpath => ?_⟩
  rw [endpoint_toList, hstem, essence_append before hpath]
  exact scheme?_append hscheme _

/-- Slashes alone name no host. -/
theorem exists_other_of_readAuthority (web : IsWeb scheme) {found : Host × Option Nat}
    (h : readAuthority scheme (authority cs) false = .ok found) :
    ∃ c ∈ cs, isSlash true c = false := by
  by_contra hnone
  have hslashes : ∀ c ∈ cs, isSlash true c = true := fun c hc =>
    eq_true_of_ne_false fun hother => hnone ⟨c, hc, hother⟩
  rw [authority, List.dropWhile_eq_nil_iff.2 hslashes, List.takeWhile_nil,
    readAuthority_nil web.isSpecial] at h
  cases h

/-- Slashes are passed over only up to the first other character. -/
theorem dropWhile_append_of_other (h : ∃ c ∈ cs, isSlash true c = false) (more : List Char) :
    (cs ++ more).dropWhile (isSlash true) = cs.dropWhile (isSlash true) ++ more := by
  obtain ⟨c, hc, hother⟩ := h
  rw [List.dropWhile_append, if_neg]
  intro hempty
  have hslash := List.dropWhile_eq_nil_iff.1 (List.isEmpty_iff.1 hempty) c hc
  rw [hother] at hslash
  cases hslash

/-- An authority ends at a slash, whatever follows. -/
theorem authority_append (h : ∃ c ∈ cs, isSlash true c = false) {more : List Char}
    (hmore : more = [] ∨ ∃ after, more = '/' :: after) :
    authority (cs ++ more) = authority cs ∧ below (cs ++ more) = below cs ++ more := by
  have hdrop := dropWhile_append_of_other h more
  have htake : more.takeWhile (! isSlash true ·) = [] := by
    obtain rfl | ⟨after, rfl⟩ := hmore <;> rfl
  have hkeep : more.dropWhile (! isSlash true ·) = more := by
    obtain rfl | ⟨after, rfl⟩ := hmore <;> rfl
  refine ⟨?_, ?_⟩
  · rw [authority, authority, hdrop, List.takeWhile_append, htake, List.append_nil]
    split
    · next hall => exact ((List.takeWhile_prefix _).eq_of_length hall).symm
    · rfl
  · rw [below, below, hdrop, List.dropWhile_append, hkeep]
    split
    · next hempty => rw [List.isEmpty_iff.1 hempty, List.nil_append]
    · rfl

/-- The segments below an authority. -/
def segments : List Char → List (List Char)
  | [] => []
  | _ :: path => splitPath true [] path

/-- What is below an authority begins with a slash. -/
theorem afterSlash_of_below {c : Char} {path : List Char} (h : below cs = c :: path)
    (more : List Char) : afterSlash true (c :: path ++ more) = path ++ more := by
  have hslash := List.head?_dropWhile_not (! isSlash true ·) (cs.dropWhile (isSlash true))
  rw [← below, h] at hslash
  exact if_pos (by simpa using hslash)

theorem splitPath_below (cs more : List Char) :
    splitPath true [] (afterSlash true (below cs ++ '/' :: more)) =
      segments (below cs) ++ splitPath true [] more := by
  cases hbelow : below cs with
  | nil => rfl
  | cons c path =>
    rw [afterSlash_of_below hbelow, splitPath_append_slash [] path (by decide)]
    rfl

/-- What is below an authority, with slashes behind it, comes to its segments and empty ones. -/
theorem resolve_below (cs : List Char) (k : Nat) :
    ∃ j, resolve [] (splitPath true [] (afterSlash true (below cs ++ List.replicate k '/'))) =
      ((segments (below cs)).foldl pass []).reverse ++ List.replicate j [] := by
  cases k with
  | succ k =>
    refine ⟨k + 1, ?_⟩
    rw [List.replicate_succ, splitPath_below, splitPath_slashes, resolve_append (by simp),
      resolve_empties]
  | zero =>
    cases hbelow : below cs with
    | nil => exact ⟨1, rfl⟩
    | cons c path =>
      rw [afterSlash_of_below hbelow, List.replicate_zero, List.append_nil]
      exact resolve_eq (splitPath_ne_nil _ _) []

/-! ## A path behind a base -/

/-- What was read of a base is found again before a path that is joined with it. -/
structure IsStem (scheme : String) (rest stem blanks : List Char) : Prop where
  web : IsWeb scheme
  bare : IsBare stem
  other : ∃ c ∈ stem, isSlash true c = false
  slashes : ∃ k, stem ++ List.replicate k '/' = rest ++ blanks

namespace IsStem

variable {stem blanks : List Char}

/-- A stem of what was read of an address without query and fragment. -/
theorem of_read (web : IsWeb scheme) {k : Nat} (hslashes : stem ++ List.replicate k '/' = rest ++ blanks)
    (hmargin : ∀ c ∈ blanks, isMargin c = true) (hbare : IsBare rest) {found : Host × Option Nat}
    (hread : readAuthority scheme (authority rest) false = .ok found) :
    IsStem scheme rest stem blanks := by
  -- Everything in the stem is in what was read of the base, or a blank.
  have hmem : ∀ c ∈ stem, c ∈ rest ∨ isMargin c = true := fun c hc => by
    have hc : c ∈ rest ++ blanks := hslashes ▸ List.mem_append_left _ hc
    exact (List.mem_append.1 hc).imp_right (hmargin c)
  refine ⟨web, ⟨fun hc => (hmem _ hc).elim hbare.1 (by decide),
    fun hc => (hmem _ hc).elim hbare.2 (by decide)⟩, ?_, k, hslashes⟩
  obtain ⟨c, hc, hother⟩ := exists_other_of_readAuthority web hread
  have hc : c ∈ stem ++ List.replicate k '/' := hslashes ▸ List.mem_append_left _ hc
  refine ⟨c, (List.mem_append.1 hc).resolve_right fun hslash => ?_, hother⟩
  rw [List.eq_of_mem_replicate hslash] at hother
  cases hother

/-- A text that begins with a stem and a slash is read as the stem is, with what follows resolved below
its segments. -/
theorem readWeb_append (h : IsStem scheme rest stem blanks) (kept : List Char) :
    readWeb scheme (stem ++ '/' :: kept) =
      (readAuthority scheme (authority stem) false).map fun (name, port) =>
        ⟨scheme, .hosted name port ((resolve ((segments (below stem)).foldl pass [])
          (splitPath true [] (body kept))).map written), queryOf kept, fragmentOf kept⟩ := by
  have hslash : IsBare (stem ++ ['/']) := ⟨by simpa using h.bare.1, by simpa using h.bare.2⟩
  obtain ⟨hbody, hquery, hfragment⟩ := split_append hslash kept
  rw [List.append_assoc, List.singleton_append] at hbody hquery hfragment
  rw [List.append_assoc, List.singleton_append] at hbody
  obtain ⟨hauthority, hbelow⟩ := authority_append h.other (.inr ⟨body kept, rfl⟩)
  rw [readWeb, hbody, hquery, hfragment, hauthority, hbelow, readPath, splitPath_below,
    resolve_append (splitPath_ne_nil _ _)]
  rfl

/-- Without blanks behind it, what was read of a base has the authority of the stem and the path of the
stem, but for empty segments at its end. -/
theorem readPath_rest (h : IsStem scheme rest stem []) :
    authority rest = authority stem ∧ ∃ k, readPath true (afterSlash true (below rest)) =
      (((segments (below stem)).foldl pass []).reverse ++ List.replicate k []).map written := by
  obtain ⟨k, hrest⟩ := h.slashes
  rw [List.append_nil] at hrest
  have hslashes : List.replicate k '/' = [] ∨ ∃ after, List.replicate k '/' = '/' :: after := by
    cases k with
    | zero => exact .inl rfl
    | succ k => exact .inr ⟨_, rfl⟩
  obtain ⟨hsame, hbelow⟩ := authority_append h.other hslashes
  obtain ⟨j, hj⟩ := resolve_below stem k
  rw [hrest] at hsame hbelow
  exact ⟨hsame, j, by rw [hbelow, readPath, hj]; rfl⟩

end IsStem

/-- Behind a base without query and fragment, a path is read as if it stood alone below the segments that
the base leaves; these are its own, but for empty ones at their end. -/
theorem ofText_endpoint {base : String} (h : ofText base = .ok u) (http : u.scheme = "http")
    (query : u.query = none) (fragment : u.fragment = none) :
    ∃ host above,
      (∀ path : String, EndsFirmly (path.toList.dropWhile (· == '/')) →
        let kept := (path.toList.dropWhile (· == '/')).filter isKept
        ofText (endpoint base path) = (readAuthority "http" host false).map fun (name, port) =>
          ⟨"http", .hosted name port ((resolve above (splitPath true [] (body kept))).map written),
            queryOf kept, fragmentOf kept⟩) ∧
      (EndsFirmly base.toList → ∃ name port k, readAuthority "http" host false = .ok (name, port) ∧
        u = ⟨"http", .hosted name port ((above.reverse ++ List.replicate k []).map written), none,
          none⟩) := by
  obtain ⟨rest, hscheme, -⟩ := exists_rest h
  have web : IsWeb u.scheme := .inl http
  rw [ofText_web web hscheme] at h
  obtain ⟨name, port, hauthority, hu⟩ := of_readWeb h
  have hbare : IsBare rest := by
    rw [isBare_iff]
    rw [hu] at query fragment
    exact ⟨query, fragment⟩
  obtain ⟨stem, k, hslashes, hjoin⟩ := exists_stem hscheme
  rw [isBare_iff_body.1 hbare] at hauthority hu
  rw [http] at web hscheme hauthority hu hjoin
  have hstem := IsStem.of_read web hslashes (fun _ => isMargin_of_mem_lateBlanks) hbare hauthority
  refine ⟨authority stem, (segments (below stem)).foldl pass [], fun path hpath => ?_, fun hends => ?_⟩
  · rw [ofText_web web (hjoin path hpath), hstem.readWeb_append]
  · rw [hends.lateBlanks] at hstem
    obtain ⟨hsame, j, hpath⟩ := hstem.readPath_rest
    obtain ⟨hquery, hfragment⟩ := isBare_iff.1 hbare
    exact ⟨name, port, j, hsame ▸ hauthority, by rw [hu, hquery, hfragment, hpath]⟩

end Concierge.Url
