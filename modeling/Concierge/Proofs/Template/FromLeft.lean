import Concierge.Proofs.Template.Segments

/-!
# Templates from left to right

A template can also be filled in character by character: where the placeholder of a key begins, its value
is written and reading goes on behind it; any other character is copied.  The keys are taken to be
without braces.

Splitting a template passes over an opening mark that opens no known placeholder as a whole.  In a run of
opening braces it therefore looks at every second brace only, and a placeholder behind an odd number of
them is not seen.  Everywhere else the two agree.
-/

namespace Concierge.Template

variable {values : List (String × String)} {recognized : Nat → Bool} {run : Nat}

/-- A key without braces. -/
def IsPlain (key : String) : Prop := '\x7b' ∉ key.toList ∧ '\x7d' ∉ key.toList

instance (key : String) : Decidable (IsPlain key) := inferInstanceAs (Decidable (_ ∧ _))

/-- A placeholder consists of its key and four braces. -/
theorem length_source (key : String) :
    (Segment.placeholder key).source.length = key.toList.length + 4 := by
  simp only [Segment.source, opening, closing, List.length_append, List.length_cons, List.length_nil]
  omega

/-- The first of the values whose placeholder a text begins with. -/
def placeholderAt? (values : List (String × String)) (text : List Char) : Option (String × String) :=
  values.find? fun entry => (Segment.placeholder entry.1).source.isPrefixOf text

/-- Fill in a template from left to right, given how many opening braces stand directly before it.  That
number may decide whether a placeholder is recognized. -/
def fillFromLeft (recognized : Nat → Bool) (values : List (String × String)) (run : Nat) :
    List Char → List Char
  | [] => []
  | c :: rest =>
    match placeholderAt? values (c :: rest), recognized run with
    | some (key, value), true =>
      value.toList ++ fillFromLeft recognized values 0
        ((c :: rest).drop (Segment.placeholder key).source.length)
    | _, _ => c :: fillFromLeft recognized values (if c = '\x7b' then run + 1 else 0) rest
termination_by text => text.length
decreasing_by
  · rw [List.length_drop, length_source, List.length_cons]
    omega
  · exact Nat.lt_succ_self _

/-- Every placeholder is recognized. -/
def everywhere : Nat → Bool := fun _ => true

/-- Placeholders behind an odd number of opening braces are not recognized. -/
def afterEvenRun : Nat → Bool := fun run => run % 2 == 0

/-- How many opening braces a text ends with. -/
def openingRun (text : List Char) : Nat := (text.reverse.takeWhile (· == '\x7b')).length

/-- The placeholder of a key stands behind an odd number of opening braces. -/
def HasHidden (keys : List String) (template : List Char) : Prop :=
  ∃ before key after, key ∈ keys ∧ template = before ++ (Segment.placeholder key).source ++ after ∧
    openingRun before % 2 = 1

/-! ## Placeholders -/

theorem source_placeholder (key : String) (rest : List Char) :
    (Segment.placeholder key).source ++ rest = opening ++ (key.toList ++ closing ++ rest) := by
  simp [Segment.source]

theorem length_lt_source (key : String) (rest : List Char) :
    rest.length < ((Segment.placeholder key).source ++ rest).length := by
  rw [List.length_append, length_source]
  omega

/-- What closes the placeholder of a key. -/
theorem cut?_closing {key : String} (h : IsPlain key) (rest : List Char) :
    cut? closing (key.toList ++ closing ++ rest) = some (key.toList, rest) := cut?_append h.2

/-- A text begins with one placeholder at most. -/
theorem key_eq_of_begins {key key' : String} (h : IsPlain key) (h' : IsPlain key') {rest : List Char}
    (hbegins : (Segment.placeholder key').source <+: (Segment.placeholder key).source ++ rest) :
    key' = key := by
  obtain ⟨rest', heq⟩ := hbegins
  rw [source_placeholder, source_placeholder] at heq
  have hcut := cut?_closing h rest
  rw [← List.append_cancel_left heq, cut?_closing h' rest'] at hcut
  exact String.toList_inj.1 (congrArg Prod.fst (Option.some.inj hcut))

theorem exists_of_placeholderAt? {text : List Char} {key value : String}
    (h : placeholderAt? values text = some (key, value)) :
    (key, value) ∈ values ∧ ∃ rest, text = (Segment.placeholder key).source ++ rest := by
  refine ⟨List.mem_of_find?_eq_some h, ?_⟩
  have hbegins := List.find?_some h
  obtain ⟨rest, hrest⟩ := List.isPrefixOf_iff_prefix.1 hbegins
  exact ⟨rest, hrest.symm⟩

/-- At the placeholder of a key the first of its values is found. -/
theorem placeholderAt?_source (hplain : ∀ entry ∈ values, IsPlain entry.1) {key : String}
    (hkey : IsPlain key) (rest : List Char) :
    placeholderAt? values ((Segment.placeholder key).source ++ rest) =
      (values.lookup key).map fun value => (key, value) := by
  induction values with
  | nil => rfl
  | cons entry others ih =>
    obtain ⟨found, value⟩ := entry
    have hothers := ih fun entry hentry => hplain entry (List.mem_cons_of_mem _ hentry)
    by_cases hfound : key = found
    · subst hfound
      simp [placeholderAt?]
    · have hno : ¬ (Segment.placeholder found).source <+:
          (Segment.placeholder key).source ++ rest := by
        intro hbegins
        have hfoundPlain := hplain (found, value) List.mem_cons_self
        exact hfound (key_eq_of_begins hkey hfoundPlain hbegins).symm
      rw [placeholderAt?, List.find?_cons_of_neg (by simpa using hno), List.lookup_cons,
        beq_false_of_ne hfound]
      exact hothers

/-- Placeholders begin with an opening mark. -/
theorem placeholderAt?_of_not_opening {text : List Char} (h : ¬ opening <+: text) :
    placeholderAt? values text = none := by
  refine List.find?_eq_none.2 fun entry _ hbegins => h ?_
  refine List.IsPrefix.trans ?_ (List.isPrefixOf_iff_prefix.1 hbegins)
  rw [Segment.source, List.append_assoc]
  exact List.prefix_append _ _

/-- No placeholder begins with a brace that no other one follows. -/
theorem not_opening_of_head_ne {c : Char} {rest : List Char} (h : c = '\x7b' → rest.head? ≠ some '\x7b') :
    ¬ opening <+: c :: rest := by
  rintro ⟨tail, htail⟩
  simp only [opening, List.cons_append, List.nil_append, List.cons.injEq] at htail
  obtain ⟨rfl, rfl⟩ := htail
  exact h rfl rfl

/-! ## Reading on -/

@[simp] theorem fillFromLeft_nil : fillFromLeft recognized values run [] = [] := by rw [fillFromLeft]

theorem fillFromLeft_of_none {c : Char} {rest : List Char}
    (h : placeholderAt? values (c :: rest) = none) :
    fillFromLeft recognized values run (c :: rest) =
      c :: fillFromLeft recognized values (if c = '\x7b' then run + 1 else 0) rest := by
  rw [fillFromLeft, h]

theorem fillFromLeft_of_unrecognized {c : Char} {rest : List Char} (h : recognized run = false) :
    fillFromLeft recognized values run (c :: rest) =
      c :: fillFromLeft recognized values (if c = '\x7b' then run + 1 else 0) rest := by
  rw [fillFromLeft, h]
  cases placeholderAt? values (c :: rest) <;> rfl

theorem fillFromLeft_of_some {key value : String} {rest : List Char} (hrecognized : recognized run = true)
    (h : placeholderAt? values ((Segment.placeholder key).source ++ rest) = some (key, value)) :
    fillFromLeft recognized values run ((Segment.placeholder key).source ++ rest) =
      value.toList ++ fillFromLeft recognized values 0 rest := by
  have hcons : (Segment.placeholder key).source ++ rest =
      '\x7b' :: ('\x7b' :: (key.toList ++ closing ++ rest)) := source_placeholder key rest
  rw [hcons] at h ⊢
  rw [fillFromLeft, h, hrecognized, ← hcons]
  simp

/-- Braces before a text matter only to one that goes on with them. -/
theorem fillFromLeft_run {text : List Char} (h : text.head? ≠ some '\x7b') :
    fillFromLeft recognized values run text = fillFromLeft recognized values 0 text := by
  cases text with
  | nil => simp
  | cons c rest =>
    have hc : c ≠ '\x7b' := fun hc => h (by rw [hc]; rfl)
    have hnone : placeholderAt? values (c :: rest) = none :=
      placeholderAt?_of_not_opening (not_opening_of_head_ne fun hbrace => absurd hbrace hc)
    rw [fillFromLeft_of_none hnone, fillFromLeft_of_none hnone, if_neg hc, if_neg hc]

/-- A character at which no placeholder can begin is copied, and so is what it may have ended. -/
theorem fillFromLeft_cons {c : Char} {rest : List Char} (h : ¬ opening <+: c :: rest) :
    fillFromLeft recognized values run (c :: rest) = c :: fillFromLeft recognized values 0 rest := by
  rw [fillFromLeft_of_none (placeholderAt?_of_not_opening h)]
  by_cases hc : c = '\x7b'
  · have hhead : rest.head? ≠ some '\x7b' := by
      intro hhead
      obtain ⟨tail, rfl⟩ := List.head?_eq_some_iff.1 hhead
      exact h ⟨tail, by rw [hc]; rfl⟩
    rw [if_pos hc, fillFromLeft_run hhead]
  · rw [if_neg hc]

/-- An opening mark that opens no placeholder is copied as a whole, if the second of its braces is not
looked at. -/
theorem fillFromLeft_opening {rest : List Char} (hrun : run % 2 = 0)
    (h : placeholderAt? values (opening ++ rest) = none) :
    fillFromLeft afterEvenRun values run (opening ++ rest) =
      opening ++ fillFromLeft afterEvenRun values (run + 2) rest := by
  have hodd : afterEvenRun (run + 1) = false := by
    simp only [afterEvenRun, beq_eq_false_iff_ne]
    omega
  simp only [opening, List.cons_append, List.nil_append] at h ⊢
  rw [fillFromLeft_of_none h, if_pos rfl, fillFromLeft_of_unrecognized hodd, if_pos rfl]

/-! ## Splitting, read from left to right -/

/-- What is behind a text without a mark has none either. -/
theorem cut?_eq_none_of_append {mark before after : List Char}
    (h : cut? mark (before ++ after) = none) : cut? mark after = none := by
  induction before with
  | nil => exact h
  | cons c rest ih =>
    refine ih ?_
    simp only [List.cons_append, cut?] at h
    split at h
    · cases h
    · exact Option.map_eq_none_iff.1 h

/-- An opening mark at the very beginning is the first one. -/
theorem cut?_opening (rest : List Char) : cut? opening (opening ++ rest) = some ([], rest) :=
  cut?_append List.not_mem_nil

/-- A text without a closing mark has no placeholders. -/
theorem filled_of_unclosed {text : List Char} (h : cut? closing text = none) :
    filled values text = text := by
  have hsegments : segments (values.map (·.1)) text = [.literal text] := by
    cases hopen : cut? opening text with
    | none => exact segments_of_unopened hopen
    | some parts =>
      rw [append_of_cut? hopen] at h
      exact segments_of_unclosed hopen (cut?_eq_none_of_append h)
  simp [filled, hsegments, Segment.fill]

theorem filled_source {key value : String} (hkey : IsPlain key) (hvalue : values.lookup key = some value)
    (rest : List Char) :
    filled values ((Segment.placeholder key).source ++ rest) = value.toList ++ filled values rest := by
  have hsplit := segments_placeholder List.not_mem_nil hkey.2 (mem_keys_of_lookup hvalue) rest
  rw [List.nil_append] at hsplit
  simp [filled, hsplit, Segment.fill, hvalue]

/-- A character at which no placeholder can begin is copied. -/
theorem filled_cons {c : Char} {rest : List Char} (h : ¬ opening <+: c :: rest) :
    filled values (c :: rest) = c :: filled values rest := by
  unfold filled
  cases hopen : cut? opening rest with
  | none =>
    have hcut : cut? opening (c :: rest) = none := by rw [cut?_cons h, hopen, Option.map_none]
    simp [segments_of_unopened hopen, segments_of_unopened hcut, Segment.fill]
  | some parts =>
    obtain ⟨before, after⟩ := parts
    have hcut : cut? opening (c :: rest) = some (c :: before, after) := by
      rw [cut?_cons h, hopen, Option.map_some]
      rfl
    cases hclose : cut? closing after with
    | none => simp [segments_of_unclosed hopen hclose, segments_of_unclosed hcut hclose, Segment.fill]
    | some parts =>
      obtain ⟨key, behind⟩ := parts
      by_cases hkey : String.ofList key ∈ values.map (·.1)
      · rw [segments_of_known hopen hclose hkey, segments_of_known hcut hclose hkey]
        rfl
      · rw [segments_of_unknown hopen hclose hkey, segments_of_unknown hcut hclose hkey]
        rfl

/-- An opening mark that opens no placeholder is copied as a whole. -/
theorem filled_opening {rest : List Char} (h : placeholderAt? values (opening ++ rest) = none) :
    filled values (opening ++ rest) = opening ++ filled values rest := by
  cases hclose : cut? closing rest with
  | none =>
    rw [filled_of_unclosed hclose, filled, segments_of_unclosed (cut?_opening rest) hclose]
    simp [Segment.fill]
  | some parts =>
    obtain ⟨key, behind⟩ := parts
    have hkey : String.ofList key ∉ values.map (·.1) := by
      intro hmem
      obtain ⟨entry, hentry, hfound⟩ := List.mem_map.1 hmem
      refine List.find?_eq_none.1 h entry hentry (List.isPrefixOf_iff_prefix.2 ⟨behind, ?_⟩)
      rw [hfound, source_placeholder, String.toList_ofList, ← append_of_cut? hclose]
    rw [filled, segments_of_unknown (cut?_opening rest) hclose hkey]
    simp [Segment.fill, filled]

/-- Splitting a template sees the placeholders behind an even number of opening braces. -/
theorem filled_eq_fillFromLeft (hplain : ∀ entry ∈ values, IsPlain entry.1) (text : List Char)
    (hrun : run % 2 = 0) : filled values text = fillFromLeft afterEvenRun values run text := by
  -- An opening mark is passed over as a whole, so one step may take two characters.
  induction hlength : text.length using Nat.strongRecOn generalizing text run with
  | ind length ih =>
    have hrest (rest : List Char) (run : Nat) (hrun : run % 2 = 0)
        (hshorter : rest.length < text.length) :
        filled values rest = fillFromLeft afterEvenRun values run rest :=
      ih _ (hlength ▸ hshorter) rest hrun rfl
    cases hfound : placeholderAt? values text with
    | some entry =>
      obtain ⟨key, value⟩ := entry
      obtain ⟨hmem, rest, rfl⟩ := exists_of_placeholderAt? hfound
      have hkey : IsPlain key := hplain _ hmem
      have hlookup : values.lookup key = some value := by
        rw [placeholderAt?_source hplain hkey] at hfound
        simpa using hfound
      have heven : afterEvenRun run = true := by simpa [afterEvenRun] using hrun
      rw [filled_source hkey hlookup, fillFromLeft_of_some heven hfound,
        hrest rest 0 rfl (length_lt_source key rest)]
    | none =>
      by_cases hopening : opening <+: text
      · obtain ⟨rest, rfl⟩ := hopening
        have hshorter : rest.length < (opening ++ rest).length := by
          rw [List.length_append]
          exact Nat.lt_add_of_pos_left (by decide)
        rw [filled_opening hfound, fillFromLeft_opening hrun hfound,
          hrest rest (run + 2) (by omega) hshorter]
      · cases text with
        | nil => simp [filled_of_unclosed, cut?, closing]
        | cons c rest => rw [filled_cons hopening, fillFromLeft_cons hopening, hrest rest 0 rfl (by simp)]

/-! ## Hidden placeholders -/

theorem openingRun_concat (before : List Char) (c : Char) :
    openingRun (before ++ [c]) = if c = '\x7b' then openingRun before + 1 else 0 := by
  by_cases hc : c = '\x7b' <;> simp [openingRun, hc]

/-- A placeholder ends with closing braces. -/
theorem openingRun_source (before : List Char) (key : String) :
    openingRun (before ++ (Segment.placeholder key).source) = 0 := by
  have hlast : before ++ (Segment.placeholder key).source =
      (before ++ opening ++ key.toList ++ ['\x7d']) ++ ['\x7d'] := by
    simp [Segment.source, closing]
  rw [hlast, openingRun_concat]
  rfl

/-- A template is read placeholder by placeholder and, in between, character by character. -/
theorem reading_induction (values : List (String × String))
    {motive : List Char → List Char → Prop} (nil : ∀ before, motive before [])
    (placeholder : ∀ before key value rest,
      placeholderAt? values ((Segment.placeholder key).source ++ rest) = some (key, value) →
      motive (before ++ (Segment.placeholder key).source) rest →
      motive before ((Segment.placeholder key).source ++ rest))
    (char : ∀ before c rest, placeholderAt? values (c :: rest) = none →
      motive (before ++ [c]) rest → motive before (c :: rest))
    (before text : List Char) : motive before text := by
  induction hlength : text.length using Nat.strongRecOn generalizing before text with
  | ind length ih =>
    subst hlength
    cases hfound : placeholderAt? values text with
    | some entry =>
      obtain ⟨key, value⟩ := entry
      obtain ⟨-, rest, rfl⟩ := exists_of_placeholderAt? hfound
      exact placeholder before key value rest hfound (ih _ (length_lt_source key rest) _ rest rfl)
    | none =>
      cases text with
      | nil => exact nil before
      | cons c rest => exact char before c rest hfound (ih _ (by simp) _ rest rfl)

/-- Text without opening braces has no placeholders. -/
theorem fillFromLeft_append {text : List Char} (h : '\x7b' ∉ text) (rest : List Char) :
    fillFromLeft recognized values 0 (text ++ rest) = text ++ fillFromLeft recognized values 0 rest := by
  induction text with
  | nil => rfl
  | cons c others ih =>
    simp only [List.mem_cons, not_or] at h
    rw [List.cons_append, fillFromLeft_cons (not_opening_of_head_ne fun hc => absurd hc.symm h.1), ih h.2,
      List.cons_append]

/-- What closes an opened placeholder has no opening braces. -/
theorem not_mem_key_closing {key : String} (hkey : IsPlain key) : '\x7b' ∉ key.toList ++ closing := by
  simpa [closing] using hkey.1

theorem source_eq_cons (key : String) :
    (Segment.placeholder key).source = '\x7b' :: '\x7b' :: (key.toList ++ closing) := by
  simp [Segment.source, opening]

/-- No opening mark begins inside a placeholder. -/
theorem not_opening_inside {key : String} (hkey : IsPlain key) {before inside : List Char}
    (hsource : (Segment.placeholder key).source = before ++ inside) (hbefore : before ≠ [])
    (hinside : inside ≠ []) (rest : List Char) : ¬ opening <+: inside ++ rest := by
  rw [source_eq_cons] at hsource
  match before with
  | [c] =>
    simp only [List.cons_append, List.nil_append, List.cons.injEq] at hsource
    rw [← hsource.2, List.cons_append]
    refine not_opening_of_head_ne fun _ hhead => not_mem_key_closing hkey ?_
    have hne : key.toList ++ closing ≠ [] := by simp [closing]
    rw [List.head?_append_of_ne_nil _ hne] at hhead
    exact List.mem_of_head? hhead
  | c :: d :: others =>
    simp only [List.cons_append, List.cons.injEq] at hsource
    obtain ⟨e, behind, rfl⟩ := List.exists_cons_of_ne_nil hinside
    have he : e ≠ '\x7b' := by
      rintro rfl
      exact not_mem_key_closing hkey (by simp [hsource.2.2])
    exact not_opening_of_head_ne fun hbrace => absurd hbrace he

/-- A placeholder that is not recognized is copied. -/
theorem fillFromLeft_over {key : String} (hkey : IsPlain key) (h : recognized run = false)
    (rest : List Char) :
    fillFromLeft recognized values run ((Segment.placeholder key).source ++ rest) =
      (Segment.placeholder key).source ++ fillFromLeft recognized values 0 rest := by
  have hsource : (Segment.placeholder key).source = ['\x7b'] ++ '\x7b' :: (key.toList ++ closing) :=
    source_eq_cons key
  have hsecond := not_opening_inside hkey hsource (by simp) (by simp) rest
  rw [List.cons_append] at hsecond
  rw [source_eq_cons, List.cons_append, List.cons_append, fillFromLeft_of_unrecognized h,
    fillFromLeft_cons hsecond, fillFromLeft_append (not_mem_key_closing hkey), List.cons_append,
    List.cons_append]

/-- Without hidden placeholders it makes no difference that hidden ones are not recognized. -/
theorem fillFromLeft_eq_everywhere (before text : List Char)
    (h : ¬ HasHidden (values.map (·.1)) (before ++ text)) :
    fillFromLeft afterEvenRun values (openingRun before) text =
      fillFromLeft everywhere values (openingRun before) text := by
  induction before, text using reading_induction values with
  | nil before => simp
  | placeholder before key value rest hfound ih =>
    have heven : afterEvenRun (openingRun before) = true := by
      by_contra hodd
      refine h ⟨before, key, rest, ?_, by simp, ?_⟩
      · exact List.mem_map_of_mem (exists_of_placeholderAt? hfound).1
      · simpa [afterEvenRun] using hodd
    rw [fillFromLeft_of_some heven hfound, fillFromLeft_of_some rfl hfound]
    rw [openingRun_source, List.append_assoc] at ih
    rw [ih h]
  | char before c rest hfound ih =>
    rw [openingRun_concat, List.append_assoc] at ih
    rw [fillFromLeft_of_none hfound, fillFromLeft_of_none hfound, ih h]

/-- Placeholders do not overlap. -/
theorem exists_of_source_append {key key' : String} (hkey : IsPlain key)
    {before after rest : List Char} (hbefore : before ≠ [])
    (h : (Segment.placeholder key).source ++ rest =
      before ++ (Segment.placeholder key').source ++ after) :
    ∃ between, before = (Segment.placeholder key).source ++ between ∧
      rest = between ++ (Segment.placeholder key').source ++ after := by
  rw [List.append_assoc] at h
  rcases List.append_eq_append_iff.1 h with ⟨between, rfl, hrest⟩ | ⟨inside, hsource, hinside⟩
  · exact ⟨between, rfl, by rw [hrest, List.append_assoc]⟩
  · by_cases hnil : inside = []
    · subst hnil
      refine ⟨[], ?_, ?_⟩
      · rw [hsource, List.append_nil, List.append_nil]
      · exact hinside.symm
    · refine absurd ?_ (not_opening_inside hkey hsource hbefore hnil rest)
      rw [← hinside, source_placeholder]
      exact List.prefix_append _ _

/-! ## Blank values -/

section Blank

variable (hplain : ∀ entry ∈ values, IsPlain entry.1) (hblank : ∀ entry ∈ values, entry.2 = "")

include hblank in
theorem fillFromLeft_of_blank {key value : String} {rest : List Char}
    (hrecognized : recognized run = true)
    (h : placeholderAt? values ((Segment.placeholder key).source ++ rest) = some (key, value)) :
    fillFromLeft recognized values run ((Segment.placeholder key).source ++ rest) =
      fillFromLeft recognized values 0 rest := by
  have hvalue : value = "" := hblank _ (exists_of_placeholderAt? h).1
  rw [fillFromLeft_of_some hrecognized h, hvalue]
  rfl

include hplain hblank

/-- With blank values, a text is the shorter the more placeholders are recognized. -/
theorem length_everywhere_le (before text : List Char) :
    (fillFromLeft everywhere values (openingRun before) text).length ≤
      (fillFromLeft afterEvenRun values (openingRun before) text).length := by
  induction before, text using reading_induction values with
  | nil before => simp
  | placeholder before key value rest hfound ih =>
    rw [openingRun_source] at ih
    rw [fillFromLeft_of_blank hblank rfl hfound]
    cases hrun : afterEvenRun (openingRun before) with
    | true =>
      rw [fillFromLeft_of_blank hblank hrun hfound]
      exact ih
    | false =>
      rw [fillFromLeft_over (hplain _ (exists_of_placeholderAt? hfound).1) hrun, List.length_append]
      omega
  | char before c rest hfound ih =>
    rw [openingRun_concat] at ih
    rw [fillFromLeft_of_none hfound, fillFromLeft_of_none hfound]
    exact Nat.succ_le_succ ih

/-- With blank values, a hidden placeholder makes a text longer. -/
theorem length_everywhere_lt {key : String} (hkey : key ∈ values.map (·.1)) (after : List Char)
    (before text : List Char) : ∀ between,
      text = between ++ (Segment.placeholder key).source ++ after →
      openingRun (before ++ between) % 2 = 1 →
      (fillFromLeft everywhere values (openingRun before) text).length <
        (fillFromLeft afterEvenRun values (openingRun before) text).length := by
  induction before, text using reading_induction values with
  | nil before =>
    intro between htext
    simp [Segment.source, opening] at htext
  | placeholder before found value rest hfound ih =>
    intro between htext hodd
    have hfoundPlain : IsPlain found := hplain _ (exists_of_placeholderAt? hfound).1
    rw [fillFromLeft_of_blank hblank rfl hfound]
    cases hrun : afterEvenRun (openingRun before) with
    | true =>
      have hbetween : between ≠ [] := by
        rintro rfl
        rw [List.append_nil] at hodd
        simp [afterEvenRun, hodd] at hrun
      obtain ⟨others, rfl, hrest⟩ := exists_of_source_append hfoundPlain hbetween htext
      rw [← List.append_assoc] at hodd
      have hshorter := ih others hrest hodd
      rw [openingRun_source] at hshorter
      rw [fillFromLeft_of_blank hblank hrun hfound]
      exact hshorter
    | false =>
      have hle := length_everywhere_le hplain hblank (before ++ (Segment.placeholder found).source) rest
      rw [openingRun_source] at hle
      rw [fillFromLeft_over hfoundPlain hrun, List.length_append, source_eq_cons, List.length_cons]
      omega
  | char before c rest hfound ih =>
    intro between htext hodd
    cases between with
    | nil =>
      obtain ⟨entry, hentry, hname⟩ := List.mem_map.1 hkey
      refine absurd ?_ (List.find?_eq_none.1 hfound entry hentry)
      rw [htext, hname, List.nil_append]
      exact List.isPrefixOf_iff_prefix.2 (List.prefix_append _ _)
    | cons d others =>
      obtain ⟨rfl, hrest⟩ := List.cons_eq_cons.1 htext
      have hshorter := ih others hrest (by rwa [List.append_assoc])
      rw [openingRun_concat] at hshorter
      rw [fillFromLeft_of_none hfound, fillFromLeft_of_none hfound]
      exact Nat.succ_lt_succ hshorter

end Blank

/-! ## What is replaced -/

/-- Filling in a template replaces the placeholders behind an even number of opening braces, and copies
all else.  So it replaces every placeholder of a key, whatever its values, exactly if none is hidden. -/
theorem render_from_left {keys : List String} (hkeys : ∀ key ∈ keys, IsPlain key) (template : String) :
    (∀ values, values.map (·.1) = keys →
      (render template values).toList = fillFromLeft afterEvenRun values 0 template.toList) ∧
    ((∀ values, values.map (·.1) = keys →
      (render template values).toList = fillFromLeft everywhere values 0 template.toList) ↔
        ¬ HasHidden keys template.toList) := by
  have heven : ∀ values, values.map (·.1) = keys →
      (render template values).toList = fillFromLeft afterEvenRun values 0 template.toList := by
    rintro values rfl
    have hplain : ∀ entry ∈ values, IsPlain entry.1 := fun entry hentry =>
      hkeys _ (List.mem_map_of_mem hentry)
    rw [toList_render, filled_eq_fillFromLeft hplain _ (Nat.zero_mod 2)]
  refine ⟨heven, ⟨fun hall => ?_, fun hnone => ?_⟩⟩
  · rintro ⟨before, key, after, hkey, htemplate, hodd⟩
    -- Blank values show the difference.
    let blank : List (String × String) := keys.map fun key => (key, "")
    have hblank : blank.map (·.1) = keys := by simp [blank, Function.comp_def]
    have hlonger : (fillFromLeft everywhere blank 0 template.toList).length <
        (fillFromLeft afterEvenRun blank 0 template.toList).length :=
      length_everywhere_lt (by simpa [blank] using hkeys) (by simp [blank]) (hblank ▸ hkey) after []
        template.toList before htemplate hodd
    rw [← heven blank hblank, hall blank hblank] at hlonger
    exact Nat.lt_irrefl _ hlonger
  · rintro values rfl
    exact (heven values rfl).trans (fillFromLeft_eq_everywhere [] _ hnone)

theorem render_from_left_sample :
    (∀ key ∈ ["name"], IsPlain key) ∧
      (render "\x7b\x7b\x7b\x7bname\x7d\x7d" [("name", "bob")]).toList =
        fillFromLeft afterEvenRun [("name", "bob")] 0 "\x7b\x7b\x7b\x7bname\x7d\x7d".toList ∧
      ¬ ∀ values, values.map (·.1) = ["name"] →
        (render "\x7b\x7b\x7bname\x7d\x7d\x7d" values).toList =
          fillFromLeft everywhere values 0 "\x7b\x7b\x7bname\x7d\x7d\x7d".toList := by
  have hkeys : ∀ key ∈ ["name"], IsPlain key := by decide
  refine ⟨hkeys, (render_from_left hkeys _).1 _ rfl, fun hall => ?_⟩
  exact (render_from_left hkeys _).2.1 hall ⟨['\x7b'], "name", ['\x7d'], by decide, by decide, by decide⟩

/-- A placeholder directly behind a stray brace is not replaced, though it begins there. -/
theorem placeholder_behind_brace_stays :
    (∀ entry ∈ [("name", "bob")], IsPlain entry.1) ∧
      render "\x7b\x7b\x7bname\x7d\x7d\x7d" [("name", "bob")] = "\x7b\x7b\x7bname\x7d\x7d\x7d" ∧
      String.ofList (fillFromLeft everywhere [("name", "bob")] 0
        "\x7b\x7b\x7bname\x7d\x7d\x7d".toList) = "\x7bbob\x7d" := by
  refine ⟨by decide, by decide +kernel, by decide +kernel⟩

end Concierge.Template
