import Concierge.Message
import Mathlib.Data.List.Forall2

/-!
# The parts of a template

A template and the known keys alone decide how it is split into literal text and placeholders, and the
parts make up the template again.  Filling in a template writes one part after the other.  A value stands
where its placeholder stood, whatever it contains, so whoever chooses a name changes nothing else in a
message.
-/

namespace Concierge

namespace Template

variable {keys : List String} {template before after rest : List Char} {key : List Char}

/-! ## Splitting -/

/-- A part of a template. -/
inductive Segment where
  /-- Text that stands as it is. -/
  | literal (text : List Char)
  /-- A known key between the two marks. -/
  | placeholder (key : String)
  deriving DecidableEq, Repr

/-- The text of a segment in the template. -/
def Segment.source : Segment → List Char
  | .literal text => text
  | .placeholder key => opening ++ key.toList ++ closing

/-- Split a template.  A placeholder whose key is unknown is literal text, but only its opening mark is
passed over. -/
def segments (keys : List String) (template : List Char) : List Segment :=
  match hopen : cut? opening template with
  | none => [.literal template]
  | some (before, after) =>
    have hshorter := length_lt_of_cut? (by decide) hopen
    match hclose : cut? closing after with
    | none => [.literal template]
    | some (key, rest) =>
      have hshortest := Nat.lt_trans (length_lt_of_cut? (by decide) hclose) hshorter
      if String.ofList key ∈ keys then
        .literal before :: .placeholder (String.ofList key) :: segments keys rest
      else .literal (before ++ opening) :: segments keys after
termination_by template.length

/-- A mark that does not stand at the beginning is found further on, if anywhere. -/
theorem cut?_cons {mark rest : List Char} {c : Char} (h : ¬ mark <+: c :: rest) :
    cut? mark (c :: rest) = (cut? mark rest).map (Prod.map (c :: ·) id) := by
  rw [cut?, if_neg (by rwa [List.isPrefixOf_iff_prefix])]
  rfl

/-- A mark is found where it first can be. -/
theorem cut?_append {c : Char} {mark before rest : List Char} (h : c ∉ before) :
    cut? (c :: mark) (before ++ (c :: mark) ++ rest) = some (before, rest) := by
  induction before with
  | nil => simp [cut?]
  | cons d others ih =>
    simp only [List.mem_cons, not_or] at h
    have hno : ¬ c :: mark <+: d :: (others ++ (c :: mark) ++ rest) := fun hbegins =>
      h.1 (List.cons_prefix_cons.1 hbegins).1
    rw [List.cons_append, List.cons_append, cut?_cons hno, ih h.2]
    rfl

/-- Without an opening mark all is literal. -/
theorem segments_of_unopened (hopen : cut? opening template = none) :
    segments keys template = [.literal template] := by
  rw [segments]
  split
  · rfl
  · next hcut => cases hopen.symm.trans hcut

/-- Without a closing mark after the first opening mark all is literal. -/
theorem segments_of_unclosed (hopen : cut? opening template = some (before, after))
    (hclose : cut? closing after = none) : segments keys template = [.literal template] := by
  rw [segments]
  split
  · rfl
  · next hcut =>
    cases hopen.symm.trans hcut
    split
    · rfl
    · next hcut' => cases hclose.symm.trans hcut'

/-- The first opening mark opens the placeholder of a known key. -/
theorem segments_of_known (hopen : cut? opening template = some (before, after))
    (hclose : cut? closing after = some (key, rest)) (hkey : String.ofList key ∈ keys) :
    segments keys template =
      .literal before :: .placeholder (String.ofList key) :: segments keys rest := by
  rw [segments]
  split
  · next hcut => cases hopen.symm.trans hcut
  · next hcut =>
    cases hopen.symm.trans hcut
    split
    · next hcut' => cases hclose.symm.trans hcut'
    · next hcut' =>
      cases hclose.symm.trans hcut'
      exact if_pos hkey

/-- The first opening mark opens nothing that is known. -/
theorem segments_of_unknown (hopen : cut? opening template = some (before, after))
    (hclose : cut? closing after = some (key, rest)) (hkey : String.ofList key ∉ keys) :
    segments keys template = .literal (before ++ opening) :: segments keys after := by
  rw [segments]
  split
  · next hcut => cases hopen.symm.trans hcut
  · next hcut =>
    cases hopen.symm.trans hcut
    split
    · next hcut' => cases hclose.symm.trans hcut'
    · next hcut' =>
      cases hclose.symm.trans hcut'
      exact if_neg hkey

/-- The first placeholder of a known key is seen if no stray brace stands before it, and what follows it is
split as if it stood alone. -/
theorem segments_placeholder {key : String} (hbefore : '\x7b' ∉ before) (hclosing : '\x7d' ∉ key.toList)
    (hkey : key ∈ keys) (rest : List Char) :
    segments keys (before ++ (Segment.placeholder key).source ++ rest) =
      .literal before :: .placeholder key :: segments keys rest := by
  have hopen : cut? opening (before ++ opening ++ (key.toList ++ closing ++ rest)) =
      some (before, key.toList ++ closing ++ rest) := cut?_append hbefore
  have hclose : cut? closing (key.toList ++ closing ++ rest) = some (key.toList, rest) :=
    cut?_append hclosing
  have htemplate : before ++ (Segment.placeholder key).source ++ rest =
      before ++ opening ++ (key.toList ++ closing ++ rest) := by simp [Segment.source]
  rw [htemplate]
  have hsplit := segments_of_known hopen hclose (by rwa [String.ofList_toList])
  rwa [String.ofList_toList] at hsplit

/-- Splitting a template loses nothing and doubles nothing. -/
theorem source_segments (keys : List String) (template : List Char) :
    (segments keys template).flatMap Segment.source = template := by
  fun_induction segments keys template with
  | case1 template hopen => simp [Segment.source]
  | case2 template before after hopen _ hclose => simp [Segment.source]
  | case3 template before after hopen _ key rest hclose _ hkey ih =>
    simp [Segment.source, ih, append_of_cut? hopen, append_of_cut? hclose]
  | case4 template before after hopen _ key rest hclose _ hkey ih =>
    simp [Segment.source, ih, append_of_cut? hopen]

/-- Only known keys have placeholders. -/
theorem mem_keys_of_mem_segments {key : String} (h : .placeholder key ∈ segments keys template) :
    key ∈ keys := by
  fun_induction segments keys template with
  | case1 template hopen => simp at h
  | case2 template before after hopen _ hclose => simp at h
  | case3 template before after hopen _ found rest hclose _ hkey ih =>
    simp only [List.mem_cons, reduceCtorEq, Segment.placeholder.injEq, false_or] at h
    rcases h with rfl | hrest
    · exact hkey
    · exact ih hrest
  | case4 template before after hopen _ found rest hclose _ hkey ih =>
    simp only [List.mem_cons, reduceCtorEq, false_or] at h
    exact ih h

/-- It does not matter in which order or how often keys are listed. -/
theorem segments_congr {keys' : List String} (h : ∀ key, key ∈ keys ↔ key ∈ keys')
    (template : List Char) : segments keys template = segments keys' template := by
  fun_induction segments keys template with
  | case1 template hopen => rw [segments_of_unopened hopen]
  | case2 template before after hopen _ hclose => rw [segments_of_unclosed hopen hclose]
  | case3 template before after hopen _ key rest hclose _ hkey ih =>
    rw [segments_of_known hopen hclose ((h _).1 hkey), ih]
  | case4 template before after hopen _ key rest hclose _ hkey ih =>
    rw [segments_of_unknown hopen hclose fun hkey' => hkey ((h _).2 hkey'), ih]

/-! ## Filling in -/

/-- What a part stands for: literal text for itself, a placeholder for the first of the values that are
listed for its key. -/
inductive Segment.StandsFor (values : List (String × String)) : Segment → List Char → Prop where
  | literal (text : List Char) : StandsFor values (.literal text) text
  | placeholder {key value : String} {before after : List (String × String)}
      (listed : values = before ++ (key, value) :: after) (first : ∀ entry ∈ before, entry.1 ≠ key) :
      StandsFor values (.placeholder key) value.toList

/-- A text is what the parts stand for, one after the other. -/
def Fills (values : List (String × String)) (parts : List Segment) (text : String) : Prop :=
  ∃ texts, List.Forall₂ (Segment.StandsFor values) parts texts ∧ text.toList = texts.flatten

/-- The parts are a template, and their placeholders are those of known keys. -/
structure Splits (keys : List String) (template : String) (parts : List Segment) : Prop where
  whole : parts.flatMap Segment.source = template.toList
  known : ∀ key, .placeholder key ∈ parts → key ∈ keys

theorem splits_segments (keys : List String) (template : String) :
    Splits keys template (segments keys template.toList) :=
  ⟨source_segments keys template.toList, fun _ => mem_keys_of_mem_segments⟩

theorem mem_keys_of_lookup {values : List (String × String)} {key value : String}
    (h : values.lookup key = some value) : key ∈ values.map (·.1) := by
  obtain ⟨before, after, hvalues, -⟩ := List.lookup_eq_some_iff.1 h
  simp [hvalues]

theorem not_mem_keys_of_lookup {values : List (String × String)} {key : String}
    (h : values.lookup key = none) : key ∉ values.map (·.1) := by
  intro hkey
  obtain ⟨entry, hentry, hsame⟩ := List.mem_map.1 hkey
  exact absurd hsame.symm (bne_iff_ne.1 (List.lookup_eq_none_iff.1 h entry hentry))

/-- The text of a part once values are known; of several values for a key the first counts. -/
def Segment.fill (values : List (String × String)) : Segment → List Char
  | .literal text => text
  | .placeholder key => ((values.lookup key).getD "").toList

/-- A part whose key has a value is filled with what it stands for. -/
theorem Segment.standsFor_fill {values : List (String × String)} {part : Segment}
    (h : ∀ key, part = .placeholder key → key ∈ values.map (·.1)) :
    part.StandsFor values (part.fill values) := by
  cases part with
  | literal text => exact .literal text
  | placeholder key =>
    cases hvalue : values.lookup key with
    | none => exact absurd (h key rfl) (not_mem_keys_of_lookup hvalue)
    | some value =>
      obtain ⟨before, after, hvalues, hfirst⟩ := List.lookup_eq_some_iff.1 hvalue
      simp only [fill, hvalue, Option.getD_some]
      exact .placeholder hvalues fun entry hentry => (bne_iff_ne.1 (hfirst entry hentry)).symm

/-- A template with the values in place of its placeholders. -/
def filled (values : List (String × String)) (template : List Char) : List Char :=
  (segments (values.map (·.1)) template).flatMap (Segment.fill values)

/-- What was written before stays, and the values come in place of the placeholders of what is left. -/
theorem renderFrom_eq (values : List (String × String)) (out rest : List Char) :
    renderFrom values out rest = out ++ filled values rest := by
  unfold filled
  fun_induction renderFrom values out rest with
  | case1 out rest hopen => simp [segments_of_unopened hopen, Segment.fill]
  | case2 out rest before afterOpen hopen _ written hclose =>
    rw [segments_of_unclosed hopen hclose, append_of_cut? hopen]
    simp [written, Segment.fill]
  | case3 out rest before afterOpen hopen _ written key afterClose hclose _ value hvalue ih =>
    rw [ih, segments_of_known hopen hclose (mem_keys_of_lookup hvalue)]
    simp [written, Segment.fill, hvalue]
  | case4 out rest before afterOpen hopen _ written key afterClose hclose _ hvalue ih =>
    rw [ih, segments_of_unknown hopen hclose (not_mem_keys_of_lookup hvalue)]
    simp [written, Segment.fill]

theorem toList_render (template : String) (values : List (String × String)) :
    (render template values).toList = filled values template.toList := by
  rw [render, String.toList_ofList, renderFrom_eq, List.nil_append]

/-- A template is filled in part by part. -/
theorem fills_render (template : String) {values : List (String × String)} {keys : List String}
    (hkeys : ∀ key, key ∈ values.map (·.1) ↔ key ∈ keys) :
    Fills values (segments keys template.toList) (render template values) := by
  refine ⟨(segments keys template.toList).map (Segment.fill values), ?_, ?_⟩
  · rw [List.forall₂_map_right_iff, List.forall₂_same]
    intro part hpart
    refine Segment.standsFor_fill fun key hkey => (hkeys key).2 ?_
    exact mem_keys_of_mem_segments (hkey ▸ hpart)
  · rw [toList_render, filled, segments_congr hkeys, List.flatMap_def]

/-- A placeholder is replaced, and what follows it is filled in as if it stood alone. -/
theorem render_placeholder {values : List (String × String)} {before key value : String}
    (hbefore : '\x7b' ∉ before.toList) (hclosing : '\x7d' ∉ key.toList)
    (hvalue : values.lookup key = some value) (rest : String) :
    render (before ++ "\x7b\x7b" ++ key ++ "\x7d\x7d" ++ rest) values =
      before ++ value ++ render rest values := by
  have hkey := mem_keys_of_lookup hvalue
  have htemplate : (before ++ "\x7b\x7b" ++ key ++ "\x7d\x7d" ++ rest).toList =
      before.toList ++ (Segment.placeholder key).source ++ rest.toList := by
    simp [Segment.source, opening, closing]
  rw [← String.toList_inj, toList_render, filled, htemplate,
    segments_placeholder hbefore hclosing hkey]
  simp [toList_render, filled, Segment.fill, hvalue]

/-- Parts that are all literal are the text itself. -/
theorem Fills.eq_of_literal {values : List (String × String)} {parts : List Segment}
    {template : String} {text : String} (hfills : Fills values parts text)
    (hsplits : Splits keys template parts) (hliteral : ∀ key, .placeholder key ∉ parts) :
    text = template := by
  obtain ⟨texts, hstands, htext⟩ := hfills
  have htexts : texts = parts.map Segment.source := by
    clear htext hsplits
    induction hstands with
    | nil => rfl
    | cons hfirst hrest ih =>
      cases hfirst with
      | literal text =>
        rw [ih fun key hkey => hliteral key (List.mem_cons_of_mem _ hkey)]
        rfl
      | placeholder listed first => exact absurd List.mem_cons_self (hliteral _)
  rw [← String.toList_inj, htext, htexts, ← List.flatMap_def, hsplits.whole]

/-- A template in which no placeholder of a key occurs is split into literal text. -/
theorem literal_of_not_occurs {template : String} {parts : List Segment}
    (hsplits : Splits keys template parts)
    (h : ∀ key ∈ keys, ¬ (Segment.placeholder key).source <:+: template.toList) (key : String) :
    .placeholder key ∉ parts := by
  intro hmem
  refine h key (hsplits.known key hmem) ?_
  obtain ⟨before, after, rfl⟩ := List.append_of_mem hmem
  exact ⟨before.flatMap Segment.source, after.flatMap Segment.source, by simp [← hsplits.whole]⟩

end Template

/-! ## Names in messages -/

open Template

/-- The keys of the templates of a knock. -/
def KnockMessage.keys : List String := ["name", "door"]

/-- A text of a knock is filled in from parts that are known before anybody knocks. -/
theorem KnockMessage.fills_of_template (template : String) :
    ∃ parts, Splits keys template parts ∧ ∀ (door : Door) (person : Person),
      Fills [("name", person.name), ("door", door.name)] parts
        (render template (values door person)) :=
  ⟨_, splits_segments keys template, fun _ _ => fills_render template fun _ => Iff.rfl⟩

/-- Values are inert, and literal text is preserved.  The parts of a template are the same for all
values; a template in which nothing is recognized, or in which no placeholder of a key occurs, comes out
unchanged; a value that is filled in does not touch what follows it; and of a message for a knock the
names are only filled in. -/
theorem values_are_inert :
    (∀ (keys : List String) (template : String), ∃ parts, Splits keys template parts ∧
      ∀ values : List (String × String), (∀ key, key ∈ values.map (·.1) ↔ key ∈ keys) →
        Fills values parts (render template values) ∧
        ((∀ key, .placeholder key ∉ parts) → render template values = template) ∧
        ((∀ key ∈ keys, ¬ (Segment.placeholder key).source <:+: template.toList) →
          render template values = template)) ∧
    (∀ (values : List (String × String)) (before key value rest : String),
      '\x7b' ∉ before.toList → '\x7d' ∉ key.toList → values.lookup key = some value →
        render (before ++ "\x7b\x7b" ++ key ++ "\x7d\x7d" ++ rest) values =
          before ++ value ++ render rest values) ∧
    ∀ account : Account, ∃ subject text sms,
      Splits ["name", "door"] KnockMessage.subjectTemplate subject ∧
      Splits ["name", "door"]
        (KnockMessage.chosen account.notifications.emailTemplate KnockMessage.defaultText) text ∧
      Splits ["name", "door"]
        (KnockMessage.chosen account.notifications.smsTemplate KnockMessage.defaultSms) sms ∧
      ∀ (door : Door) (person : Person),
        let names := [("name", person.name), ("door", door.name)]
        let message := KnockMessage.compose account door person
        Fills names subject message.subject ∧ Fills names text message.text ∧
          Fills names sms message.sms := by
  refine ⟨fun keys template => ?_, fun values before key value rest hbefore hclosing hvalue =>
    render_placeholder hbefore hclosing hvalue rest, fun account => ?_⟩
  · have hsplits := splits_segments keys template
    refine ⟨_, hsplits, fun values hkeys => ?_⟩
    have hfills := fills_render template hkeys
    have hunchanged := hfills.eq_of_literal hsplits
    exact ⟨hfills, hunchanged, fun hnone => hunchanged (literal_of_not_occurs hsplits hnone)⟩
  · obtain ⟨subject, hsubject, fillsSubject⟩ :=
      KnockMessage.fills_of_template KnockMessage.subjectTemplate
    obtain ⟨text, htext, fillsText⟩ := KnockMessage.fills_of_template
      (KnockMessage.chosen account.notifications.emailTemplate KnockMessage.defaultText)
    obtain ⟨sms, hsms, fillsSms⟩ := KnockMessage.fills_of_template
      (KnockMessage.chosen account.notifications.smsTemplate KnockMessage.defaultSms)
    exact ⟨subject, text, sms, hsubject, htext, hsms, fun door person =>
      ⟨fillsSubject door person, fillsText door person, fillsSms door person⟩⟩

theorem values_are_inert_sample :
    ∃ parts, Splits ["name", "door"] "\x7b\x7bname\x7d\x7d \x7b\x7b" parts ∧
      Fills [("name", "\x7b\x7bdoor\x7d\x7d"), ("door", "front")] parts
        "\x7b\x7bdoor\x7d\x7d \x7b\x7b" := by
  obtain ⟨parts, hsplits, hall⟩ :=
    values_are_inert.1 ["name", "door"] "\x7b\x7bname\x7d\x7d \x7b\x7b"
  have hrender : render "\x7b\x7bname\x7d\x7d \x7b\x7b"
      [("name", "\x7b\x7bdoor\x7d\x7d"), ("door", "front")] =
        "\x7b\x7bdoor\x7d\x7d \x7b\x7b" := by decide +kernel
  have hfills := (hall [("name", "\x7b\x7bdoor\x7d\x7d"), ("door", "front")] fun _ => Iff.rfl).1
  rw [hrender] at hfills
  exact ⟨parts, hsplits, hfills⟩

end Concierge
