import Concierge.Proofs.Json.Forms

/-!
# Round trips

An outcome of a knock is read in its own way: its kind stands among its members, so all of it is taken
in before it is known what to read.  The nesting is limited then, and no literal may be passed over that
denotes nothing.  With that, every value of every type that is written as JSON is read back, from however
its records are arranged.
-/

namespace Concierge

open Json (Fields Reader Shape Tree integral integralMembers record tree treeMembers)
open Json.Fields (map_build_eq_ok_iff required required_build_eq_ok_iff)

/-! ## Outcomes -/

namespace KnockOutcome

/-- The members that name a kind. -/
def kinds (members : List (Option String × Tree)) : List (Option String × Tree) :=
  members.filter fun m => m.1 == some "outcome"

/-- The members beside the kind. -/
def others (members : List (Option String × Tree)) : List (Option String × Tree) :=
  members.filter fun m => m.1 != some "outcome"

/-- A member that names a kind. -/
def ofKind (kind : String) : Option String × Tree := (some "outcome", .string (some kind))

variable {members members' : List (Option String × Tree)} {kind : String} {o : KnockOutcome}

theorem split_other {key : Option String} (hkey : key ≠ some "outcome") (found : Option String)
    (t : Tree) (before rest : List (Option String × Tree)) :
    split found before ((key, t) :: rest) = split found ((key, t) :: before) rest := by
  have hne (u : Tree) : (key, t) ≠ (some "outcome", u) := fun h => hkey (Prod.mk.inj h).1
  rw [split]
  · exact fun _ => hne _
  · exact hne

theorem split_unreadable {t : Tree} (ht : ∀ s, t ≠ .string (some s)) (found : Option String)
    (before rest : List (Option String × Tree)) :
    split found before ((some "outcome", t) :: rest) = none := by
  rw [split]
  exact ht

/-- The kind is found where exactly one member names it, and that member is a text. -/
theorem split_eq_some_iff {found : Option String} {before rest : List (Option String × Tree)} :
    split found before members = some (kind, rest) ↔
      (found.map ofKind).toList ++ kinds members = [ofKind kind] ∧
        rest = before.reverse ++ others members := by
  induction members generalizing found before with
  | nil => cases found <;> simp [split, kinds, others, ofKind, eq_comm]
  | cons member members ih =>
    obtain ⟨key, t⟩ := member
    by_cases hkey : key = some "outcome"
    · subst hkey
      have hkinds : kinds ((some "outcome", t) :: members) = (some "outcome", t) :: kinds members := rfl
      have hothers : others ((some "outcome", t) :: members) = others members := rfl
      rw [hkinds, hothers]
      by_cases ht : ∃ s, t = .string (some s)
      · obtain ⟨s, rfl⟩ := ht
        rw [split]
        cases found with
        | none => simpa [ofKind] using @ih (some s) before
        | some k => simp [ofKind]
      · have hunreadable (s : String) : t ≠ .string (some s) := fun hs => ht ⟨s, hs⟩
        rw [split_unreadable hunreadable]
        cases found <;> simp [ofKind, hunreadable]
    · have hkinds : kinds ((key, t) :: members) = kinds members := by simp [kinds, hkey]
      have hothers : others ((key, t) :: members) = (key, t) :: others members := by
        simp [others, hkey]
      rw [split_other hkey, ih, hkinds, hothers, List.reverse_cons, List.append_assoc,
        List.singleton_append]

/-- What is left of an object is read by its kind. -/
theorem rest_object_eq_ok_iff :
    rest kind (.object members) = .ok o ↔
      (kind = "accepted" ∧ record .lenient (KnockOutcome.accepted <$> required "channels" channels)
          (.object members) = .ok o) ∨
        (kind = "no_channel" ∧ o = .noChannel) := by
  by_cases haccepted : kind = "accepted"
  · simp [rest, haccepted]
  · by_cases hno : kind = "no_channel"
    · simp [rest, hno, eq_comm]
    · simp [rest, haccepted, hno]

theorem reader_of_unbearable {t : Tree} (h : ¬ t.Bears depthLimit) : reader t = .error .malformed := by
  unfold reader
  refine if_pos ?_
  rw [Tree.Bears, Classical.not_and_iff_not_or_not, Nat.not_le] at h
  simpa using h

/-- An outcome is read from an object that can be taken in whole, by the kind that exactly one of its
members names, from its other members. -/
theorem reader_object_eq_ok_iff :
    reader (.object members) = .ok o ↔ (Tree.object members).Bears depthLimit ∧
      ∃ kind, kinds members = [ofKind kind] ∧ rest kind (.object (others members)) = .ok o := by
  by_cases hbears : (Tree.object members).Bears depthLimit
  · have hsplit {kind : String} {rest : List (Option String × Tree)} :
        split none [] members = some (kind, rest) ↔
          kinds members = [ofKind kind] ∧ rest = others members :=
      split_eq_some_iff
    simp only [reader, hbears.1, Nat.not_lt.2 hbears.2, hbears, Bool.not_true, Bool.false_eq_true,
      or_self, if_false, true_and]
    cases hfound : split none [] members with
    | none =>
      have hnone : ∀ kind, kinds members ≠ [ofKind kind] := fun kind hkind => by
        rw [hsplit.2 ⟨hkind, rfl⟩] at hfound
        cases hfound
      simp [hnone]
    | some found =>
      obtain ⟨kind, rest⟩ := found
      obtain ⟨hkinds, rfl⟩ := hsplit.1 hfound
      simp [hkinds, ofKind]
  · rw [reader_of_unbearable hbears]
    simp [hbears]

/-! ### Arrangement -/

instance : (record .lenient (KnockOutcome.accepted <$> required "channels" channels)).Indifferent
    (.record [("channels", .single)]) :=
  Fields.Shaped.indifferent (by decide)

/-- Outcomes are read alike from objects that name the same kind and whose other members are
arranged anew. -/
theorem reader_object_congr (hback : (Tree.object members).Bears depthLimit)
    (hbears : (Tree.object members').Bears depthLimit)
    (hkinds : ∀ kind, kinds members = [ofKind kind] ↔ kinds members' = [ofKind kind])
    (hothers : (Shape.record [("channels", .single)]).Rearranges (.object (others members))
      (.object (others members'))) :
    reader (.object members) = .ok o ↔ reader (.object members') = .ok o := by
  have hrest (kind : String) : rest kind (.object (others members)) = .ok o ↔
      rest kind (.object (others members')) = .ok o := by
    rw [rest_object_eq_ok_iff, rest_object_eq_ok_iff, Json.Reader.Indifferent.ok_iff hothers]
  simp only [reader_object_eq_ok_iff, hback, hbears, hkinds, hrest]

/-- The form of outcomes. -/
def form : Form KnockOutcome where
  write := toJson
  read := reader
  shape := .record [("outcome", .single), ("channels", .single)]
  limit := some depthLimit

/-- No member of an outcome has records in it. -/
theorem single_of_mem {key : String} {shape : Shape}
    (h : (key, shape) ∈ [("outcome", Shape.single), ("channels", .single)]) : shape = .single := by
  simp only [List.mem_cons, Prod.mk.injEq, List.not_mem_nil, or_false] at h
  obtain ⟨-, rfl⟩ | ⟨-, rfl⟩ := h <;> rfl

/-- If it can be taken in whole, an outcome is read alike however its members are arranged. -/
theorem reader_congr {t t' : Tree} (h : form.shape.Rearranges t t') (hbears : t'.Bears depthLimit) :
    reader t = .ok o ↔ reader t' = .ok o := by
  generalize hshape : form.shape = shape at h
  induction h with
  | refl => exact Iff.rfl
  | trans _ hsecond ihfirst ihsecond =>
    exact (ihfirst (hsecond.bears hbears) hshape).trans (ihsecond hbears hshape)
  | @permute fields members members' hperm =>
    have hpermuted : (Shape.record fields).Rearranges (.object members) (.object members') :=
      .permute hperm
    refine reader_object_congr (hpermuted.bears hbears) hbears (fun kind => ?_)
      (.permute (hperm.filter _))
    have hkinds : (kinds members).Perm (kinds members') := hperm.filter _
    exact ⟨fun h => (List.singleton_perm.1 (h ▸ hkinds)).symm,
      fun h => List.perm_singleton.1 (h ▸ hkinds)⟩
  | @add fields key hunknown t hintact members =>
    cases hshape
    have hkey : key ≠ "outcome" ∧ key ∉ ["channels"] := by simpa using hunknown
    have hkinds : kinds ((some key, t) :: members) = kinds members := by simp [kinds, hkey.1]
    have hothers : others ((some key, t) :: members) = (some key, t) :: others members := by
      simp [others, hkey.1]
    have hadded := Shape.Rearranges.add hunknown hintact members
    refine reader_object_congr (hadded.bears hbears) hbears (fun kind => by rw [hkinds]) ?_
    rw [hothers]
    exact .add hkey.2 hintact _
  | @member fields key shape t t' hfield hinner members =>
    cases hshape
    obtain rfl := single_of_mem hfield
    rw [Shape.rearranges_single_iff.1 hinner]
  | @item fields place key shape items t t' hfield hthere hinner =>
    cases hshape
    obtain rfl := single_of_mem (List.mem_of_getElem? hfield)
    obtain rfl := Shape.rearranges_single_iff.1 hinner
    have hsame : items.set place t = items := by
      obtain ⟨hplace, rfl⟩ := List.getElem?_eq_some_iff.1 hthere
      exact List.set_getElem_self hplace
    rw [hsame]

/-! ### Writing and reading -/

theorem channels_map (cs : List Channel) :
    channels (tree (.array (cs.map Channel.toJson))) = .ok cs :=
  Reader.list_map (fun c => Reader.variantWith_string (Channel.ofName?_name c)) cs

theorem bears_toJson (o : KnockOutcome) : (tree o.toJson).Bears depthLimit := by
  cases o with
  | noChannel => exact ⟨by decide, by decide⟩
  | accepted cs =>
    have hchannels : (tree (.array (cs.map Channel.toJson))).Bears 1 := by
      rw [tree, Json.treeItems_eq_map, List.map_map]
      refine Tree.bears_array_iff.2 ⟨by decide, List.forall_mem_map.2 fun c _ => ?_⟩
      exact ⟨rfl, Nat.le_refl 0⟩
    refine Tree.bears_object_iff.2 ⟨by decide, ?_⟩
    simp only [treeMembers, List.forall_mem_cons]
    exact ⟨⟨rfl, rfl, Nat.zero_le _⟩, ⟨rfl, hchannels.1, hchannels.2.trans (by decide)⟩,
      List.forall_mem_nil _⟩

theorem reader_toJson (o : KnockOutcome) : reader (tree o.toJson) = .ok o := by
  have hbears := bears_toJson o
  cases o with
  | noChannel => exact reader_object_eq_ok_iff.2 ⟨hbears, _, rfl, by rfl⟩
  | accepted cs =>
    refine reader_object_eq_ok_iff.2 ⟨hbears, "accepted", by simp [kinds, treeMembers, ofKind, tree], ?_⟩
    have hothers : Tree.object (others (treeMembers [("outcome", .string "accepted"),
        ("channels", .array (cs.map Channel.toJson))])) =
          tree (.object [("channels", .array (cs.map Channel.toJson))]) := by
      simp [others, treeMembers, tree]
    rw [hothers]
    refine rest_object_eq_ok_iff.2 (.inl ⟨rfl, Fields.Shaped.read_fields (by decide) rfl ?_⟩)
    simp [map_build_eq_ok_iff, required_build_eq_ok_iff, List.lookup_cons, channels_map]

theorem integral_toJson (o : KnockOutcome) : integral o.toJson = true := by
  cases o with
  | noChannel => rfl
  | accepted cs =>
    have hchannels := Json.integral_array_map Channel.integral_toJson cs
    rw [toJson, integral]
    simp only [integralMembers, hchannels]
    rfl

theorem form_faithful : form.Faithful := by
  refine .of_back (fun _ _ _ => trivial) (fun o _ => reader_toJson o) (fun o _ => integral_toJson o)
    (fun t t' h hwithin _ => reader_congr h (hwithin _ rfl)) fun t o h n hn => ?_
  obtain rfl := Option.some.inj hn
  by_contra hunbearable
  cases (reader_of_unbearable hunbearable).symm.trans h

/-- An outcome whose kind is that nothing was eligible is read whatever else there is. -/
theorem reader_noChannel (hkinds : kinds members = [ofKind "no_channel"])
    (hbears : (Tree.object members).Bears depthLimit) : reader (.object members) = .ok .noChannel :=
  reader_object_eq_ok_iff.2 ⟨hbears, _, hkinds, rest_object_eq_ok_iff.2 (.inr ⟨rfl, rfl⟩)⟩

end KnockOutcome

/-! ## All of them -/

/-- Every value of a type that is written as JSON is read back from what is written of it.  How its
records are arranged does not matter, and what was read once is read again from what is written of
it; outcomes alone are taken in whole first, so that their nesting is limited and every literal in them
has to denote something.  Identifiers are read from every spelling of their digits and are written in
one. -/
theorem written_values_are_read_back :
    (Account.form.Faithful ∧ NotificationSettings.form.Faithful ∧ ChannelSwitch.form.Faithful ∧
      BridgeSettings.form.Faithful ∧ HubSettings.form.Faithful ∧ Person.form.Faithful ∧
      NotificationPreferences.form.Faithful ∧ Door.form.Faithful ∧ RemoteUser.form.Faithful ∧
      BridgeLink.form.Faithful ∧ KnockOutcome.form.Faithful ∧ SyncReport.form.Faithful ∧
      Bridge.form.Faithful ∧ Channel.form.Faithful ∧ KnockRequest.form.Faithful) ∧
    (∀ members, KnockOutcome.kinds members = [KnockOutcome.ofKind "no_channel"] →
      (Tree.object members).Bears KnockOutcome.depthLimit →
        KnockOutcome.reader (.object members) = .ok .noChannel) ∧
    (Uuid.form.Faithful ∧
      (∀ ds, Uuid.AreDigits ds → ∃ id, ∀ cs ∈ Uuid.spellings ds,
        Uuid.reader (tree (.string (String.ofList cs))) = .ok id) ∧
      ∀ t id, Uuid.reader t = .ok id ↔ ∃ s ds, t = .string (some s) ∧ Uuid.AreDigits ds ∧
        s.toList ∈ Uuid.spellings ds ∧
          id.toText = String.ofList (Uuid.hyphenated (ds.map Char.toLower))) := by
  refine ⟨⟨Account.form_faithful, NotificationSettings.form_faithful, ChannelSwitch.form_faithful,
    BridgeSettings.form_faithful, HubSettings.form_faithful, Person.form_faithful,
    NotificationPreferences.form_faithful, Door.form_faithful, RemoteUser.form_faithful,
    BridgeLink.form_faithful, KnockOutcome.form_faithful, SyncReport.form_faithful,
    Bridge.form_faithful, Channel.form_faithful, KnockRequest.form_faithful⟩,
    fun _ => KnockOutcome.reader_noChannel, Uuid.form_faithful, fun ds hds => ?_,
    fun _ _ => Uuid.reader_eq_ok_iff⟩
  obtain ⟨id, hid⟩ := Uuid.exists_ofChars? hds
  refine ⟨id, fun cs hcs => Uuid.reader_of_ofText? ?_⟩
  rw [Uuid.ofText?, String.toList_ofList, hid cs hcs]

/-! ### Members that are not borne -/

namespace Json

/-- Arrays in each other around nothing. -/
def nested : Nat → Json
  | 0 => .null
  | n + 1 => .array [nested n]

theorem depth_nested (n : Nat) : (tree (nested n)).depth = n := by
  induction n with
  | zero => rfl
  | succ n ih => simp [nested, tree, treeItems, Tree.depth, Tree.depthItems, ih]

theorem integral_nested (n : Nat) : integral (nested n) = true := by
  induction n with
  | zero => rfl
  | succ n ih => simp [nested, integral, integralItems, ih]

end Json

namespace KnockOutcome

/-- What is written if nothing was eligible, with a member put in. -/
def laden (t : Tree) : Tree := .object [(some "x", t), ofKind "no_channel"]

theorem laden_unbearable {t : Tree} (h : ¬ t.Bears 126) : ¬ (laden t).Bears depthLimit := by
  intro hbears
  obtain ⟨-, hmembers⟩ := Tree.bears_object_iff.1 hbears
  exact h (hmembers _ List.mem_cons_self).2

/-- A member that no outcome knows keeps an outcome from being read if it is nested too deeply, or if a
number or a text in it denotes nothing. -/
theorem unknown_member_refused :
    (reader (tree noChannel.toJson) = .ok .noChannel ∧
      ∀ t ∈ [tree (Json.nested 200), .real false, .string none],
        form.shape.Rearranges (tree noChannel.toJson) (laden t) ∧
          reader (laden t) = .error .malformed) ∧
    Json.readText reader (Utf8.encode noChannel.toJson.compact) = .ok .noChannel ∧
    Json.readText reader (Utf8.encode
      (Json.object [("x", .nested 200), ("outcome", .string "no_channel")]).compact) =
        .error .malformed ∧
    ∀ literal ∈ ["1e999", "\"\\ud800\""],
      Json.readText reader (Utf8.encode
        ("\x7b\"x\":" ++ literal ++ ",\"outcome\":\"no_channel\"\x7d")) = .error .malformed := by
  have hplain : reader (tree noChannel.toJson) = .ok .noChannel := reader_toJson .noChannel
  have hdeep : ¬ (tree (Json.nested 200)).Bears 126 := fun h => by
    have hdepth := h.2
    rw [Json.depth_nested] at hdepth
    exact absurd hdepth (by decide)
  have hladen : ∀ t ∈ [tree (Json.nested 200), .real false, .string none],
      t.intact = true ∧ ¬ t.Bears 126 := by
    simp only [List.forall_mem_cons]
    exact ⟨⟨Json.intact_tree _, hdeep⟩, ⟨rfl, fun h => nomatch h.1⟩, ⟨rfl, fun h => nomatch h.1⟩,
      fun _ h => nomatch h⟩
  have hintegral :
      integral (.object [("x", .nested 200), ("outcome", .string "no_channel")]) = true := by
    simp [integral, integralMembers, Json.integral_nested]
  refine ⟨⟨hplain, fun t ht => ⟨.add (by decide) (hladen t ht).1 _, ?_⟩⟩, ?_, ?_, by decide +kernel⟩
  · exact reader_of_unbearable (laden_unbearable (hladen t ht).2)
  · rw [Json.readText_compact reader (integral_toJson .noChannel), hplain]
  · rw [Json.readText_compact reader hintegral]
    exact reader_of_unbearable (laden_unbearable hdeep)

end KnockOutcome

end Concierge
