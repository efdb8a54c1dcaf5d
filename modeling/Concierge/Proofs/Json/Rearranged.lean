import Concierge.Proofs.Json.Layout
import Mathlib.Data.List.Perm.Basic
import Mathlib.Data.Set.List

/-!
# Rearranged records

In which order an object has its members, and which members it has that no field knows, makes no
difference to a record that is read from it, nor to the records in the fields of that record.  What such
a member is makes no difference either: its literals need not denote anything.  Here this is shown for
every record whose fields are each called by one name and that skips what it does not know, with the
records inside it told by a shape.
-/

namespace Concierge.Json

/-! ## Shapes -/

/-- Where a value has the objects of records: nowhere, or at its top, and in these of its fields. -/
inductive Shape where
  | single
  | record (fields : List (String × Shape))

namespace Shape

/-- The second tree is the first one with members of its records put in another order, and with
members that no field knows put in. -/
inductive Rearranges : Shape → Tree → Tree → Prop where
  | refl (shape : Shape) (t : Tree) : Rearranges shape t t
  | trans {shape : Shape} {t u v : Tree} (first : Rearranges shape t u)
    (second : Rearranges shape u v) : Rearranges shape t v
  | permute {fields : List (String × Shape)} {members members' : List (Option String × Tree)}
    (perm : members.Perm members') :
    Rearranges (.record fields) (.object members) (.object members')
  | add {fields : List (String × Shape)} {key : String} (unknown : key ∉ fields.map (·.1))
    {t : Tree} (intact : t.intact = true) (members : List (Option String × Tree)) :
    Rearranges (.record fields) (.object members) (.object ((some key, t) :: members))
  | member {fields : List (String × Shape)} {key : String} {shape : Shape} {t t' : Tree}
    (field : (key, shape) ∈ fields) (inner : Rearranges shape t t')
    (members : List (Option String × Tree)) :
    Rearranges (.record fields) (.object ((some key, t) :: members))
      (.object ((some key, t') :: members))
  | item {fields : List (String × Shape)} {place : Nat} {key : String} {shape : Shape}
    {items : List Tree} {t t' : Tree} (field : fields[place]? = some (key, shape))
    (there : items[place]? = some t) (inner : Rearranges shape t t') :
    Rearranges (.record fields) (.array items) (.array (items.set place t'))

/-- A value without records is not rearranged. -/
theorem rearranges_single_iff {t t' : Tree} : single.Rearranges t t' ↔ t = t' := by
  constructor
  · intro h
    generalize hshape : single = shape at h
    induction h with
    | refl => rfl
    | trans _ _ ihfirst ihsecond => exact (ihfirst hshape).trans (ihsecond hshape)
    | permute | add | member | item => cases hshape
  · rintro rfl
    exact .refl _ _

theorem rel_refl (shape : Shape) (there : Option Tree) :
    Option.Rel shape.Rearranges there there := by
  cases there with
  | none => exact .none
  | some t => exact .some (.refl shape t)

end Shape

/-! ## Readers and fields -/

variable {α β : Type}

/-- A reader reads what a tree is and what the tree is rearranged to alike. -/
class Reader.Indifferent (r : Reader α) (shape : outParam Shape) : Prop where
  ok_iff {t t' : Tree} : shape.Rearranges t t' → ∀ a, r t = .ok a ↔ r t' = .ok a

/-- Where no record is known of, nothing may be rearranged. -/
instance (priority := low) (r : Reader α) : r.Indifferent .single where
  ok_iff h a := by rw [Shape.rearranges_single_iff.1 h]

namespace Fields

instance (name : String) (others : List String) (r : Reader α) :
    Lawful (requiredAs name others r) where
  congr h := by
    have hget := h _ List.mem_cons_self
    simp only [Field.key, List.headD_cons] at hget
    simp only [requiredAs, hget]
  exists_ok_iff {get} := by
    simp only [requiredAs, List.forall_mem_singleton, Field.key, List.headD_cons]
    cases get name with
    | none => simp [Field.Admits]
    | some t => simp only [Field.Admits, checkOf_eq_ok_iff]

instance (name : String) (r : Reader α) : Lawful (required name r) :=
  inferInstanceAs (Lawful (requiredAs name [] r))

instance (name : String) (r : Reader α) : Lawful (optional name r) where
  congr h := by
    have hget := h _ List.mem_cons_self
    simp only [Field.key, List.headD_cons] at hget
    simp only [optional, hget]
  exists_ok_iff {get} := by
    simp only [optional, List.forall_mem_singleton, Field.key, List.headD_cons]
    cases get name with
    | none => simp [Field.Admits]
    | some t => simp only [Field.Admits, checkOf_eq_ok_iff]

/-- Each field is called by one name, and the record is built alike from fields that are rearranged
by their shapes. -/
class Shaped (fs : Fields α) (shapes : outParam (List (String × Shape))) : Prop
    extends Lawful fs where
  names : fs.fields.map (·.names) = shapes.map fun s => [s.1]
  ok_iff {get get' : String → Option Tree} :
    (∀ s ∈ shapes, Option.Rel s.2.Rearranges (get s.1) (get' s.1)) → ∀ a,
      fs.build get = .ok a ↔ fs.build get' = .ok a

instance (a : α) : Shaped (pure a : Fields α) [] where
  names := rfl
  ok_iff _ _ := Iff.rfl

instance (f : Fields (α → β)) (x : Fields α) (shapes shapes' : List (String × Shape))
    [hf : Shaped f shapes] [hx : Shaped x shapes'] : Shaped (f <*> x) (shapes ++ shapes') where
  names := by
    change (f.fields ++ x.fields).map (·.names) = _
    rw [List.map_append, List.map_append, hf.names, hx.names]
  ok_iff h b := by
    rw [List.forall_mem_append] at h
    simp only [seq_build_eq_ok_iff, hf.ok_iff h.1, hx.ok_iff h.2]

instance (f : α → β) (x : Fields α) (shapes : List (String × Shape)) [Shaped x shapes] :
    Shaped (f <$> x) shapes :=
  inferInstanceAs (Shaped ((pure f : Fields (α → β)) <*> x) ([] ++ shapes))

instance (name : String) (r : Reader α) (shape : Shape) [hr : r.Indifferent shape] :
    Shaped (required name r) [(name, shape)] where
  names := rfl
  ok_iff {get get'} h a := by
    have hname := h _ List.mem_cons_self
    simp only [required_build_eq_ok_iff]
    generalize get name = there, get' name = there' at hname
    cases hname with
    | none => simp
    | some hrel => simp [hr.ok_iff hrel]

instance (name : String) (r : Reader α) : Shaped (optional name r) [(name, .single)] where
  names := rfl
  ok_iff {get get'} h a := by
    have hname := h _ List.mem_cons_self
    simp only [optional_build_eq_ok_iff]
    generalize get name = there, get' name = there' at hname
    cases hname with
    | none => rfl
    | some hrel => rw [Shape.rearranges_single_iff.1 hrel]

end Fields

/-! ## Records -/

variable {fs : Fields α} {shapes : List (String × Shape)} [hfs : fs.Shaped shapes]

/-- The keys of shapes. -/
abbrev keysOf (shapes : List (String × Shape)) : List String := shapes.map (·.1)

theorem Fields.Shaped.keys : fs.fields.map Field.key = keysOf shapes := by
  have hkeys := congrArg (List.map fun names : List String => names.headD "") hfs.names
  rwa [List.map_map, List.map_map] at hkeys

theorem Fields.Shaped.singleNamed (h : (keysOf shapes).Nodup) : SingleNamed fs.fields where
  names f hf := by
    have hnames : f.names ∈ shapes.map fun s => [s.1] := hfs.names ▸ List.mem_map_of_mem hf
    obtain ⟨s, -, hs⟩ := List.mem_map.1 hnames
    rw [Field.key, ← hs, List.headD_cons]
  nodup := hfs.keys ▸ h

/-! ### Objects -/

section

variable {keys : List String} {key : String} {tolerance : Tolerance}

theorem lookup_eq_some_iff_mem {ms : List (String × β)} {value : β} (hkey : key ∈ keys)
    (honce : ((ms.map (·.1)).filter keys.contains).Nodup) :
    ms.lookup key = some value ↔ (key, value) ∈ ms := by
  refine ⟨fun h => ?_, fun hmem => lookup_eq_some_of_mem hkey hmem honce⟩
  obtain ⟨before, after, rfl, -⟩ := List.lookup_eq_some_iff.1 h
  simp

theorem lookup_of_perm {ms ms' : List (String × β)} (hkey : key ∈ keys)
    (hadmits : tolerance.Admits keys ms) (hperm : ms.Perm ms') : ms.lookup key = ms'.lookup key := by
  have hadmits' := hadmits.of_perm (hperm.symm.map _)
  refine Option.ext fun value => ?_
  rw [lookup_eq_some_iff_mem hkey hadmits.once, lookup_eq_some_iff_mem hkey hadmits'.once,
    hperm.mem_iff]

theorem admits_cons_congr {ms : List (String × β)} {value value' : β} :
    tolerance.Admits keys ((key, value) :: ms) ↔ tolerance.Admits keys ((key, value') :: ms) :=
  ⟨fun h => h.of_perm (.refl _), fun h => h.of_perm (.refl _)⟩

/-- Members in another order have texts as keys if they had. -/
theorem exists_named_of_perm {ms : List (String × Tree)} {members : List (Option String × Tree)}
    (h : (named ms).Perm members) : ∃ ms', members = named ms' ∧ ms.Perm ms' := by
  have hrange : members ∈ Set.range (List.map fun m : String × Tree => (some m.1, m.2)) := by
    rw [Set.range_list_map]
    intro m hm
    obtain ⟨m', -, heq⟩ := List.mem_map.1 (h.mem_iff.2 hm)
    exact ⟨m', heq⟩
  obtain ⟨ms', rfl⟩ := hrange
  refine ⟨ms', rfl, (List.map_perm_map_iff fun m m' hm => ?_).1 h⟩
  obtain ⟨hkey, hvalue⟩ := Prod.mk.inj hm
  exact Prod.ext (Option.some.inj hkey) hvalue

/-- An object that a record is read from has texts as keys behind its first member. -/
theorem exists_named_of_record_cons {m : Option String × Tree} {members : List (Option String × Tree)}
    {a : α} (h : record tolerance fs (.object (m :: members)) = .ok a) : ∃ ms, members = named ms := by
  obtain ⟨_ | ⟨_, ms⟩, hms⟩ := exists_named_of_record h
  · cases hms
  · exact ⟨ms, (List.cons.inj hms).2⟩

variable {members members' : List (Option String × Tree)} {t t' : Tree}
  (hkeys : (keysOf shapes).Nodup)

include hkeys

theorem ok_of_permute (hperm : members.Perm members') {a : α}
    (hread : record .lenient fs (.object members) = .ok a) :
    record .lenient fs (.object members') = .ok a := by
  have hnamed : SingleNamed fs.fields := Fields.Shaped.singleNamed hkeys
  obtain ⟨ms, rfl⟩ := exists_named_of_record hread
  obtain ⟨ms', rfl, hreordered⟩ := exists_named_of_perm hperm
  obtain ⟨hadmits, hpass, hbuild⟩ := (record_named_eq_ok_iff hnamed).1 hread
  refine (record_named_eq_ok_iff hnamed).2 ⟨hadmits.of_perm (hreordered.symm.map _),
    fun m hm => hpass m (hreordered.mem_iff.2 hm), ?_⟩
  rw [← hbuild]
  exact hfs.congr fun f hf => by rw [lookup_of_perm (List.mem_map_of_mem hf) hadmits hreordered]

theorem ok_iff_add (hkey : key ∉ keysOf shapes) (hintact : t.intact = true) (a : α) :
    record .lenient fs (.object members) = .ok a ↔
      record .lenient fs (.object ((some key, t) :: members)) = .ok a := by
  by_cases htexts : ∃ ms, members = named ms
  · obtain ⟨ms, rfl⟩ := htexts
    have hnamed : SingleNamed fs.fields := Fields.Shaped.singleNamed hkeys
    have hbuild : fs.build (fun k => ((key, t) :: ms).lookup k) = fs.build fun k => ms.lookup k := by
      refine hfs.congr fun f hf => ?_
      have hmem : f.key ∈ keysOf shapes := hfs.keys ▸ List.mem_map_of_mem hf
      rw [lookup_cons_of_ne fun heq : f.key = key => hkey (heq ▸ hmem)]
    have hcons : (some key, t) :: named ms = named ((key, t) :: ms) := rfl
    rw [hcons, record_named_eq_ok_iff hnamed, record_named_eq_ok_iff hnamed, hfs.keys,
      admits_cons_of_not_mem t hkey, passable_cons_of_not_mem hkey, hbuild]
    simp [Tolerance.lenient, hintact]
  · exact iff_of_false (fun h => htexts (exists_named_of_record h))
      fun h => htexts (exists_named_of_record_cons h)

theorem ok_iff_member {shape : Shape} (hfield : (key, shape) ∈ shapes)
    (hinner : shape.Rearranges t t') (a : α) :
    record .lenient fs (.object ((some key, t) :: members)) = .ok a ↔
      record .lenient fs (.object ((some key, t') :: members)) = .ok a := by
  by_cases htexts : ∃ ms, members = named ms
  · obtain ⟨ms, rfl⟩ := htexts
    have hnamed : SingleNamed fs.fields := Fields.Shaped.singleNamed hkeys
    have hkey : key ∈ keysOf shapes := List.mem_map.2 ⟨_, hfield, rfl⟩
    have hcons (t : Tree) : (some key, t) :: named ms = named ((key, t) :: ms) := rfl
    rw [hcons, hcons, record_named_eq_ok_iff hnamed, record_named_eq_ok_iff hnamed, hfs.keys,
      admits_cons_congr, passable_cons_of_mem hkey, passable_cons_of_mem hkey]
    refine and_congr_right fun _ => and_congr_right fun _ => hfs.ok_iff (fun s hs => ?_) a
    by_cases hsame : s.1 = key
    · obtain rfl : s = (key, shape) := List.inj_on_of_nodup_map hkeys hs hfield hsame
      rw [List.lookup_cons_self, List.lookup_cons_self]
      exact .some hinner
    · rw [lookup_cons_of_ne hsame, lookup_cons_of_ne hsame]
      exact Shape.rel_refl s.2 _
  · exact iff_of_false (fun h => htexts (exists_named_of_record_cons h))
      fun h => htexts (exists_named_of_record_cons h)

end

/-! ### Arrays -/

/-- There is an item for each field, but for those at the end that have defaults, and there are no
more items, unless surplus ones are ignored. -/
structure Tolerance.Spans (tolerance : Tolerance) (fields : List Field) (count : Nat) : Prop where
  enough : ∀ f ∈ fields.drop count, f.absence = .defaulted
  limited : tolerance.surplus = false → count ≤ fields.length

section

variable {tolerance : Tolerance} {fields : List Field} {seen : List (String × Tree)}

theorem spans_nil_cons_iff {f : Field} :
    tolerance.Spans (f :: fields) 0 ↔ f.absence = .defaulted ∧ tolerance.Spans fields 0 := by
  constructor
  · rintro ⟨henough, -⟩
    rw [List.drop_zero, List.forall_mem_cons] at henough
    exact ⟨henough.1, henough.2, fun _ => Nat.zero_le _⟩
  · rintro ⟨hf, henough, -⟩
    exact ⟨List.forall_mem_cons.2 ⟨hf, henough⟩, fun _ => Nat.zero_le _⟩

theorem spans_cons_succ_iff {f : Field} {count : Nat} :
    tolerance.Spans (f :: fields) (count + 1) ↔ tolerance.Spans fields count := by
  constructor
  · rintro ⟨henough, hlimited⟩
    exact ⟨henough, fun h => Nat.le_of_succ_le_succ (hlimited h)⟩
  · rintro ⟨henough, hlimited⟩
    exact ⟨henough, fun h => Nat.succ_le_succ (hlimited h)⟩

/-- Each item fits the field at its place. -/
def FitInOrder (fields : List Field) (items : List Tree) : Prop :=
  ∀ (place : Nat) (f : Field) (t : Tree), fields[place]? = some f → items[place]? = some t →
    f.check t = .ok ()

theorem fitInOrder_cons_iff {f : Field} {t : Tree} {rest : List Tree} :
    FitInOrder (f :: fields) (t :: rest) ↔ f.check t = .ok () ∧ FitInOrder fields rest := by
  constructor
  · exact fun h => ⟨h 0 f t rfl rfl, fun place g u hg hu => h (place + 1) g u hg hu⟩
  · rintro ⟨hcheck, hrest⟩ (_ | place) g u hg hu
    · obtain rfl := Option.some.inj hg
      obtain rfl := Option.some.inj hu
      exact hcheck
    · exact hrest place g u hg hu

/-- The items of an array can be gone through if they span the fields and fit them in order. -/
theorem exists_readItems_iff {items : List Tree} :
    (∃ seen', readItems tolerance seen fields items = .ok seen') ↔
      tolerance.Spans fields items.length ∧ FitInOrder fields items := by
  induction fields generalizing seen items with
  | nil =>
    have hfit : FitInOrder [] items := fun _ _ _ hf => by simp at hf
    rw [and_iff_left hfit]
    cases items with
    | nil => exact iff_of_true ⟨seen, rfl⟩ ⟨by simp, fun _ => Nat.le_refl 0⟩
    | cons t rest =>
      rw [readItems]
      cases hsurplus : tolerance.surplus with
      | true => exact iff_of_true ⟨seen, rfl⟩ ⟨by simp, by simp [hsurplus]⟩
      | false => exact iff_of_false (by simp) fun h => absurd (h.limited hsurplus) (by simp)
  | cons f fields ih =>
    cases items with
    | nil =>
      have hfit (fs : List Field) : FitInOrder fs [] := fun _ _ _ _ ht => by simp at ht
      have hrest := @ih seen []
      rw [and_iff_left (hfit _)] at hrest ⊢
      rw [List.length_nil] at hrest ⊢
      rw [spans_nil_cons_iff, ← hrest, readItems]
      split
      · next hdefault => simp [hdefault]
      · next hdefault => simp [hdefault]
    | cons t rest =>
      rw [fitInOrder_cons_iff, List.length_cons, spans_cons_succ_iff, readItems, and_left_comm,
        ← @ih ((f.key, t) :: seen)]
      cases f.check t <;> simp

end

/-- The tree in an array at the place of a key. -/
def placed (keys : List String) (items : List Tree) (key : String) : Option Tree :=
  items[keys.idxOf key]?

theorem placed_key {fields : List Field} {place : Nat} {f : Field} (h : SingleNamed fields)
    (hf : fields[place]? = some f) (items : List Tree) :
    placed (fields.map Field.key) items f.key = items[place]? := by
  have hkey : (fields.map Field.key)[place]? = some f.key := by rw [List.getElem?_map, hf]; rfl
  obtain ⟨hplace, hget⟩ := List.getElem?_eq_some_iff.1 hkey
  rw [placed, ← hget, h.nodup.idxOf_getElem place hplace]

/-- A record is read from an array if and only if its items span the fields and it is built from the
items at their places. -/
theorem record_array_eq_ok_iff {fs : Fields α} [hfs : fs.Lawful] {tolerance : Tolerance}
    {items : List Tree} (h : SingleNamed fs.fields) {a : α} :
    record tolerance fs (.array items) = .ok a ↔ tolerance.Spans fs.fields items.length ∧
      fs.build (fun key => placed (fs.fields.map Field.key) items key) = .ok a := by
  have hbuilt {seen} (hread : readItems tolerance [] fs.fields items = .ok seen) :
      fs.build (fun key => seen.lookup key) =
        fs.build fun key => placed (fs.fields.map Field.key) items key := by
    refine hfs.congr fun f hf => ?_
    obtain ⟨place, hplace⟩ := List.getElem?_of_mem hf
    rw [(lookup_of_readItems h.wellNamed hread).2 place f hplace, placed_key h hplace,
      List.lookup_nil, Option.or_none]
  simp only [record]
  constructor
  · intro hread
    cases hseen : readItems tolerance [] fs.fields items with
    | error e =>
      rw [hseen] at hread
      cases hread
    | ok seen =>
      simp only [hseen, bind, Except.bind] at hread
      exact ⟨(exists_readItems_iff.1 ⟨seen, hseen⟩).1, hbuilt hseen ▸ hread⟩
  · rintro ⟨hspans, hbuild⟩
    have hcontent := hfs.exists_ok_iff.1 ⟨a, hbuild⟩
    have hfit : FitInOrder fs.fields items := by
      intro place f t hf ht
      have hfield := hcontent f (List.mem_of_getElem? hf)
      rw [placed_key h hf, ht] at hfield
      exact hfield
    obtain ⟨seen, hseen⟩ : ∃ seen, readItems tolerance [] fs.fields items = .ok seen :=
      exists_readItems_iff.2 ⟨hspans, hfit⟩
    simp only [hseen, bind, Except.bind, hbuilt hseen, hbuild]

theorem ok_iff_item {items : List Tree} {place : Nat} {key : String} {shape : Shape}
    {t t' : Tree} (hkeys : (keysOf shapes).Nodup) (hfield : shapes[place]? = some (key, shape))
    (hthere : items[place]? = some t) (hinner : shape.Rearranges t t') (a : α) :
    record .lenient fs (.array items) = .ok a ↔
      record .lenient fs (.array (items.set place t')) = .ok a := by
  have hnamed : SingleNamed fs.fields := Fields.Shaped.singleNamed hkeys
  have hplace : place < items.length := (List.getElem?_eq_some_iff.1 hthere).1
  rw [record_array_eq_ok_iff hnamed, record_array_eq_ok_iff hnamed, List.length_set, hfs.keys]
  refine and_congr_right fun _ => hfs.ok_iff (fun s hs => ?_) a
  simp only [placed, List.getElem?_set, hplace, if_true]
  split
  · next hsame =>
    have hs' : (keysOf shapes)[place]? = some s.1 :=
      hsame ▸ List.getElem?_idxOf (List.mem_map_of_mem hs)
    rw [keysOf, List.getElem?_map, hfield] at hs'
    obtain rfl : s = (key, shape) :=
      List.inj_on_of_nodup_map hkeys hs (List.mem_of_getElem? hfield) (Option.some.inj hs').symm
    rw [← hsame, hthere]
    exact .some hinner
  · exact Shape.rel_refl s.2 _

/-! ### Both -/

/-- A record that skips what it does not know is read alike from whatever is rearranged. -/
theorem Fields.Shaped.indifferent (hkeys : (keysOf shapes).Nodup) :
    (Json.record .lenient fs).Indifferent (.record shapes) where
  ok_iff {t t'} h := by
    generalize hshape : Shape.record shapes = shape at h
    induction h with
    | refl => exact fun _ => Iff.rfl
    | trans _ _ ihfirst ihsecond =>
      exact fun a => (ihfirst hshape a).trans (ihsecond hshape a)
    | permute hperm =>
      exact fun _ => ⟨ok_of_permute hkeys hperm, ok_of_permute hkeys hperm.symm⟩
    | add hunknown hintact members =>
      cases hshape
      exact ok_iff_add hkeys hunknown hintact
    | member hfield hinner members =>
      cases hshape
      exact ok_iff_member hkeys hfield hinner
    | item hfield hthere hinner =>
      cases hshape
      exact ok_iff_item hkeys hfield hthere hinner

/-- A record is read from an object that has the fields as its members. -/
theorem Fields.Shaped.read_fields {members : List (String × Json)} (hkeys : (keysOf shapes).Nodup)
    (hmembers : members.map (·.1) = keysOf shapes) {a : α}
    (hbuild : fs.build (fun key => (members.lookup key).map tree) = .ok a) :
    record .lenient fs (tree (.object members)) = .ok a := by
  refine (record_object_eq_ok_iff (Shaped.singleNamed hkeys)).2 ⟨⟨fun h => ?_, ?_⟩, hbuild⟩
  · simp [Tolerance.lenient] at h
  · exact (hmembers ▸ hkeys).filter _

/-! ## Trees that are taken in whole -/

namespace Tree

variable {n : Nat} {items : List Tree} {members : List (Option String × Tree)}

/-- Every literal in the tree denotes something, and nothing is nested more deeply than this. -/
def Bears (t : Tree) (n : Nat) : Prop := t.clean = true ∧ t.depth ≤ n

theorem bears_array_iff :
    (array items).Bears n ↔ 0 < n ∧ ∀ t ∈ items, t.Bears (n - 1) := by
  have hclean : cleanItems items = true ↔ ∀ t ∈ items, t.clean = true := by
    induction items with
    | nil => simp [cleanItems]
    | cons t rest ih => rw [cleanItems, Bool.and_eq_true, ih, List.forall_mem_cons]
  have hdepth (k : Nat) : depthItems items ≤ k ↔ ∀ t ∈ items, t.depth ≤ k := by
    clear hclean
    induction items with
    | nil => simp [depthItems]
    | cons t rest ih => rw [depthItems, Nat.max_le, ih, List.forall_mem_cons]
  cases n with
  | zero => simp [Bears, depth]
  | succ k => simp [Bears, clean, depth, hclean, hdepth, forall_and]

theorem bears_object_iff :
    (object members).Bears n ↔ 0 < n ∧ ∀ m ∈ members, m.1.isSome = true ∧ m.2.Bears (n - 1) := by
  have hclean : cleanMembers members = true ↔
      ∀ m ∈ members, m.1.isSome = true ∧ m.2.clean = true := by
    induction members with
    | nil => simp [cleanMembers]
    | cons member rest ih =>
      rw [cleanMembers, Bool.and_eq_true, Bool.and_eq_true, ih, List.forall_mem_cons]
  have hdepth (k : Nat) : depthMembers members ≤ k ↔ ∀ m ∈ members, m.2.depth ≤ k := by
    clear hclean
    induction members with
    | nil => simp [depthMembers]
    | cons member rest ih => rw [depthMembers, Nat.max_le, ih, List.forall_mem_cons]
  cases n with
  | zero => simp [Bears, depth]
  | succ k =>
    simp only [Bears, clean, depth, hclean, Nat.succ_le_succ_iff, hdepth, Nat.zero_lt_succ, true_and,
      Nat.add_one_sub_one, ← forall₂_and, and_assoc]

end Tree

/-- A tree that is rearranged to one that can be taken in whole can be taken in whole itself. -/
theorem Shape.Rearranges.bears {shape : Shape} {t t' : Tree} (h : shape.Rearranges t t') {n : Nat}
    (hbears : t'.Bears n) : t.Bears n := by
  induction h generalizing n with
  | refl => exact hbears
  | trans _ _ ihfirst ihsecond => exact ihfirst (ihsecond hbears)
  | permute hperm =>
    obtain ⟨hpos, hmembers⟩ := Tree.bears_object_iff.1 hbears
    exact Tree.bears_object_iff.2 ⟨hpos, fun m hm => hmembers m (hperm.mem_iff.1 hm)⟩
  | add hunknown hintact members =>
    obtain ⟨hpos, hmembers⟩ := Tree.bears_object_iff.1 hbears
    exact Tree.bears_object_iff.2 ⟨hpos, fun m hm => hmembers m (List.mem_cons_of_mem _ hm)⟩
  | member hfield hinner members ih =>
    obtain ⟨hpos, hmembers⟩ := Tree.bears_object_iff.1 hbears
    obtain ⟨⟨hkey, hvalue⟩, hrest⟩ := List.forall_mem_cons.1 hmembers
    exact Tree.bears_object_iff.2 ⟨hpos, List.forall_mem_cons.2 ⟨⟨hkey, ih hvalue⟩, hrest⟩⟩
  | @item fields place key shape items t t' hfield hthere hinner ih =>
    obtain ⟨hpos, hitems⟩ := Tree.bears_array_iff.1 hbears
    refine Tree.bears_array_iff.2 ⟨hpos, fun u hu => ?_⟩
    obtain ⟨i, hi⟩ := List.getElem?_of_mem hu
    by_cases hplace : place = i
    · obtain rfl : t = u := Option.some.inj (hthere.symm.trans (hplace ▸ hi))
      exact ih (hitems t' (List.mem_set (List.getElem?_eq_some_iff.1 hthere).1 t'))
    · have hkept : (items.set place t')[i]? = some u := by rw [List.getElem?_set_ne hplace, hi]
      exact hitems u (List.mem_of_getElem? hkept)

end Concierge.Json
