import Concierge.Proofs.Json.Records

/-!
# Records read from objects

Which objects a record is read from, and as what: its keys are fields, unless others are tolerated,
no field is said twice, and the record can be built from the members that the fields name.  Order
plays no part, nor does what else there is, so long as it can be passed over: a literal there need not
denote anything.
-/

namespace Concierge.Json

/-! ## Values and their trees -/

theorem treeItems_eq_map (items : List Json) : treeItems items = items.map tree := by
  induction items with
  | nil => rfl
  | cons item rest ih => rw [treeItems, ih, List.map_cons]

theorem treeMembers_eq_map (members : List (String × Json)) :
    treeMembers members = members.map fun m => (some m.1, tree m.2) := by
  induction members with
  | nil => rfl
  | cons member rest ih => rw [treeMembers, ih, List.map_cons]

/-- Members whose keys denote texts. -/
def named (members : List (String × Tree)) : List (Option String × Tree) :=
  members.map fun m => (some m.1, m.2)

theorem treeMembers_eq_named (members : List (String × Json)) :
    treeMembers members = named (members.map fun m => (m.1, tree m.2)) := by
  rw [treeMembers_eq_map, named, List.map_map]
  rfl

/-- A step into a value: the key of a member, and the place that it has where the members are the
items of an array. -/
abbrev Step := String × Nat

/-- What a value has at a step. -/
def step? (step : Step) : Json → Option Json
  | .object members => members.lookup step.1
  | .array items => items[step.2]?
  | _ => none

/-- What a value has at the end of a path. -/
def at? : List Step → Json → Option Json
  | [], j => some j
  | step :: rest, j => (j.step? step).bind (at? rest)

theorem field?_named (name : String) (place : Nat) (members : List (String × Tree)) :
    (Tree.object (named members)).field? [name] place = members.lookup name := by
  rw [Tree.field?, named]
  induction members with
  | nil => rfl
  | cons member rest ih =>
    obtain ⟨key, t⟩ := member
    by_cases hkey : key = name
    · simp [hkey]
    · rw [lookup_cons_of_ne (Ne.symm hkey), ← ih]
      simp [hkey]

theorem lookup_map_tree (members : List (String × Json)) (key : String) :
    (members.map fun m => (m.1, tree m.2)).lookup key = (members.lookup key).map tree := by
  induction members with
  | nil => rfl
  | cons member rest ih =>
    obtain ⟨k, value⟩ := member
    rw [List.map_cons]
    by_cases hkey : key = k
    · simp [hkey]
    · rw [lookup_cons_of_ne hkey, lookup_cons_of_ne hkey, ih]

theorem field?_tree (name : String) (place : Nat) (j : Json) :
    (tree j).field? [name] place = (j.step? (name, place)).map tree := by
  cases j with
  | int i =>
    rw [tree]
    split <;> rfl
  | array items => simp [tree, Tree.field?, step?, treeItems_eq_map]
  | object members => rw [tree, treeMembers_eq_named, field?_named, lookup_map_tree, step?]
  | _ => rfl

mutual

theorem intact_tree : ∀ j : Json, (tree j).intact = true
  | .null | .bool _ | .real _ | .string _ => rfl
  | .int i => by
    rw [tree]
    split <;> rfl
  | .array items => intactItems_tree items
  | .object members => intactMembers_tree members

theorem intactItems_tree : ∀ items : List Json, Tree.intactItems (treeItems items) = true
  | [] => rfl
  | item :: rest => Bool.and_eq_true_iff.2 ⟨intact_tree item, intactItems_tree rest⟩

theorem intactMembers_tree : ∀ members : List (String × Json),
    Tree.intactMembers (treeMembers members) = true
  | [] => rfl
  | (_, value) :: rest => Bool.and_eq_true_iff.2 ⟨intact_tree value, intactMembers_tree rest⟩

end

/-! ## Building from what fits -/

/-- A field can do with what is there for it. -/
def Field.Admits (f : Field) : Option Tree → Prop
  | some t => f.check t = .ok ()
  | none => f.absence ≠ .refused

namespace Fields

variable {α β : Type}

theorem checkOf_eq_ok_iff {r : Reader α} {t : Tree} : checkOf r t = .ok () ↔ ∃ a, r t = .ok a := by
  unfold checkOf
  cases r t <;> simp [Except.map]

/-- A record is built from its fields alone, and can be built as soon as each of them is content. -/
class Lawful (fs : Fields α) : Prop where
  congr {get get' : String → Option Tree} :
    (∀ f ∈ fs.fields, get f.key = get' f.key) → fs.build get = fs.build get'
  exists_ok_iff {get : String → Option Tree} :
    (∃ a, fs.build get = .ok a) ↔ ∀ f ∈ fs.fields, f.Admits (get f.key)

instance (a : α) : Lawful (pure a : Fields α) where
  congr _ := rfl
  exists_ok_iff {_} := iff_of_true ⟨a, rfl⟩ fun _ hf => nomatch hf

instance (f : Fields (α → β)) (x : Fields α) [hf : Lawful f] [hx : Lawful x] :
    Lawful (f <*> x) where
  congr {get get'} h := by
    change (f.build get >>= fun g => x.build get >>= fun a => pure (g a)) =
      (f.build get' >>= fun g => x.build get' >>= fun a => pure (g a))
    rw [hf.congr fun field hfield => h field (List.mem_append_left _ hfield),
      hx.congr fun field hfield => h field (List.mem_append_right _ hfield)]
  exists_ok_iff {get} := by
    change _ ↔ ∀ field ∈ f.fields ++ x.fields, field.Admits (get field.key)
    rw [List.forall_mem_append, ← hf.exists_ok_iff, ← hx.exists_ok_iff]
    simp only [seq_build_eq_ok_iff]
    exact ⟨fun ⟨_, g, a, hg, ha, _⟩ => ⟨⟨g, hg⟩, a, ha⟩,
      fun ⟨⟨g, hg⟩, a, ha⟩ => ⟨_, g, a, hg, ha, rfl⟩⟩

instance (f : α → β) (x : Fields α) [Lawful x] : Lawful (f <$> x) :=
  inferInstanceAs (Lawful ((pure f : Fields (α → β)) <*> x))

instance (name : String) (others : List String) (default : α) (r : Reader α) :
    Lawful (defaultedAs name others default r) where
  congr h := by
    have hget := h _ List.mem_cons_self
    simp only [Field.key, List.headD_cons] at hget
    simp only [defaultedAs, hget]
  exists_ok_iff {get} := by
    simp only [defaultedAs, List.forall_mem_singleton, Field.key, List.headD_cons]
    cases get name with
    | none => simp [Field.Admits]
    | some t => simp only [Field.Admits, checkOf_eq_ok_iff]

instance (name : String) (default : α) (r : Reader α) : Lawful (defaulted name default r) :=
  inferInstanceAs (Lawful (defaultedAs name [] default r))

end Fields

/-! ## Going through the members -/

/-- What a record asks of an object beyond the values of its fields: its keys are fields, unless
others are tolerated, and no field is said twice. -/
structure Tolerance.Admits {α : Type} (tolerance : Tolerance) (keys : List String)
    (members : List (String × α)) : Prop where
  known : tolerance.unknownMembers = false → ∀ m ∈ members, m.1 ∈ keys
  once : ((members.map (·.1)).filter keys.contains).Nodup

/-- The members that are no fields can be passed over. -/
def Passable (keys : List String) (members : List (String × Tree)) : Prop :=
  ∀ m ∈ members, m.1 ∉ keys → m.2.intact = true

/-- Every field goes by one name, and no two by the same. -/
structure SingleNamed (fields : List Field) : Prop where
  names : ∀ f ∈ fields, f.names = [f.key]
  nodup : (fields.map Field.key).Nodup

variable {fields : List Field} {tolerance : Tolerance} {seen : List (String × Tree)}

theorem SingleNamed.wellNamed (h : SingleNamed fields) : WellNamed fields where
  named f hf := by simp [h.names f hf]
  nodup := by
    have hkeys : fields.flatMap (·.names) = fields.map Field.key := by
      rw [List.flatMap_congr h.names]
      exact List.flatMap_pure_eq_map Field.key fields
    exact hkeys ▸ h.nodup

theorem SingleNamed.fieldOf?_eq_some_iff (h : SingleNamed fields) {key : String} {f : Field} :
    fieldOf? fields key = some f ↔ f ∈ fields ∧ f.key = key := by
  rw [h.wellNamed.fieldOf?_eq_some_iff]
  refine and_congr_right fun hf => ?_
  rw [h.names f hf, List.mem_singleton, eq_comm]

theorem SingleNamed.fieldOf?_eq_none_iff (h : SingleNamed fields) {key : String} :
    fieldOf? fields key = none ↔ key ∉ fields.map Field.key := by
  rw [Option.eq_none_iff_forall_ne_some, List.mem_map]
  simp only [ne_eq, h.fieldOf?_eq_some_iff, not_exists]

section

variable {α : Type} {keys : List String} {key : String} {members : List (String × α)}

/-- Only the keys count, in whatever order. -/
theorem Tolerance.Admits.of_perm {β : Type} {members' : List (String × β)}
    (h : tolerance.Admits keys members)
    (hperm : (members'.map (·.1)).Perm (members.map (·.1))) : tolerance.Admits keys members' where
  known hstrict m hm := by
    obtain ⟨m', hm', heq⟩ := List.mem_map.1 (hperm.mem_iff.1 (List.mem_map_of_mem hm))
    exact heq ▸ h.known hstrict m' hm'
  once := (hperm.filter _).nodup_iff.2 h.once

theorem admits_map_tree_iff {members : List (String × Json)} :
    tolerance.Admits keys (members.map fun m => (m.1, tree m.2)) ↔ tolerance.Admits keys members := by
  have hkeys : (members.map fun m => (m.1, tree m.2)).map (·.1) = members.map (·.1) := by
    rw [List.map_map]
    rfl
  exact ⟨fun h => h.of_perm (.of_eq hkeys.symm), fun h => h.of_perm (.of_eq hkeys)⟩

theorem lookup_eq_some_of_mem {value : α} (hkey : key ∈ keys) (hmem : (key, value) ∈ members)
    (honce : ((members.map (·.1)).filter keys.contains).Nodup) : members.lookup key = some value := by
  induction members with
  | nil => cases hmem
  | cons member rest ih =>
    obtain ⟨k, v⟩ := member
    obtain heq | hlater := List.mem_cons.1 hmem
    · cases heq
      exact List.lookup_cons_self
    · have hrest : key ∈ (rest.map (·.1)).filter keys.contains :=
        List.mem_filter.2 ⟨List.mem_map.2 ⟨_, hlater, rfl⟩, List.contains_iff_mem.2 hkey⟩
      rw [List.map_cons] at honce
      by_cases hk : k ∈ keys
      · rw [List.filter_cons_of_pos (List.contains_iff_mem.2 hk), List.nodup_cons] at honce
        have hne : key ≠ k := fun heq => honce.1 (heq ▸ hrest)
        rw [lookup_cons_of_ne hne]
        exact ih hlater honce.2
      · rw [List.filter_cons_of_neg (List.contains_iff_mem.not.2 hk)] at honce
        have hne : key ≠ k := fun heq => hk (heq ▸ hkey)
        rw [lookup_cons_of_ne hne]
        exact ih hlater honce

theorem admits_cons_of_mem (value : α) (hkey : key ∈ keys) :
    tolerance.Admits keys ((key, value) :: members) ↔
      tolerance.Admits keys members ∧ key ∉ members.map (·.1) := by
  have hmem : key ∈ (members.map (·.1)).filter keys.contains ↔ key ∈ members.map (·.1) := by
    rw [List.mem_filter, and_iff_left (List.contains_iff_mem.2 hkey)]
  constructor
  · rintro ⟨hknown, honce⟩
    rw [List.map_cons, List.filter_cons_of_pos (List.contains_iff_mem.2 hkey), List.nodup_cons, hmem] at honce
    exact ⟨⟨fun h m hm => hknown h m (List.mem_cons_of_mem _ hm), honce.2⟩, honce.1⟩
  · rintro ⟨⟨hknown, honce⟩, hapart⟩
    refine ⟨fun h => List.forall_mem_cons.2 ⟨hkey, hknown h⟩, ?_⟩
    rw [List.map_cons, List.filter_cons_of_pos (List.contains_iff_mem.2 hkey), List.nodup_cons, hmem]
    exact ⟨hapart, honce⟩

theorem admits_cons_of_not_mem (value : α) (hkey : key ∉ keys) :
    tolerance.Admits keys ((key, value) :: members) ↔
      tolerance.unknownMembers = true ∧ tolerance.Admits keys members := by
  have hfilter : (((key, value) :: members).map (·.1)).filter keys.contains =
      (members.map (·.1)).filter keys.contains :=
    List.filter_cons_of_neg (List.contains_iff_mem.not.2 hkey)
  constructor
  · rintro ⟨hknown, honce⟩
    refine ⟨Bool.not_eq_false _ ▸ fun h => hkey (hknown h _ List.mem_cons_self), ?_, hfilter ▸ honce⟩
    exact fun h m hm => hknown h m (List.mem_cons_of_mem _ hm)
  · rintro ⟨hunknown, hknown, honce⟩
    exact ⟨fun h => absurd (hunknown.symm.trans h) (by decide), hfilter ▸ honce⟩

end

variable {members : List (String × Tree)} {key : String} {t : Tree}

theorem passable_cons_of_mem {keys : List String} (hkey : key ∈ keys) :
    Passable keys ((key, t) :: members) ↔ Passable keys members := by
  simp [Passable, hkey]

theorem passable_cons_of_not_mem {keys : List String} (hkey : key ∉ keys) :
    Passable keys ((key, t) :: members) ↔ t.intact = true ∧ Passable keys members := by
  simp [Passable, hkey]

/-- The members that are fields were not seen before, and fit. -/
def Fit (fields : List Field) (seen members : List (String × Tree)) : Prop :=
  ∀ f ∈ fields, ∀ t, (f.key, t) ∈ members → seen.lookup f.key = none ∧ f.check t = .ok ()

theorem fit_cons_of_not_mem (hkey : key ∉ fields.map Field.key) :
    Fit fields seen ((key, t) :: members) ↔ Fit fields seen members := by
  refine forall₂_congr fun f hf => forall_congr' fun v => ?_
  have hne : f.key ≠ key := fun heq => hkey (List.mem_map.2 ⟨f, hf, heq⟩)
  simp [hne]

/-- A field that fits is noted as seen, so no later member may name it. -/
theorem fit_cons_of_mem (h : SingleNamed fields) {f : Field} (hf : f ∈ fields) :
    f.key ∉ members.map (·.1) ∧ Fit fields seen ((f.key, t) :: members) ↔
      seen.lookup f.key = none ∧ f.check t = .ok () ∧ Fit fields ((f.key, t) :: seen) members := by
  constructor
  · rintro ⟨hapart, hfit⟩
    obtain ⟨hseen, hcheck⟩ := hfit f hf t List.mem_cons_self
    refine ⟨hseen, hcheck, fun g hg v hv => ?_⟩
    have hkey : g.key ≠ f.key := fun heq => hapart (List.mem_map.2 ⟨_, hv, heq⟩)
    rw [lookup_cons_of_ne hkey]
    exact hfit g hg v (List.mem_cons_of_mem _ hv)
  · rintro ⟨hseen, hcheck, hfit⟩
    refine ⟨fun hmem => ?_, fun g hg v hv => ?_⟩
    · obtain ⟨⟨_, v⟩, hv, rfl⟩ := List.mem_map.1 hmem
      have hunseen := (hfit f hf v hv).1
      rw [List.lookup_cons_self] at hunseen
      cases hunseen
    · obtain heq | hlater := List.mem_cons.1 hv
      · obtain ⟨hkey, rfl⟩ := Prod.mk.inj heq
        cases h.wellNamed.eq_of_key hg hf hkey
        exact ⟨hseen, hcheck⟩
      · obtain ⟨hunseen, hgcheck⟩ := hfit g hg v hlater
        refine ⟨?_, hgcheck⟩
        by_cases hkey : g.key = f.key
        · rw [hkey]
          exact hseen
        · rwa [lookup_cons_of_ne hkey] at hunseen

theorem exists_readMembers_unknown (hfield : fieldOf? fields key = none)
    (rest : List (Option String × Tree)) :
    (∃ seen', readMembers fields tolerance seen ((some key, t) :: rest) = .ok seen') ↔
      tolerance.unknownMembers = true ∧ t.intact = true ∧
        ∃ seen', readMembers fields tolerance seen rest = .ok seen' := by
  simp only [readMembers, hfield, Reader.skip]
  cases tolerance.unknownMembers <;> cases t.intact <;> simp

theorem exists_readMembers_known {f : Field} (hfield : fieldOf? fields key = some f)
    (rest : List (Option String × Tree)) :
    (∃ seen', readMembers fields tolerance seen ((some key, t) :: rest) = .ok seen') ↔
      seen.lookup f.key = none ∧ f.check t = .ok () ∧
        ∃ seen', readMembers fields tolerance ((f.key, t) :: seen) rest = .ok seen' := by
  simp only [readMembers, hfield]
  cases seen.lookup f.key with
  | none => cases f.check t <;> simp
  | some _ => simp

/-- The members of an object can be gone through if its keys are admitted, what is no field can be
passed over, nothing in it was seen before, and the members that are fields fit. -/
theorem exists_readMembers_iff (h : SingleNamed fields) :
    (∃ seen', readMembers fields tolerance seen (named members) = .ok seen') ↔
      tolerance.Admits (fields.map Field.key) members ∧ Passable (fields.map Field.key) members ∧
        Fit fields seen members := by
  induction members generalizing seen with
  | nil =>
    refine iff_of_true ⟨seen, rfl⟩
      ⟨⟨fun _ _ hm => ?_, List.nodup_nil⟩, fun _ hm => ?_, fun _ _ _ hm => ?_⟩ <;> cases hm
  | cons member rest ih =>
    obtain ⟨key, t⟩ := member
    have hcons : named ((key, t) :: rest) = (some key, t) :: named rest := rfl
    rw [hcons]
    cases hfield : fieldOf? fields key with
    | none =>
      have hkey := h.fieldOf?_eq_none_iff.1 hfield
      rw [exists_readMembers_unknown hfield, ih, admits_cons_of_not_mem t hkey,
        passable_cons_of_not_mem hkey, fit_cons_of_not_mem hkey]
      exact ⟨fun ⟨hunknown, hintact, hadmits, hpass, hfit⟩ =>
          ⟨⟨hunknown, hadmits⟩, ⟨hintact, hpass⟩, hfit⟩,
        fun ⟨⟨hunknown, hadmits⟩, ⟨hintact, hpass⟩, hfit⟩ =>
          ⟨hunknown, hintact, hadmits, hpass, hfit⟩⟩
    | some f =>
      obtain ⟨hf, rfl⟩ := h.fieldOf?_eq_some_iff.1 hfield
      have hkey : f.key ∈ fields.map Field.key := List.mem_map_of_mem hf
      rw [exists_readMembers_known hfield, ih, admits_cons_of_mem t hkey, passable_cons_of_mem hkey]
      constructor
      · rintro ⟨hseen, hcheck, hadmits, hpass, hfit⟩
        obtain ⟨hapart, hfit⟩ := (fit_cons_of_mem h hf).2 ⟨hseen, hcheck, hfit⟩
        exact ⟨⟨hadmits, hapart⟩, hpass, hfit⟩
      · rintro ⟨⟨hadmits, hapart⟩, hpass, hfit⟩
        obtain ⟨hseen, hcheck, hfit⟩ := (fit_cons_of_mem h hf).1 ⟨hapart, hfit⟩
        exact ⟨hseen, hcheck, hadmits, hpass, hfit⟩

/-- Members that were gone through have texts as keys. -/
theorem exists_named_of_readMembers {members : List (Option String × Tree)}
    {seen' : List (String × Tree)} (h : readMembers fields tolerance seen members = .ok seen') :
    ∃ ms, members = named ms := by
  induction members generalizing seen with
  | nil => exact ⟨[], rfl⟩
  | cons member rest ih =>
    obtain ⟨_ | key, t⟩ := member
    · cases h
    have hrest : ∃ seen, readMembers fields tolerance seen rest = .ok seen' := by
      rw [readMembers] at h
      split at h
      · split at h
        · cases h
        · split at h
          · cases h
          · exact ⟨_, h⟩
      · split at h
        · split at h
          · cases h
          · exact ⟨_, h⟩
        · cases h
    obtain ⟨seen, hseen⟩ := hrest
    obtain ⟨ms, rfl⟩ := ih hseen
    exact ⟨(key, t) :: ms, rfl⟩

/-- What was seen of a field is the first member with its key. -/
theorem SingleNamed.lookup_of_readMembers (h : SingleNamed fields) {f : Field} (hf : f ∈ fields)
    (hread : readMembers fields tolerance [] (named members) = .ok seen) :
    seen.lookup f.key = members.lookup f.key := by
  rw [Json.lookup_of_readMembers h.wellNamed hf 0 hread, h.names f hf, field?_named]
  rfl

section

variable {α : Type} {fs : Fields α} [hfs : fs.Lawful] {a : α}

omit hfs in
/-- An object that a record is read from has texts as keys. -/
theorem exists_named_of_record {members : List (Option String × Tree)}
    (h : record tolerance fs (.object members) = .ok a) : ∃ ms, members = named ms := by
  simp only [record] at h
  cases hseen : readMembers fs.fields tolerance [] members with
  | error e =>
    rw [hseen] at h
    cases h
  | ok seen => exact exists_named_of_readMembers hseen

/-- A record is read from an object if and only if its keys are admitted, what is no field can be passed
over, and the record is built from the members that its fields name. -/
theorem record_named_eq_ok_iff (h : SingleNamed fs.fields) :
    record tolerance fs (.object (named members)) = .ok a ↔
      tolerance.Admits (fs.fields.map Field.key) members ∧
        Passable (fs.fields.map Field.key) members ∧ fs.build (fun key => members.lookup key) = .ok a := by
  have hbuilt {seen} (hread : readMembers fs.fields tolerance [] (named members) = .ok seen) :
      fs.build (fun key => seen.lookup key) = fs.build fun key => members.lookup key :=
    hfs.congr fun _ hf => h.lookup_of_readMembers hf hread
  simp only [record]
  constructor
  · intro hread
    cases hseen : readMembers fs.fields tolerance [] (named members) with
    | error e =>
      rw [hseen] at hread
      cases hread
    | ok seen =>
      simp only [hseen, bind, Except.bind] at hread
      split at hread
      · obtain ⟨hadmits, hpass, -⟩ := (exists_readMembers_iff h).1 ⟨seen, hseen⟩
        exact ⟨hadmits, hpass, hbuilt hseen ▸ hread⟩
      · cases hread
  · rintro ⟨hadmits, hpass, hbuild⟩
    have hcontent := hfs.exists_ok_iff.1 ⟨a, hbuild⟩
    have hfit : Fit fs.fields [] members := by
      intro f hf t ht
      have hfield := hcontent f hf
      rw [lookup_eq_some_of_mem (List.mem_map_of_mem hf) ht hadmits.once] at hfield
      exact ⟨rfl, hfield⟩
    obtain ⟨seen, hseen⟩ := (exists_readMembers_iff h).2 ⟨hadmits, hpass, hfit⟩
    have hcomplete : complete fs.fields seen = true := by
      rw [complete, List.all_eq_true]
      intro f hf
      have hfield := hcontent f hf
      rw [h.lookup_of_readMembers hf hseen]
      cases hvalue : members.lookup f.key with
      | none =>
        rw [hvalue] at hfield
        have habsence : f.absence ≠ .refused := hfield
        simpa using habsence
      | some value => simp
    simp only [hseen, bind, Except.bind, hcomplete, if_true, hbuilt hseen, hbuild]

/-- Every member of a value can be passed over. -/
theorem record_object_eq_ok_iff (h : SingleNamed fs.fields) {members : List (String × Json)} :
    record tolerance fs (tree (.object members)) = .ok a ↔
      tolerance.Admits (fs.fields.map Field.key) members ∧
        fs.build (fun key => (members.lookup key).map tree) = .ok a := by
  have hpass : Passable (fs.fields.map Field.key) (members.map fun m => (m.1, tree m.2)) :=
    List.forall_mem_map.2 fun m _ _ => intact_tree m.2
  rw [tree, treeMembers_eq_named, record_named_eq_ok_iff h, admits_map_tree_iff, and_iff_right hpass]
  simp only [lookup_map_tree]

end

end Concierge.Json
