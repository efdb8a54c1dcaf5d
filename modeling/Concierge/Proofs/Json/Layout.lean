import Concierge.Proofs.Json.Objects

/-!
# Records of parts

A record whose fields all have defaults, and whose parts are single values or again such records, is
laid out as a tree of named parts with single values at its leaves.  The layout tells what a value
that the record is read from has to look like, and where each leaf is read from: from what is there
at the end of the leaf's path, or else from the record's defaults.
-/

namespace Concierge.Json

/-! ## Single values -/

/-- A kind of single values: how they are read, and which value means what. -/
structure Kind (α : Type) where
  reader : Reader α
  Means : Json → α → Prop
  reads {j : Json} {a : α} : reader (tree j) = .ok a ↔ Means j a

namespace Kind

variable {α : Type}

theorem unique (k : Kind α) {j : Json} {a b : α} (ha : k.Means j a) (hb : k.Means j b) :
    a = b :=
  Except.ok.inj ((k.reads.2 ha).symm.trans (k.reads.2 hb))

/-- A text means itself. -/
def text : Kind String where
  reader := .text
  Means j s := j = .string s
  reads {j s} := by
    rw [Reader.text_eq_ok_iff]
    cases j with
    | int i => rw [tree]; split <;> simp
    | _ => simp [tree]

@[simp] theorem text_reader : text.reader = .text := rfl

theorem tree_eq_int_iff {j : Json} {n : Nat} (h : n < Width.count 64) :
    tree j = .int n ↔ j = .int n := by
  have hfits := fitsWord_nat h
  cases j with
  | int i =>
    rw [tree, Json.int.injEq]
    by_cases hi : i = n
    · simp [hi, hfits]
    · split <;> simp [hi]
  | _ => simp [tree]

/-- A natural number below a bound of at most 64 bits means itself. -/
def natBelow (bound : Nat) (h : bound ≤ Width.count 64) : Kind Nat where
  reader := .natBelow bound
  Means j n := j = .int n ∧ n < bound
  reads {_ _} := by
    rw [Reader.natBelow_eq_ok_iff]
    exact and_congr_left fun hn => tree_eq_int_iff (Nat.lt_of_lt_of_le hn h)

@[simp] theorem natBelow_reader (bound : Nat) (h : bound ≤ Width.count 64) :
    (natBelow bound h).reader = .natBelow bound := rfl

theorem tree_eq_null_iff {j : Json} : tree j = .null ↔ j = .null := by
  cases j with
  | int i => rw [tree]; split <;> simp
  | _ => simp [tree]

/-- `null` means that there is nothing, and what means something else means that. -/
def option (k : Kind α) : Kind (Option α) where
  reader := .option k.reader
  Means j o := (j = .null ∧ o = none) ∨ j ≠ .null ∧ ∃ a, k.Means j a ∧ o = some a
  reads {_ _} := by simp only [Reader.option_eq_ok_iff, tree_eq_null_iff, ne_eq, k.reads]

@[simp] theorem option_reader (k : Kind α) : (option k).reader = .option k.reader := rfl

/-- The first member in the alphabet. -/
def leastOf (member : String × Json) (rest : List (String × Json)) : String × Json :=
  rest.foldl (fun least m => if m.1 < least.1 then m else least) member

theorem leastMember_tree (member : String × Json) (rest : List (String × Json)) :
    Reader.leastMember (member.1, tree member.2) (treeMembers rest) =
      ((leastOf member rest).1, tree (leastOf member rest).2) := by
  induction rest generalizing member with
  | nil => rfl
  | cons next rest ih =>
    rw [treeMembers, Reader.leastMember, leastOf, List.foldl_cons, ← leastOf, ← ih]
    split <;> rfl

/-- The member that tells which of several names an object stands for: its only member, or the first
in the alphabet if others are tolerated. -/
def namingMember? (surplus : Bool) : List (String × Json) → Option (String × Json)
  | [] => none
  | member :: rest =>
    if surplus then some (leastOf member rest)
    else if rest.isEmpty then some member else none

theorem unit_tree_eq_ok_iff {j : Json} : Reader.unit (tree j) = .ok () ↔ j = .null := by
  rw [← tree_eq_null_iff]
  unfold Reader.unit
  split <;> simp_all

theorem variantWith_object_eq_ok_iff {surplus : Bool} {names : List (String × α)}
    {members : List (String × Json)} {a : α} :
    Reader.variantWith .unit surplus names (tree (.object members)) = .ok a ↔
      ∃ key, names.lookup key = some a ∧ namingMember? surplus members = some (key, .null) := by
  cases members with
  | nil => simp [tree, treeMembers, Reader.variantWith, namingMember?]
  | cons member rest =>
    have hmember : (if surplus then Reader.leastMember (member.1, tree member.2) (treeMembers rest)
        else (member.1, tree member.2)) =
          ((if surplus then leastOf member rest else member).1,
            tree (if surplus then leastOf member rest else member).2) := by
      cases surplus with
      | false => rfl
      | true => exact leastMember_tree member rest
    have hempty : (treeMembers rest).isEmpty = rest.isEmpty := by rw [treeMembers_eq_map, List.isEmpty_map]
    have hnaming : namingMember? surplus (member :: rest) =
        if surplus || rest.isEmpty then some (if surplus then leastOf member rest else member)
        else none := by
      cases surplus <;> rfl
    rw [hnaming, tree, treeMembers]
    simp only [Reader.variantWith, hmember, hempty]
    generalize (if surplus then leastOf member rest else member) = m
    obtain ⟨key, value⟩ := m
    have hright : (∃ k, names.lookup k = some a ∧
        (if surplus || rest.isEmpty then some (key, value) else none) = some (k, Json.null)) ↔
          names.lookup key = some a ∧ (surplus || rest.isEmpty) = true ∧ value = .null := by
      simp only [Option.ite_none_right_eq_some, Option.some.injEq, Prod.mk.injEq]
      constructor
      · rintro ⟨_, hkey, hc, rfl, hvalue⟩
        exact ⟨hkey, hc, hvalue⟩
      · rintro ⟨hkey, hc, hvalue⟩
        exact ⟨key, hkey, hc, rfl, hvalue⟩
    rw [hright, ← unit_tree_eq_ok_iff]
    cases names.lookup key with
    | none => simp
    | some b =>
      cases Reader.unit (tree value) with
      | error e => simp
      | ok _ => cases surplus || rest.isEmpty <;> simp

/-- A name means what it names, as a text or as the key of a `null`. -/
def name (surplus : Bool) (names : List (String × α)) : Kind α where
  reader := .variantWith .unit surplus names
  Means j a := ∃ key, names.lookup key = some a ∧ (j = .string key ∨
    ∃ members, j = .object members ∧ namingMember? surplus members = some (key, .null))
  reads {j a} := by
    cases j with
    | int i => rw [tree]; split <;> simp [Reader.variantWith]
    | string s => cases hs : names.lookup s <;> simp [tree, Reader.variantWith, hs]
    | object members => simp [variantWith_object_eq_ok_iff]
    | _ => simp [tree, Reader.variantWith]

@[simp] theorem name_reader (surplus : Bool) (names : List (String × α)) :
    (name surplus names).reader = .variantWith .unit surplus names := rfl

/-- An array means what its items mean. -/
def list (k : Kind α) : Kind (List α) where
  reader := .list k.reader
  Means j as := ∃ items, j = .array items ∧ List.Forall₂ k.Means items as
  reads {j as} := by
    rw [Reader.list_eq_ok_iff]
    cases j with
    | int i => rw [tree]; split <;> simp
    | array items =>
      simp only [tree, treeItems_eq_map, Tree.array.injEq, Json.array.injEq, exists_eq_left',
        List.forall₂_map_left_iff, k.reads]
    | _ => simp [tree]

@[simp] theorem list_reader (k : Kind α) : (list k).reader = .list k.reader := rfl

end Kind

/-! ## Leaves and sections -/

/-- A single value somewhere in a record. -/
structure Leaf (σ : Type) where
  {α : Type}
  kind : Kind α
  /-- Where the value is in what the record is read from. -/
  path : List Step
  get : σ → α

variable {σ τ : Type}

/-- The keys on the way to a leaf. -/
def Leaf.names (ℓ : Leaf σ) : List String := ℓ.path.map Prod.fst

/-- What a leaf is if this is there for it. -/
def Leaf.Holds (ℓ : Leaf σ) (standard : σ) (there : Option Json) (s : σ) : Prop :=
  match there with
  | some v => ℓ.kind.Means v (ℓ.get s)
  | none => ℓ.get s = ℓ.get standard

theorem Leaf.holds_congr {ℓ : Leaf σ} {standard s t : σ} {there : Option Json}
    (h : ℓ.get s = ℓ.get t) : ℓ.Holds standard there s ↔ ℓ.Holds standard there t := by
  cases there <;> simp [Holds, h]

/-- A leaf of a part, as a leaf of the whole. -/
def Leaf.under (step : Step) (part : τ → σ) (ℓ : Leaf σ) : Leaf τ :=
  ⟨ℓ.kind, step :: ℓ.path, fun t => ℓ.get (part t)⟩

/-- A record inside a record. -/
structure Section where
  path : List Step
  /-- The keys of its fields. -/
  keys : List String
  tolerance : Tolerance

namespace Section

/-- A section of a part, as a section of the whole. -/
def under (step : Step) (s : Section) : Section := { s with path := step :: s.path }

/-- Whatever is there for the section is an object. -/
def IsObject (s : Section) (j : Json) : Prop :=
  ∀ v, j.at? s.path = some v → ∃ members, v = .object members

/-- The object that is there for the section, if one is, has admitted keys. -/
def Admits (s : Section) (j : Json) : Prop :=
  ∀ members, j.at? s.path = some (.object members) → s.tolerance.Admits s.keys members

end Section

/-- The value that is there for a leaf, if one is, means something. -/
def Leaf.Fits (ℓ : Leaf σ) (j : Json) : Prop :=
  ∀ v, j.at? ℓ.path = some v → ∃ a, ℓ.kind.Means v a

/-! ## Parts -/

/-- A part of a record: a field with a default, the leaves and sections in it, and the proofs that
reading it goes leaf by leaf. -/
structure Part (σ : Type) where
  {α : Type}
  name : String
  reader : Reader α
  default : α
  get : σ → α
  leaves : List (Leaf α)
  sections : List Section
  ext {a b : α} : (∀ ℓ ∈ leaves, ℓ.get a = ℓ.get b) → a = b
  tells {j : Json} {a : α} : reader (tree j) = .ok a →
    ∀ ℓ ∈ leaves, ℓ.Holds default (j.at? ℓ.path) a
  decides {j : Json} : (∀ s ∈ sections, s.IsObject j) →
    ((∃ a, reader (tree j) = .ok a) ↔ (∀ s ∈ sections, s.Admits j) ∧ ∀ ℓ ∈ leaves, ℓ.Fits j)

namespace Part

/-- A part that is a single value. -/
@[simp] def single {α : Type} (name : String) (kind : Kind α) (default : α) (get : σ → α) : Part σ where
  name
  reader := kind.reader
  default
  get
  leaves := [⟨kind, [], id⟩]
  sections := []
  ext h := h _ List.mem_cons_self
  tells h := List.forall_mem_singleton.2 (kind.reads.1 h)
  decides {j} _ := by
    simp [Leaf.Fits, at?, kind.reads]

/-- The field that a part is read from. -/
def field (p : Part σ) : Field := ⟨[p.name], Fields.checkOf p.reader, .defaulted⟩

/-- What a part is if this is there for it. -/
def Given (p : Part σ) (there : Option Tree) (s : σ) : Prop :=
  match there with
  | some t => p.reader t = .ok (p.get s)
  | none => p.get s = p.default

end Part

theorem Part.given_iff {p : Part σ} {there : Option Tree} {s : σ} :
    p.Given there s ↔
      (there = none ∧ p.get s = p.default) ∨ ∃ t, there = some t ∧ p.reader t = .ok (p.get s) := by
  cases there <;> simp [Given]

/-! ## Layouts -/

/-- How a record is laid out: its parts in declared order, and the proofs that it is read as a record
built from them. -/
structure Layout (σ : Type) where
  reader : Reader σ
  tolerance : Tolerance
  fields : Fields σ
  [lawful : fields.Lawful]
  recorded : reader = record tolerance fields
  standard : σ
  parts : List (Part σ)
  declared : fields.fields = parts.map Part.field := by rfl
  nodup : (parts.map Part.name).Nodup := by simp
  built {get : String → Option Tree} {s : σ} :
      fields.build get = .ok s ↔ ∀ p ∈ parts, p.Given (get p.name) s := by
    intro get s
    cases s
    simp [Concierge.Json.Part.given_iff, Concierge.Json.Fields.map_build_eq_ok_iff,
      Concierge.Json.Fields.seq_build_eq_ok_iff, Concierge.Json.Fields.defaulted_build_eq_ok_iff,
      and_assoc]
  defaults : ∀ p ∈ parts, p.get standard = p.default := by simp
  ext {s t : σ} : (∀ p ∈ parts, p.get s = p.get t) → s = t := by
    intro s t h
    cases s
    cases t
    simpa using h

namespace Layout

variable (L : Layout σ)

/-- The keys of a record. -/
def keys : List String := L.parts.map Part.name

/-- The leaves of a record, part by part. -/
def leaves : List (Leaf σ) :=
  L.parts.zipIdx.flatMap fun (p, place) => p.leaves.map (Leaf.under (p.name, place) p.get)

/-- The sections of a record, itself the first. -/
def sections : List Section :=
  ⟨[], L.keys, L.tolerance⟩ ::
    L.parts.zipIdx.flatMap fun (p, place) => p.sections.map (Section.under (p.name, place))

variable {L} {j : Json} {s t : σ}

theorem forall_leaves {P : Leaf σ → Prop} :
    (∀ ℓ ∈ L.leaves, P ℓ) ↔ ∀ (place : Nat) (p : Part σ), L.parts[place]? = some p →
      ∀ ℓ ∈ p.leaves, P (ℓ.under (p.name, place) p.get) := by
  simp only [leaves, List.mem_flatMap, Prod.exists, List.mem_zipIdx_iff_getElem?, List.mem_map]
  constructor
  · intro h place p hp ℓ hℓ
    exact h _ ⟨p, place, hp, ℓ, hℓ, rfl⟩
  · rintro h _ ⟨p, place, hp, ℓ, hℓ, rfl⟩
    exact h place p hp ℓ hℓ

theorem forall_sections {P : Section → Prop} :
    (∀ c ∈ L.sections, P c) ↔ P ⟨[], L.keys, L.tolerance⟩ ∧
      ∀ (place : Nat) (p : Part σ), L.parts[place]? = some p →
        ∀ c ∈ p.sections, P (c.under (p.name, place)) := by
  simp only [sections, List.forall_mem_cons, List.mem_flatMap, Prod.exists,
    List.mem_zipIdx_iff_getElem?, List.mem_map]
  refine and_congr_right fun _ => ⟨?_, ?_⟩
  · intro h place p hp c hc
    exact h _ ⟨p, place, hp, c, hc, rfl⟩
  · rintro h _ ⟨p, place, hp, c, hc, rfl⟩
    exact h place p hp c hc

/-- The leaves of a record tell all of it. -/
theorem eq_of_leaves (h : ∀ ℓ ∈ L.leaves, ℓ.get s = ℓ.get t) : s = t := by
  refine L.ext fun p hp => p.ext fun ℓ hℓ => ?_
  obtain ⟨place, hplace⟩ := List.getElem?_of_mem hp
  exact forall_leaves.1 h place p hplace ℓ hℓ

theorem keys_eq : L.fields.fields.map Field.key = L.keys := by
  rw [L.declared, List.map_map]
  rfl

theorem singleNamed : SingleNamed L.fields.fields where
  names f hf := by
    rw [L.declared] at hf
    obtain ⟨p, -, rfl⟩ := List.mem_map.1 hf
    rfl
  nodup := keys_eq ▸ L.nodup

/-- Every leaf of a record that was read is what is there for it, or else what it is by default. -/
theorem tells (h : L.reader (tree j) = .ok s) :
    ∀ ℓ ∈ L.leaves, ℓ.Holds L.standard (j.at? ℓ.path) s := by
  rw [L.recorded] at h
  obtain ⟨get, hbuild, hget⟩ := build_of_record L.singleNamed.wellNamed h
  refine forall_leaves.2 fun place p hp ℓ hℓ => ?_
  have hmem := List.mem_of_getElem? hp
  have hfield : get p.name = (j.step? (p.name, place)).map tree := by
    rw [← field?_tree]
    exact hget place p.field (by rw [L.declared, List.getElem?_map, hp]; rfl)
  have hgiven := L.built.1 hbuild p hmem
  rw [hfield] at hgiven
  simp only [Leaf.Holds, Leaf.under, at?]
  cases hstep : j.step? (p.name, place) with
  | none =>
    rw [hstep] at hgiven
    have hdefault : p.get s = p.default := hgiven
    simp only [Option.bind_none]
    rw [hdefault, L.defaults p hmem]
  | some v =>
    rw [hstep] at hgiven
    have htold := p.tells hgiven ℓ hℓ
    simp only [Option.bind_some]
    rw [L.defaults p hmem]
    exact htold

theorem reader_object_eq_ok_iff {members : List (String × Json)} :
    L.reader (tree (.object members)) = .ok s ↔ L.tolerance.Admits L.keys members ∧
      L.fields.build (fun key => (members.lookup key).map tree) = .ok s := by
  have := L.lawful
  rw [L.recorded, record_object_eq_ok_iff L.singleNamed, keys_eq]

/-- Which objects a record is read from, and as what. -/
theorem read_object_iff {members : List (String × Json)} :
    L.reader (tree (.object members)) = .ok s ↔ L.tolerance.Admits L.keys members ∧
      ∀ p ∈ L.parts, p.Given ((members.lookup p.name).map tree) s := by
  rw [reader_object_eq_ok_iff, L.built]

/-- A record is read from what is written of it: some of its fields in declared order, such that every
part is what is written of it, or else its default. -/
theorem reader_written {members : List (String × Json)}
    (hkeys : (members.map (·.1)).Sublist L.keys)
    (hgiven : ∀ p ∈ L.parts, p.Given ((members.lookup p.name).map tree) s) :
    L.reader (tree (.object members)) = .ok s :=
  read_object_iff.2 ⟨⟨fun _ _ hm => hkeys.subset (List.mem_map_of_mem hm),
    (hkeys.nodup L.nodup).filter _⟩, hgiven⟩

theorem exists_read_object_iff {members : List (String × Json)} :
    (∃ s, L.reader (tree (.object members)) = .ok s) ↔ L.tolerance.Admits L.keys members ∧
      ∀ p ∈ L.parts, ∀ v, members.lookup p.name = some v → ∃ a, p.reader (tree v) = .ok a := by
  simp only [reader_object_eq_ok_iff, exists_and_left, L.lawful.exists_ok_iff, L.declared,
    List.forall_mem_map]
  refine and_congr_right fun _ => forall₂_congr fun p _ => ?_
  cases hvalue : members.lookup p.name with
  | none => simp [Part.field, Field.key, hvalue, Field.Admits]
  | some v => simp [Part.field, Field.key, hvalue, Field.Admits, Fields.checkOf_eq_ok_iff]

end Layout

namespace Section

variable {c : Section} {step : Step} {j : Json}

theorem under_isObject_iff :
    (c.under step).IsObject j ↔ ∀ v, j.step? step = some v → c.IsObject v := by
  cases hstep : j.step? step <;> simp [IsObject, under, at?, hstep]

theorem under_admits_iff : (c.under step).Admits j ↔ ∀ v, j.step? step = some v → c.Admits v := by
  cases hstep : j.step? step <;> simp [Admits, under, at?, hstep]

end Section

theorem Leaf.under_fits_iff {step : Step} {part : τ → σ} {ℓ : Leaf σ} {j : Json} :
    (ℓ.under step part).Fits j ↔ ∀ v, j.step? step = some v → ℓ.Fits v := by
  cases hstep : j.step? step <;> simp [Fits, under, at?, hstep]

namespace Layout

variable {L : Layout σ} {j : Json}

/-- Where every section is an object, a record can be read if and only if every section has admitted
keys and every leaf fits. -/
theorem decides (h : ∀ c ∈ L.sections, c.IsObject j) :
    (∃ s, L.reader (tree j) = .ok s) ↔
      (∀ c ∈ L.sections, c.Admits j) ∧ ∀ ℓ ∈ L.leaves, ℓ.Fits j := by
  obtain ⟨hroot, hsections⟩ := forall_sections.1 h
  obtain ⟨members, rfl⟩ := hroot j rfl
  have hpart (place : Nat) (p : Part σ) (hp : L.parts[place]? = some p) :
      (∀ v, members.lookup p.name = some v → ∃ a, p.reader (tree v) = .ok a) ↔
        (∀ c ∈ p.sections, (c.under (p.name, place)).Admits (.object members)) ∧
          ∀ ℓ ∈ p.leaves, (ℓ.under (p.name, place) p.get).Fits (.object members) := by
    have hobjects := fun c hc => Section.under_isObject_iff.1 (hsections place p hp c hc)
    simp only [Section.under_admits_iff, Leaf.under_fits_iff, step?] at hobjects ⊢
    cases hvalue : members.lookup p.name with
    | none => simp
    | some v => simpa using p.decides fun c hc => hobjects c hc v hvalue
  have hadmits : Section.Admits ⟨[], L.keys, L.tolerance⟩ (.object members) ↔
      L.tolerance.Admits L.keys members := by
    simp [Section.Admits, at?]
  rw [exists_read_object_iff, forall_sections, forall_leaves, hadmits, and_assoc]
  refine and_congr_right fun _ => ⟨fun hall => ?_, fun hall p hp => ?_⟩
  · exact ⟨fun place p hp => ((hpart place p hp).1 (hall p (List.mem_of_getElem? hp))).1,
      fun place p hp => ((hpart place p hp).1 (hall p (List.mem_of_getElem? hp))).2⟩
  · obtain ⟨place, hplace⟩ := List.getElem?_of_mem hp
    exact (hpart place p hplace).2 ⟨hall.1 place p hplace, hall.2 place p hplace⟩

/-- Where every section is an object, a key that is unknown to its section makes a record unreadable. -/
theorem ne_ok_of_unknown (h : ∀ c ∈ L.sections, c.IsObject j) {c : Section} (hc : c ∈ L.sections)
    (hstrict : c.tolerance.unknownMembers = false) {members : List (String × Json)}
    (hthere : j.at? c.path = some (.object members)) {m : String × Json} (hm : m ∈ members)
    (hunknown : m.1 ∉ c.keys) (s : σ) : L.reader (tree j) ≠ .ok s := fun hread =>
  hunknown ((((decides h).1 ⟨s, hread⟩).1 c hc members hthere).known hstrict m hm)

/-- A leaf depends on nothing but what is there for it. -/
theorem get_eq_of_at {j' : Json} {s' : σ} (h : L.reader (tree j) = .ok s)
    (h' : L.reader (tree j') = .ok s') {ℓ : Leaf σ} (hℓ : ℓ ∈ L.leaves)
    (hat : j.at? ℓ.path = j'.at? ℓ.path) : ℓ.get s = ℓ.get s' := by
  have hs := tells h ℓ hℓ
  have hs' := tells h' ℓ hℓ
  rw [← hat] at hs'
  cases hvalue : j.at? ℓ.path with
  | none =>
    rw [hvalue] at hs hs'
    exact hs.trans hs'.symm
  | some v =>
    rw [hvalue] at hs hs'
    exact ℓ.kind.unique hs hs'

end Layout

/-- The object that is there for a section, if one is, has the same keys, in some order, as the one in
another value. -/
def Section.Reorders (c : Section) (j j' : Json) : Prop :=
  ∀ members', j'.at? c.path = some (.object members') →
    ∃ members, j.at? c.path = some (.object members) ∧
      (members'.map (·.1)).Perm (members.map (·.1))

/-- Where every section is an object, a record is read alike from whatever has the same keys in every
section, in any order, and the same at every leaf. -/
theorem Layout.reader_of_reordered {L : Layout σ} {j j' : Json} {s : σ}
    (h : ∀ c ∈ L.sections, c.IsObject j) (h' : ∀ c ∈ L.sections, c.IsObject j')
    (hkeys : ∀ c ∈ L.sections, c.Reorders j j')
    (hleaves : ∀ ℓ ∈ L.leaves, j.at? ℓ.path = j'.at? ℓ.path) (hread : L.reader (tree j) = .ok s) :
    L.reader (tree j') = .ok s := by
  obtain ⟨hadmits, hfits⟩ := (decides h).1 ⟨s, hread⟩
  have hread' : ∃ s', L.reader (tree j') = .ok s' := by
    refine (decides h').2 ⟨fun c hc members' hmembers' => ?_, fun ℓ hℓ v hv => ?_⟩
    · obtain ⟨members, hmembers, hperm⟩ := hkeys c hc members' hmembers'
      exact (hadmits c hc members hmembers).of_perm hperm
    · exact hfits ℓ hℓ v ((hleaves ℓ hℓ).trans hv)
  obtain ⟨s', hs'⟩ := hread'
  rw [hs', eq_of_leaves fun ℓ hℓ => get_eq_of_at hs' hread hℓ (hleaves ℓ hℓ).symm]

/-- A part that is a record. -/
@[simp] def Part.record (name : String) (L : Layout τ) (get : σ → τ) : Part σ where
  name
  reader := L.reader
  default := L.standard
  get
  leaves := L.leaves
  sections := L.sections
  ext := L.eq_of_leaves
  tells := L.tells
  decides := L.decides

end Concierge.Json
