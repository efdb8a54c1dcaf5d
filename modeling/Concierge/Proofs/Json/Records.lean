import Concierge.Json.Reader
import Mathlib.Data.List.Forall2
import Mathlib.Data.List.Nodup

/-!
# What a record says in its fields

A record is read member by member, with every known member noted on the way.  What it says in a
field can be told without that: in an object it is the first member that goes by one of the field's
names, in an array the item at the field's place.  Here it is shown that a record that is read at
all is built from exactly this.
-/

namespace Concierge.Json

/-! ## Plain views of a tree -/

namespace Tree

/-- What a tree says in a field with these names at this place among the fields. -/
def field? (names : List String) (place : Nat) : Tree → Option Tree
  | .object members => (members.find? fun m => m.1.any names.contains).map (·.2)
  | .array items => items[place]?
  | _ => none

/-- The text that a tree is. -/
def text? : Tree → Option String
  | .string s => s
  | _ => none

/-- The number that a tree is. -/
def nat? : Tree → Option Nat
  | .int i => if 0 ≤ i then some i.toNat else none
  | _ => none

/-- The items of an array. -/
def elements : Tree → List Tree
  | .array items => items
  | _ => []

/-- The text that a tree says in a field. -/
def textAt? (names : List String) (place : Nat) (t : Tree) : Option String :=
  (t.field? names place).bind text?

/-- The items of the array that a tree says in a field. -/
def elementsAt (names : List String) (place : Nat) (t : Tree) : List Tree :=
  ((t.field? names place).map elements).getD []

/-- The number that a tree says in a field, in decimal digits. -/
def decimalAt (names : List String) (place : Nat) (t : Tree) : String :=
  (((t.field? names place).bind nat?).map toString).getD ""

/-- A tree says yes in a field. -/
def affirms (names : List String) (place : Nat) (t : Tree) : Bool :=
  match t.field? names place with
  | some (.bool b) => b
  | _ => false

end Tree

/-! ## Single values -/

theorem fitsWord_nat {n : Nat} (h : n < Width.count 64) : fitsWord n = true := by
  rw [fitsWord, Width.admits, Bool.and_eq_true, decide_eq_true_eq, decide_eq_true_eq, Width.least]
  omega

theorem tree_nat {n : Nat} (h : n < Width.count 64) : tree (.nat n) = .int n := by
  rw [nat, tree, if_pos (fitsWord_nat h)]

theorem Reader.text_eq_ok_iff {t : Tree} {s : String} :
    Reader.text t = .ok s ↔ t = .string (some s) := by
  unfold Reader.text
  split <;> simp_all

theorem Reader.bool_eq_ok_iff {t : Tree} {b : Bool} : Reader.bool t = .ok b ↔ t = .bool b := by
  cases t <;> simp [Reader.bool]

theorem Reader.natBelow_eq_ok_iff {bound : Nat} {t : Tree} {n : Nat} :
    Reader.natBelow bound t = .ok n ↔ t = .int n ∧ n < bound := by
  unfold natBelow intIn
  cases t with
  | int i =>
    simp only [Tree.int.injEq]
    by_cases hi : 0 ≤ i ∧ i ≤ bound - 1
    · rw [if_pos hi]
      simp only [Except.map, Except.ok.injEq]
      omega
    · rw [if_neg hi]
      simp only [Except.map, reduceCtorEq, false_iff]
      omega
  | _ => simp [Except.map]

theorem Reader.word64_eq_ok_iff {t : Tree} {n : Nat} :
    Reader.word64 t = .ok n ↔ t = .int n ∧ n < Width.count 64 :=
  natBelow_eq_ok_iff

theorem Reader.option_eq_ok_iff {α : Type} {r : Reader α} {t : Tree} {o : Option α} :
    Reader.option r t = .ok o ↔
      (t = .null ∧ o = none) ∨ t ≠ .null ∧ ∃ a, r t = .ok a ∧ o = some a := by
  unfold Reader.option
  split
  · simp [eq_comm]
  · next h =>
    have hnull : t ≠ .null := fun ht => h ht
    cases r t <;> simp [Except.map, hnull, eq_comm]

theorem Reader.items_eq_ok_iff {α : Type} {r : Reader α} {ts : List Tree} {as : List α} :
    Reader.items r ts = .ok as ↔ List.Forall₂ (fun t a => r t = .ok a) ts as := by
  induction ts generalizing as with
  | nil => cases as <;> simp [Reader.items]
  | cons t rest ih =>
    rw [Reader.items, List.forall₂_cons_left_iff]
    cases hfirst : r t with
    | error e => simp
    | ok a =>
      cases hrest : Reader.items r rest with
      | error e =>
        have hnone : ∀ others, ¬ List.Forall₂ (fun t a => r t = .ok a) rest others := fun others h => by
          rw [← ih, hrest] at h
          cases h
        simp [Except.map, hnone]
      | ok others =>
        have hothers : ∀ more, List.Forall₂ (fun t a => r t = .ok a) rest more ↔ others = more :=
          fun more => by rw [← ih, hrest, Except.ok.injEq]
        simp [Except.map, hothers, eq_comm]

theorem Reader.list_eq_ok_iff {α : Type} {r : Reader α} {t : Tree} {as : List α} :
    Reader.list r t = .ok as ↔ ∃ ts, t = .array ts ∧ List.Forall₂ (fun t a => r t = .ok a) ts as := by
  unfold Reader.list
  split
  · simp [Reader.items_eq_ok_iff]
  · next h => simpa using fun ts ht => absurd ht (h ts)

/-! ## What is read of a field, and what it says -/

section

variable {x : Option Tree} {s default : String} {o : Option String} {b : Bool}

theorem bind_text?_of_required (h : ∃ t, x = some t ∧ Reader.text t = .ok s) :
    x.bind Tree.text? = some s := by
  obtain ⟨t, rfl, ht⟩ := h
  rw [Reader.text_eq_ok_iff.1 ht]
  rfl

theorem bind_text?_of_defaulted
    (h : (x = none ∧ s = default) ∨ ∃ t, x = some t ∧ Reader.text t = .ok s) :
    (x.bind Tree.text?).getD default = s := by
  obtain ⟨rfl, rfl⟩ | h := h
  · rfl
  · rw [bind_text?_of_required h]
    rfl

/-- A text that may be missing says nothing if it is `null`. -/
theorem bind_text?_of_option
    (h : (x = none ∧ o = none) ∨ ∃ t, x = some t ∧ Reader.option Reader.text t = .ok o) :
    x.bind Tree.text? = o := by
  obtain ⟨rfl, rfl⟩ | ⟨t, rfl, ht⟩ := h
  · rfl
  · obtain ⟨rfl, rfl⟩ | ⟨-, s, hs, rfl⟩ := Reader.option_eq_ok_iff.1 ht
    · rfl
    · exact bind_text?_of_required ⟨t, rfl, hs⟩

theorem int_of_required {n : Nat} (h : ∃ t, x = some t ∧ Reader.word64 t = .ok n) :
    x = some (.int n) ∧ n < Width.count 64 := by
  obtain ⟨t, rfl, ht⟩ := h
  obtain ⟨rfl, hbound⟩ := Reader.word64_eq_ok_iff.1 ht
  exact ⟨rfl, hbound⟩

theorem nat?_int (n : Nat) : Tree.nat? (.int n) = some n := by
  simp [Tree.nat?]

theorem forall₂_of_defaulted {α : Type} {r : Reader α} {as : List α}
    (h : (x = none ∧ as = []) ∨ ∃ t, x = some t ∧ Reader.list r t = .ok as) :
    List.Forall₂ (fun t a => r t = .ok a) ((x.map Tree.elements).getD []) as := by
  obtain ⟨rfl, rfl⟩ | ⟨t, rfl, ht⟩ := h
  · exact .nil
  · obtain ⟨ts, rfl, hts⟩ := Reader.list_eq_ok_iff.1 ht
    exact hts

theorem affirms_of_defaulted {names : List String} {place : Nat} {t : Tree}
    (h : (t.field? names place = none ∧ b = false) ∨
      ∃ t', t.field? names place = some t' ∧ Reader.bool t' = .ok b) :
    t.affirms names place = b := by
  unfold Tree.affirms
  obtain ⟨hnone, rfl⟩ | ⟨t', ht', hb⟩ := h
  · rw [hnone]
  · rw [ht', Reader.bool_eq_ok_iff.1 hb]

end

/-! ## Fields by name -/

/-- Every field has a name, and no name is that of two fields. -/
structure WellNamed (fields : List Field) : Prop where
  named : ∀ f ∈ fields, f.names ≠ []
  nodup : (fields.flatMap (·.names)).Nodup

variable {fields : List Field} {f g : Field} {key : String} {tolerance : Tolerance}
  {seen seen' : List (String × Tree)}

theorem Field.key_mem (h : f.names ≠ []) : f.key ∈ f.names := by
  obtain ⟨name, others, hnames⟩ := List.exists_cons_of_ne_nil h
  simp [Field.key, hnames]

theorem WellNamed.tail (h : WellNamed (f :: fields)) : WellNamed fields where
  named g hg := h.named g (List.mem_cons_of_mem _ hg)
  nodup := (List.nodup_append.1 (List.flatMap_cons ▸ h.nodup)).2.1

/-- The field that a key names is the one that goes by it. -/
theorem WellNamed.fieldOf?_eq_some_iff (h : WellNamed fields) :
    fieldOf? fields key = some f ↔ f ∈ fields ∧ key ∈ f.names := by
  constructor
  · intro hf
    exact ⟨List.mem_of_find?_eq_some hf, by simpa using List.find?_some hf⟩
  · rintro ⟨hf, hkey⟩
    induction fields with
    | nil => cases hf
    | cons first others ih =>
      rw [fieldOf?, List.find?_cons]
      obtain rfl | hlater := List.mem_cons.1 hf
      · simp [hkey]
      · have hapart : key ∉ first.names := fun hfirst =>
          (List.nodup_append.1 (List.flatMap_cons ▸ h.nodup)).2.2 key hfirst key
            (List.mem_flatMap.2 ⟨f, hlater, hkey⟩) rfl
        rw [Bool.eq_false_iff.2 (List.contains_iff_mem.not.2 hapart)]
        exact ih h.tail hlater

theorem WellNamed.eq_of_key (h : WellNamed fields) (hf : f ∈ fields) (hg : g ∈ fields)
    (hkey : f.key = g.key) : f = g := by
  have hfirst := h.fieldOf?_eq_some_iff.2 ⟨hf, Field.key_mem (h.named f hf)⟩
  have hsecond := h.fieldOf?_eq_some_iff.2 ⟨hg, Field.key_mem (h.named g hg)⟩
  rw [hkey, hsecond] at hfirst
  exact (Option.some.inj hfirst).symm

theorem WellNamed.key_ne (h : WellNamed (f :: fields)) : ∀ g ∈ fields, g.key ≠ f.key := by
  intro g hg hkey
  have hfirst : f.key ∈ f.names := Field.key_mem (h.named f List.mem_cons_self)
  have hlater : g.key ∈ fields.flatMap (·.names) :=
    List.mem_flatMap.2 ⟨g, hg, Field.key_mem (h.named g (List.mem_cons_of_mem f hg))⟩
  exact (List.nodup_append.1 (List.flatMap_cons ▸ h.nodup)).2.2 _ hfirst _ hlater hkey.symm

theorem lookup_cons_of_ne {κ α : Type} [BEq κ] [LawfulBEq κ] {pairs : List (κ × α)} {k k' : κ}
    (h : k ≠ k') (a : α) :
    ((k', a) :: pairs).lookup k = pairs.lookup k := by
  rw [List.lookup_cons, beq_false_of_ne h]

/-- Going through the members of an object notes the first one that goes by a name of the field. -/
theorem lookup_of_readMembers (h : WellNamed fields) (hf : f ∈ fields) (place : Nat)
    {members : List (Option String × Tree)}
    (hread : readMembers fields tolerance seen members = .ok seen') :
    seen'.lookup f.key = (seen.lookup f.key).or ((Tree.object members).field? f.names place) := by
  induction members generalizing seen with
  | nil =>
    obtain rfl := Except.ok.inj hread
    simp [Tree.field?]
  | cons member rest ih =>
    obtain ⟨_ | key, t⟩ := member
    · cases hread
    have hskip (hkey : key ∉ f.names) : (Tree.object ((some key, t) :: rest)).field? f.names place =
        (Tree.object rest).field? f.names place := by
      simp [Tree.field?, hkey]
    rw [readMembers] at hread
    cases hfield : fieldOf? fields key with
    | none =>
      have hkey : key ∉ f.names := fun hkey => by
        rw [h.fieldOf?_eq_some_iff.2 ⟨hf, hkey⟩] at hfield
        cases hfield
      simp only [hfield] at hread
      split at hread
      · split at hread
        · cases hread
        · rw [ih hread, hskip hkey]
      · cases hread
    | some g =>
      obtain ⟨hg, hkey⟩ := h.fieldOf?_eq_some_iff.1 hfield
      simp only [hfield] at hread
      split at hread
      · cases hread
      next hunseen =>
      split at hread
      · cases hread
      by_cases hsame : f = g
      · subst hsame
        have hnone : seen.lookup f.key = none := Option.not_isSome_iff_eq_none.1 hunseen
        rw [ih hread, hnone]
        simp [Tree.field?, hkey]
      · have hother : f.key ≠ g.key := fun heq => hsame (h.eq_of_key hf hg heq)
        have hapart : key ∉ f.names := fun hmem => by
          rw [h.fieldOf?_eq_some_iff.2 ⟨hf, hmem⟩] at hfield
          exact hsame (Option.some.inj hfield)
        rw [ih hread, hskip hapart, lookup_cons_of_ne hother]

/-- Going through the items of an array notes each at the place of its field. -/
theorem lookup_of_readItems (h : WellNamed fields) {items : List Tree}
    (hread : readItems tolerance seen fields items = .ok seen') :
    (∀ key, (∀ f ∈ fields, f.key ≠ key) → seen'.lookup key = seen.lookup key) ∧
      ∀ (place : Nat) (f : Field), fields[place]? = some f →
        seen'.lookup f.key = (items[place]?).or (seen.lookup f.key) := by
  induction fields generalizing seen items with
  | nil =>
    refine ⟨fun key _ => ?_, fun place f hf => by simp at hf⟩
    cases items with
    | nil => rw [← Except.ok.inj hread]
    | cons t rest =>
      rw [readItems] at hread
      split at hread
      · rw [← Except.ok.inj hread]
      · cases hread
  | cons first others ih =>
    have hapart : ∀ f ∈ others, f.key ≠ first.key := h.key_ne
    cases items with
    | nil =>
      rw [readItems] at hread
      split at hread
      · obtain ⟨hkeep, hnote⟩ := ih h.tail hread
        refine ⟨fun key hkey => hkeep key fun f hf => hkey f (List.mem_cons_of_mem _ hf), ?_⟩
        rintro (_ | place) f hf
        · obtain rfl := Option.some.inj hf
          simpa using hkeep first.key hapart
        · simpa using hnote place f hf
      · cases hread
    | cons t rest =>
      rw [readItems] at hread
      split at hread
      · cases hread
      obtain ⟨hkeep, hnote⟩ := ih h.tail hread
      refine ⟨fun key hkey => ?_, ?_⟩
      · rw [hkeep key fun f hf => hkey f (List.mem_cons_of_mem _ hf),
          lookup_cons_of_ne (hkey first List.mem_cons_self).symm]
      · rintro (_ | place) f hf
        · obtain rfl := Option.some.inj hf
          simp [hkeep first.key hapart]
        · have hother := hapart f (List.mem_of_getElem? hf)
          rw [hnote place f hf, lookup_cons_of_ne hother]
          rfl

/-- A record that is read is built from what it says in its fields. -/
theorem build_of_record {α : Type} {fs : Fields α} {t : Tree} {a : α} (h : WellNamed fs.fields)
    (hread : record tolerance fs t = .ok a) :
    ∃ get, fs.build get = .ok a ∧
      ∀ (place : Nat) (f : Field), fs.fields[place]? = some f → get f.key = t.field? f.names place := by
  unfold record at hread
  split at hread
  · next members =>
    cases hseen : readMembers fs.fields tolerance [] members with
    | error e =>
      rw [hseen] at hread
      cases hread
    | ok seen =>
      rw [hseen] at hread
      simp only [bind, Except.bind] at hread
      split at hread
      · refine ⟨_, hread, fun place f hf => ?_⟩
        rw [lookup_of_readMembers h (List.mem_of_getElem? hf) place hseen]
        rfl
      · cases hread
  · next items =>
    cases hseen : readItems tolerance [] fs.fields items with
    | error e =>
      rw [hseen] at hread
      cases hread
    | ok seen =>
      rw [hseen] at hread
      refine ⟨_, hread, fun place f hf => ?_⟩
      rw [(lookup_of_readItems h hseen).2 place f hf]
      simp [Tree.field?]
  · cases hread

/-- What a record with these values for its fields says, in order. -/
def written (fields : List Field) (ts : List Tree) : List (String × Tree) :=
  fields.zipWith (fun f t => (f.key, t)) ts

@[simp] theorem written_cons (f : Field) (fields : List Field) (t : Tree) (ts : List Tree) :
    written (f :: fields) (t :: ts) = (f.key, t) :: written fields ts := rfl

theorem lookup_written_isSome {ts : List Tree}
    (fits : List.Forall₂ (fun f t => f.check t = .ok ()) fields ts) (hf : f ∈ fields) :
    ((written fields ts).lookup f.key).isSome := by
  induction fits with
  | nil => cases hf
  | @cons g t others later hcheck rest ih =>
    by_cases hkey : f.key = g.key
    · simp [hkey]
    · have hlater : f ∈ others := (List.mem_cons.1 hf).resolve_left fun heq => hkey (heq ▸ rfl)
      rw [written_cons, lookup_cons_of_ne hkey]
      exact ih hlater

/-- Fields that are written with values that fit are noted as they are. -/
theorem readMembers_written (h : WellNamed fields) {part : List Field} {ts : List Tree}
    (hpart : WellNamed part) (known : part ⊆ fields)
    (fits : List.Forall₂ (fun f t => f.check t = .ok ()) part ts)
    (unseen : ∀ f ∈ part, seen.lookup f.key = none) :
    ∃ seen', readMembers fields tolerance seen ((written part ts).map fun m => (some m.1, m.2)) =
        .ok seen' ∧
      ∀ key, seen'.lookup key = (seen.lookup key).or ((written part ts).lookup key) := by
  induction fits generalizing seen with
  | nil => exact ⟨seen, rfl, fun key => by simp [written]⟩
  | @cons f t others later hcheck rest ih =>
    have hfirst := unseen f List.mem_cons_self
    have hfield : fieldOf? fields f.key = some f :=
      h.fieldOf?_eq_some_iff.2
        ⟨known List.mem_cons_self, Field.key_mem (hpart.named f List.mem_cons_self)⟩
    have hlater : ∀ g ∈ others, ((f.key, t) :: seen).lookup g.key = none := fun g hg => by
      rw [lookup_cons_of_ne (hpart.key_ne g hg)]
      exact unseen g (List.mem_cons_of_mem f hg)
    obtain ⟨seen', hread, hseen⟩ := ih hpart.tail (List.subset_of_cons_subset known) hlater
    refine ⟨seen', ?_, fun key => ?_⟩
    · simp only [written_cons, List.map_cons, readMembers, hfield, hfirst,
        Option.isSome_none, hcheck, Bool.false_eq_true, if_false]
      exact hread
    · rw [hseen, written_cons]
      by_cases heq : key = f.key
      · subst heq
        simp [hfirst]
      · rw [lookup_cons_of_ne heq, lookup_cons_of_ne heq]

/-- A record that is written field by field is built from what was written. -/
theorem record_written {α : Type} {fs : Fields α} (h : WellNamed fs.fields) (ts : List Tree)
    (fits : List.Forall₂ (fun f t => f.check t = .ok ()) fs.fields ts) :
    record tolerance fs (.object ((written fs.fields ts).map fun m => (some m.1, m.2))) =
      fs.build fun key => (written fs.fields ts).lookup key := by
  obtain ⟨seen, hread, hseen⟩ := @readMembers_written fs.fields tolerance [] h fs.fields ts h
    (List.Subset.refl _) fits fun _ _ => rfl
  have hlookup : (fun key => seen.lookup key) = fun key => (written fs.fields ts).lookup key :=
    funext fun key => by
      rw [hseen]
      rfl
  have hcomplete : complete fs.fields seen = true := by
    rw [complete, List.all_eq_true]
    intro f hf
    rw [congrFun hlookup f.key, lookup_written_isSome fits hf, Bool.or_true]
  simp only [record, hread, bind, Except.bind, hcomplete, if_true, hlookup]

/-! ## Building -/

namespace Fields

variable {α β : Type} {get : String → Option Tree}

theorem seq_build_eq_ok_iff {f : Fields (α → β)} {x : Fields α} {b : β} :
    (f <*> x).build get = .ok b ↔ ∃ g a, f.build get = .ok g ∧ x.build get = .ok a ∧ g a = b := by
  change (f.build get >>= fun g => x.build get >>= fun a => pure (g a)) = _ ↔ _
  cases f.build get with
  | error e => simp [bind, Except.bind]
  | ok g => cases x.build get <;> simp [bind, Except.bind, pure, Except.pure]

theorem map_build_eq_ok_iff {f : α → β} {x : Fields α} {b : β} :
    (f <$> x).build get = .ok b ↔ ∃ a, x.build get = .ok a ∧ f a = b := by
  change ((pure f : Fields (α → β)) <*> x).build get = _ ↔ _
  rw [seq_build_eq_ok_iff]
  constructor
  · rintro ⟨g, a, hg, ha, rfl⟩
    exact ⟨a, ha, by rw [← Except.ok.inj hg]⟩
  · rintro ⟨a, ha, rfl⟩
    exact ⟨f, a, rfl, ha, rfl⟩

variable {name : String} {others : List String} {r : Reader α} {a default : α}

theorem checkOf_ok {t : Tree} (h : r t = .ok a) : checkOf r t = .ok () := by
  rw [checkOf, h]
  rfl

theorem requiredAs_build_eq_ok_iff :
    (requiredAs name others r).build get = .ok a ↔ ∃ t, get name = some t ∧ r t = .ok a := by
  cases hget : get name <;> simp [requiredAs, hget]

theorem required_build_eq_ok_iff :
    (required name r).build get = .ok a ↔ ∃ t, get name = some t ∧ r t = .ok a :=
  @requiredAs_build_eq_ok_iff α get name [] r a

theorem optional_build_eq_ok_iff {o : Option α} :
    (optional name r).build get = .ok o ↔
      (get name = none ∧ o = none) ∨ ∃ t, get name = some t ∧ Reader.option r t = .ok o := by
  cases hget : get name <;> simp [optional, hget, eq_comm]

theorem defaultedAs_build_eq_ok_iff :
    (defaultedAs name others default r).build get = .ok a ↔
      (get name = none ∧ a = default) ∨ ∃ t, get name = some t ∧ r t = .ok a := by
  cases hget : get name <;> simp [defaultedAs, hget, eq_comm]

theorem defaulted_build_eq_ok_iff :
    (defaulted name default r).build get = .ok a ↔
      (get name = none ∧ a = default) ∨ ∃ t, get name = some t ∧ r t = .ok a :=
  @defaultedAs_build_eq_ok_iff α get name [] r a default

end Fields

end Concierge.Json
