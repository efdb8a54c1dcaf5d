import Concierge.Proofs.Json.Patch
import Concierge.Settings.Environment

/-!
# What the variables say

The table of the variables is made by laying their values one after another over an empty table, each
at the path that its name leads to.  As long as no path is on the way to another, every value is then
found at its path, and nothing else is there.
-/

namespace Concierge

open Json (Spread)

namespace Environment

/-- What the variables say, each at the path that its name leads to. -/
def values (environment : List (String × String)) : List (List String × Json) :=
  environment.filterMap fun (name, text) => (path? name).map fun path => (path, value text)

theorem layer_eq (environment : List (String × String)) :
    layer environment =
      (values environment).foldl (fun table (path, v) => table.patch (nest v path)) (.object []) := by
  rw [layer, values, List.foldl_filterMap]
  refine List.foldl_ext _ _ _ fun table p _ => ?_
  obtain ⟨name, text⟩ := p
  simp only
  generalize path? name = path
  cases path <;> rfl

end Environment

namespace Json

open Environment (nest)

theorem Spread.empty : Spread [] (.object []) :=
  .table (by simp) (by simp) (by simp) (by simp) fun _ _ => rfl

/-- A member of a table is set to what the values behind its key are spread out as. -/
theorem Spread.set {values values' : List (List String × Json)} {members : List (String × Json)}
    {key : String} {j : Json} (h : Spread values (.object members)) (hdeep : ∀ p ∈ values, p.1 ≠ [])
    (hdeep' : ∀ p ∈ values', p.1 ≠ []) (hother : ∀ k ≠ key, behind k values' = behind k values)
    (hsome : behind key values' ≠ []) (hself : Spread (behind key values') j) :
    Spread values' (.object (setMember key j members)) := by
  cases h with
  | value => exact absurd rfl (hdeep _ List.mem_cons_self)
  | table _ once needed held absent =>
    refine .table hdeep' (nodup_setMember once) (fun k c hc => ?_) (fun k c hc => ?_) fun k hk => ?_
    all_goals by_cases hkey : k = key
    · exact hkey ▸ hsome
    · rw [lookup_setMember, if_neg hkey] at hc
      exact hother k hkey ▸ needed k c hc
    · rw [lookup_setMember, if_pos hkey] at hc
      exact hkey ▸ Option.some.inj hc ▸ hself
    · rw [lookup_setMember, if_neg hkey] at hc
      exact hother k hkey ▸ held k c hc
    · rw [lookup_setMember, if_pos hkey] at hk
      cases hk
    · rw [lookup_setMember, if_neg hkey] at hk
      exact hother k hkey ▸ absent k hk

theorem spread_nest (v : Json) (path : List String) : Spread [(path, v)] (nest v path) := by
  induction path with
  | nil => exact .value v
  | cons key rest ih =>
    refine Spread.empty.set (by simp) (by simp) (fun k hk => behind_cons_of_ne hk.symm) ?_ ?_
    · rw [behind_cons_self]
      exact List.cons_ne_nil _ _
    · rw [behind_cons_self]
      exact ih

/-- Neither of two paths is on the way to the other. -/
def Separate (p q : List String × Json) : Prop := ¬ p.1 <+: q.1 ∧ ¬ q.1 <+: p.1

theorem behind_append (key : String) (values others : List (List String × Json)) :
    behind key (values ++ others) = behind key values ++ behind key others :=
  List.filterMap_append

/-- One more value, at a path that is separate from the others, is laid over a table. -/
theorem Spread.patch_nest {values : List (List String × Json)} {table v : Json} {path : List String}
    (h : Spread values table) (hpath : path ≠ [])
    (hseparate : ∀ p ∈ values, Separate p (path, v)) :
    Spread (values ++ [(path, v)]) (table.patch (nest v path)) := by
  induction path generalizing values table with
  | nil => exact absurd rfl hpath
  | cons key rest ih =>
    cases h with
    | value => exact absurd List.nil_prefix (hseparate _ List.mem_cons_self).1
    | @table _ members deep once needed held absent =>
      -- What comes to stand behind the key, whether or not something stood there before.
      have hover : Spread (behind key values ++ [(rest, v)])
          (laidOver (members.lookup key) (nest v rest)) := by
        cases hold : members.lookup key with
        | none =>
          rw [absent key hold]
          exact spread_nest v rest
        | some old =>
          have hbehind : ∀ p ∈ behind key values, Separate p (rest, v) := by
            rintro ⟨names, w⟩ hp
            have := hseparate _ (mem_behind_iff.1 hp)
            simpa [Separate, List.cons_prefix_cons] using this
          obtain ⟨p, hp⟩ := List.exists_mem_of_ne_nil _ (needed key old hold)
          have hrest : rest ≠ [] := fun hnil => (hbehind p hp).2 (hnil ▸ List.nil_prefix)
          exact ih (held key old hold) hrest hbehind
      have hself : behind key (values ++ [(key :: rest, v)]) = behind key values ++ [(rest, v)] := by
        rw [behind_append, behind_cons_self]
        rfl
      have hother (k : String) (hk : k ≠ key) :
          behind k (values ++ [(key :: rest, v)]) = behind k values := by
        rw [behind_append, behind_cons_of_ne hk.symm]
        exact List.append_nil _
      rw [nest, patch, patchMembers_cons, patchMembers]
      have htable : Spread values (.object members) := .table deep once needed held absent
      refine htable.set deep (by simpa [or_imp, forall_and] using deep) hother ?_ (hself ▸ hover)
      rw [hself]
      exact List.append_ne_nil_of_right_ne_nil _ (List.cons_ne_nil _ _)

/-- Values at separate paths are spread out by laying them over a table one after another. -/
theorem Spread.foldl_patch_nest {values before : List (List String × Json)} {table : Json}
    (h : Spread before table) (hdeep : ∀ p ∈ values, p.1 ≠ [])
    (hseparate : (before ++ values).Pairwise Separate) :
    Spread (before ++ values) (values.foldl (fun table (path, v) => table.patch (nest v path)) table) := by
  induction values generalizing before table with
  | nil => simpa using h
  | cons p rest ih =>
    rw [List.append_cons] at hseparate ⊢
    have hfirst := (List.pairwise_append.1 (List.pairwise_append.1 hseparate).1).2.2
    exact ih (h.patch_nest (hdeep p List.mem_cons_self) fun q hq => hfirst q hq p List.mem_cons_self)
      (fun q hq => hdeep q (List.mem_cons_of_mem _ hq)) hseparate

end Json

theorem Environment.spread_layer {environment : List (String × String)}
    (hdeep : ∀ p ∈ values environment, p.1 ≠ [])
    (hseparate : (values environment).Pairwise Json.Separate) :
    Spread (values environment) (layer environment) := by
  rw [layer_eq]
  exact Spread.empty.foldl_patch_nest hdeep hseparate

end Concierge
