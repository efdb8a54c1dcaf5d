import Concierge.Proofs.Json.Objects

/-!
# Values laid over a value

Changes are laid over an object member by member, so what the result has at a path can be told from
what both have there.  This is told for changes that are single values, each at a path of its own and
none on the way to another: at such a path the value counts, merged with the table that was there if
both are tables, and at every other path what was there before, except that an array is lost as soon
as one of the values lies behind it.
-/

namespace Concierge.Json

/-! ## Members -/

section

variable {key k : String} {v : Json} {members changes : List (String × Json)}

theorem lookup_setMember :
    (setMember key v members).lookup k = if k = key then some v else members.lookup k := by
  fun_induction setMember key v members with
  | case1 | case2 w rest =>
    by_cases hk : k = key
    · simp [hk]
    · simp [lookup_cons_of_ne hk, hk]
  | case3 k' w rest hne ih =>
    by_cases hk : k = k'
    · simp [hk, hne]
    · rw [lookup_cons_of_ne hk, lookup_cons_of_ne hk, ih]

theorem mem_keys_setMember :
    k ∈ (setMember key v members).map (·.1) ↔ k = key ∨ k ∈ members.map (·.1) := by
  fun_induction setMember key v members with
  | case1 => simp
  | case2 w rest => simp
  | case3 k' w rest hne ih => simp only [List.map_cons, List.mem_cons, ih, or_left_comm]

theorem nodup_setMember (h : (members.map (·.1)).Nodup) :
    ((setMember key v members).map (·.1)).Nodup := by
  fun_induction setMember key v members with
  | case1 => simp
  | case2 w rest => exact h
  | case3 k' w rest hne ih =>
    obtain ⟨hfirst, hrest⟩ := List.nodup_cons.1 h
    refine List.nodup_cons.2 ⟨fun hmem => ?_, ih hrest⟩
    exact (mem_keys_setMember.1 hmem).elim hne hfirst

/-- A value laid over what is there, if anything is. -/
def laidOver (lower : Option Json) (upper : Json) : Json :=
  match lower with
  | some value => value.patch upper
  | none => upper

/-- What is no table replaces what is there. -/
theorem laidOver_eq_self (lower : Option Json) {upper : Json} (h : ∀ members, upper ≠ .object members) :
    laidOver lower upper = upper := by
  cases lower with
  | none => rfl
  | some value =>
    cases upper with
    | object members => exact absurd rfl (h members)
    | _ => rw [laidOver, patch]

/-- Of two values the upper one counts, laid over the lower one. -/
def overlay (lower : Option Json) : Option Json → Option Json
  | some upper => some (laidOver lower upper)
  | none => lower

theorem patchMembers_cons (value : Json) :
    patchMembers members ((key, value) :: changes) =
      patchMembers (setMember key (laidOver (members.lookup key) value) members) changes := by
  rw [patchMembers]
  cases members.lookup key <;> rfl

theorem lookup_patchMembers (h : (changes.map (·.1)).Nodup) :
    (patchMembers members changes).lookup k = overlay (members.lookup k) (changes.lookup k) := by
  induction changes generalizing members with
  | nil => rw [patchMembers]; rfl
  | cons change rest ih =>
    obtain ⟨key, value⟩ := change
    obtain ⟨hkey, hrest⟩ := List.nodup_cons.1 h
    rw [patchMembers_cons, ih hrest, lookup_setMember]
    by_cases hk : k = key
    · subst hk
      have hlater : rest.lookup k = none := List.lookup_eq_none_iff.2 fun m hm =>
        bne_iff_ne.2 fun heq => hkey (List.mem_map.2 ⟨m, hm, heq.symm⟩)
      rw [if_pos rfl, hlater, List.lookup_cons_self]
      rfl
    · rw [if_neg hk, lookup_cons_of_ne hk]

/-- The members of an object that is laid over something. -/
theorem get?_laidOver_object (h : (changes.map (·.1)).Nodup) (lower : Option Json) :
    (laidOver lower (.object changes)).get? k = overlay (lower.bind (get? k)) (changes.lookup k) := by
  match lower with
  | some (.object members) =>
    rw [laidOver, patch]
    exact lookup_patchMembers h
  | none | some .null | some (.bool _) | some (.int _) | some (.real _) | some (.string _)
  | some (.array _) =>
    simp only [laidOver, patch, get?, Option.bind_some, Option.bind_none]
    cases changes.lookup k <;> rfl

theorem step?_laidOver_object (h : (changes.map (·.1)).Nodup) (lower : Option Json) (place : Nat) :
    (laidOver lower (.object changes)).step? (k, place) =
      overlay (lower.bind (get? k)) (changes.lookup k) := by
  rw [← get?_laidOver_object h lower]
  match lower with
  | some (.object members) => rw [laidOver, patch]; rfl
  | none | some .null | some (.bool _) | some (.int _) | some (.real _) | some (.string _)
  | some (.array _) => rfl

end

/-! ## Values at paths -/

/-- What of some values at paths lies behind a key. -/
def behind (key : String) (values : List (List String × Json)) : List (List String × Json) :=
  values.filterMap fun
    | ([], _) => none
    | (k :: path, v) => if k = key then some (path, v) else none

/-- What a value says at a path that others are to be laid over: by key in an object, and by place in
an array, which does not count if one of the others lies behind it. -/
def says? : List (List String × Json) → List Step → Json → Option Json
  | [], path, j => j.at? path
  | _, [], j => some j
  | values, (key, _) :: path, j => (j.get? key).bind (says? (behind key values) path)

/-- Some values are spread out as a table, each at its path. -/
inductive Spread : List (List String × Json) → Json → Prop where
  | value (v : Json) : Spread [([], v)] v
  | table {values : List (List String × Json)} {members : List (String × Json)}
    (deep : ∀ p ∈ values, p.1 ≠ []) (once : (members.map (·.1)).Nodup)
    (needed : ∀ key j, members.lookup key = some j → behind key values ≠ [])
    (held : ∀ key j, members.lookup key = some j → Spread (behind key values) j)
    (absent : ∀ key, members.lookup key = none → behind key values = []) :
    Spread values (.object members)

section

variable {key : String} {names : List String} {values : List (List String × Json)} {v j : Json}

theorem behind_cons_self {path : List String} :
    behind key ((key :: path, v) :: values) = (path, v) :: behind key values := by
  simp [behind]

theorem behind_cons_of_ne {k : String} (h : k ≠ key) {path : List String} :
    behind key ((k :: path, v) :: values) = behind key values := by
  simp [behind, h]

@[simp] theorem says?_nil (path : List Step) (j : Json) : says? [] path j = j.at? path := by
  cases path <;> rfl

theorem says?_cons (h : values ≠ []) (place : Nat) (path : List Step) :
    says? values ((key, place) :: path) j = (j.get? key).bind (says? (behind key values) path) := by
  cases values with
  | nil => exact absurd rfl h
  | cons _ _ => rfl

/-- Where only objects are on the way to a path, a value says what it has there. -/
theorem says?_eq_at? {path : List Step}
    (h : ∀ way, way <+: path → way ≠ path → ∀ v, j.at? way = some v → ∃ members, v = .object members) :
    says? values path j = j.at? path := by
  induction path generalizing values j with
  | nil => cases values <;> rfl
  | cons step rest ih =>
    obtain ⟨key, place⟩ := step
    obtain ⟨members, rfl⟩ := h [] List.nil_prefix (by simp) j rfl
    by_cases hvalues : values = []
    · rw [hvalues, says?_nil]
    · rw [says?_cons hvalues, at?, get?, step?]
      refine Option.bind_congr fun v hv => ih fun way hway hne w hw => ?_
      exact h ((key, place) :: way) ((List.prefix_cons_inj _).2 hway) (by simpa using hne) w
        (by rw [at?, step?, hv, Option.bind_some, hw])

theorem mem_behind_iff : (names, v) ∈ behind key values ↔ (key :: names, v) ∈ values := by
  simp only [behind, List.mem_filterMap, Prod.exists]
  constructor
  · rintro ⟨path, w, hmem, heq⟩
    cases path with
    | nil => cases heq
    | cons k rest =>
      simp only at heq
      split at heq
      · next hk => cases heq; exact hk ▸ hmem
      · cases heq
  · intro hmem
    exact ⟨_, _, hmem, by simp⟩

theorem lookup_behind : (behind key values).lookup names = values.lookup (key :: names) := by
  induction values with
  | nil => rfl
  | cons p rest ih =>
    obtain ⟨path, w⟩ := p
    cases path with
    | nil => rw [lookup_cons_of_ne (List.cons_ne_nil _ _), ← ih]; rfl
    | cons k path =>
      by_cases hk : k = key
      · subst hk
        rw [behind_cons_self]
        by_cases hpath : names = path
        · rw [hpath, List.lookup_cons_self, List.lookup_cons_self]
        · rw [lookup_cons_of_ne hpath, lookup_cons_of_ne (by simpa using hpath), ih]
      · rw [behind_cons_of_ne hk, lookup_cons_of_ne fun h => hk (List.cons.inj h).1.symm, ih]

/-- No value is on the way to a path, or behind it. -/
def Apart (values : List (List String × Json)) (names : List String) : Prop :=
  ∀ p ∈ values, p.1 <+: names ∨ names <+: p.1 → p.1 = names

theorem Apart.behind (h : Apart values (key :: names)) : Apart (behind key values) names := by
  rintro ⟨path, w⟩ hp hprefix
  have hmem := mem_behind_iff.1 hp
  have := h _ hmem (by simpa [List.cons_prefix_cons] using hprefix)
  exact (List.cons.inj this).2

/-- What there is at a path after some values were laid over what was there. -/
theorem Spread.at?_laidOver {values : List (List String × Json)} {table : Json}
    (h : Spread values table) (hsome : values ≠ []) {path : List Step}
    (hapart : Apart values (path.map Prod.fst)) (lower : Option Json) :
    (laidOver lower table).at? path =
      overlay (lower.bind (says? values path)) (values.lookup (path.map Prod.fst)) := by
  induction path generalizing values table lower with
  | nil =>
    cases h with
    | value => cases lower <;> simp [at?, says?, overlay, laidOver]
    | table deep _ _ _ _ =>
      obtain ⟨p, hp⟩ := List.exists_mem_of_ne_nil values hsome
      exact absurd (hapart p hp (.inr List.nil_prefix)) (deep p hp)
  | cons step rest ih =>
    obtain ⟨key, place⟩ := step
    cases h with
    | value => exact absurd (hapart _ List.mem_cons_self (.inl List.nil_prefix)) (by simp)
    | @table _ members deep once needed held absent =>
      have hsays : lower.bind (says? values ((key, place) :: rest)) =
          (lower.bind (get? key)).bind (says? (behind key values) rest) := by
        cases lower with
        | none => rfl
        | some base => exact says?_cons hsome place rest
      rw [at?, step?_laidOver_object once, List.map_cons, ← lookup_behind, hsays]
      cases hmember : members.lookup key with
      | some c =>
        exact ih (held key c hmember) (needed key c hmember) hapart.behind (lower.bind (get? key))
      | none =>
        rw [absent key hmember]
        cases lower.bind (get? key) <;> simp [overlay]

end

end Concierge.Json
