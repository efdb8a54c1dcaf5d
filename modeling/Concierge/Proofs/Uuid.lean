import Concierge.Proofs.Url.Percent
import Concierge.Uuid
import Mathlib.Algebra.GroupWithZero.Nat

/-!
# Spellings of identifiers

An identifier is read from 32 hexadecimal digits of either case, plain, hyphenated, in braces or
behind the name of a scheme, and from nothing else.  However it was spelled, it is written as its
digits in lower case, hyphenated.
-/

namespace Concierge

open Percent (IsHex forall_isHex)

/-! ## Digits -/

namespace Digit

/-- The number that a digit stands for is written in lower case. -/
theorem hexLower_of_hex? {c : Char} {n : Nat} (h : hex? c = some n) :
    hexLower (Fin.ofNat 16 n).val = c.toLower := by
  have hc : IsHex c := by rw [IsHex, h]; rfl
  exact forall_isHex
    (P := fun c => ∀ n ∈ hex? c, hexLower (Fin.ofNat 16 n).val = c.toLower) (by decide) hc n h

theorem isHex_hexLower : ∀ d : Fin 16, IsHex (hexLower d.val) := by decide

theorem toLower_hexLower : ∀ d : Fin 16, (hexLower d.val).toLower = hexLower d.val := by decide

theorem hexLower_injective : Function.Injective fun d : Fin 16 => hexLower d.val := by
  have hne : ∀ d e : Fin 16, hexLower d.val = hexLower e.val → d = e := by decide
  exact fun d e => hne d e

/-- Digits are read one by one. -/
theorem exists_mapM_hex?_iff {cs : List Char} :
    (∃ ns, cs.mapM hex? = some ns) ↔ ∀ c ∈ cs, IsHex c := by
  induction cs with
  | nil => simp
  | cons c rest ih =>
    rw [List.forall_mem_cons, ← ih, IsHex, Option.isSome_iff_exists, List.mapM_cons]
    cases hex? c <;> cases rest.mapM hex? <;> simp

theorem map_hexLower_of_mapM {cs : List Char} {ns : List Nat} (h : cs.mapM hex? = some ns) :
    (ns.map fun n => hexLower (Fin.ofNat 16 n).val) = cs.map Char.toLower := by
  induction cs generalizing ns with
  | nil =>
    obtain rfl := Option.some.inj h
    rfl
  | cons c rest ih =>
    simp only [List.mapM_cons, Option.bind_eq_bind, Option.bind_eq_some_iff] at h
    obtain ⟨n, hc, ns, hrest, hns⟩ := h
    obtain rfl := Option.some.inj hns
    rw [List.map_cons, List.map_cons, hexLower_of_hex? hc, ih hrest]

end Digit

namespace Uuid

/-! ## Hyphens -/

theorem length_hyphenate {ns : List Nat} {cs : List Char} (h : ns.sum ≤ cs.length) :
    (hyphenate ns cs).length = cs.length + (ns.length - 1) := by
  induction ns, cs using hyphenate.induct with
  | case1 cs => rfl
  | case2 cs n => rfl
  | case3 n ns cs hmore ih =>
    rw [List.sum_cons] at h
    have hns : 0 < ns.length := List.length_pos_iff.2 hmore
    rw [hyphenate.eq_3 _ _ _ hmore, List.length_append, List.length_cons,
      ih (by rw [List.length_drop]; omega), List.length_take, List.length_drop, List.length_cons]
    omega

/-- Hyphens are taken out where they were put. -/
theorem joinGroups?_hyphenate {ns : List Nat} {cs : List Char} (h : ns.sum ≤ cs.length) :
    joinGroups? ns (hyphenate ns cs) = some cs := by
  induction ns, cs using hyphenate.induct with
  | case1 cs => rfl
  | case2 cs n => rfl
  | case3 n ns cs hmore ih =>
    rw [List.sum_cons] at h
    have htaken : (cs.take n).length = n := List.length_take_of_le (by omega)
    rw [hyphenate.eq_3 _ _ _ hmore, joinGroups?.eq_3 _ _ _ hmore, List.drop_left' htaken,
      List.take_left' htaken]
    simp only [ih (by rw [List.length_drop]; omega), Option.map_some, List.take_append_drop]

/-- Hyphens are only taken out where they would be put. -/
theorem hyphenate_of_joinGroups? {ns : List Nat} {cs ds : List Char}
    (h : joinGroups? ns cs = some ds) : hyphenate ns ds = cs := by
  induction ns, cs using joinGroups?.induct generalizing ds with
  | case1 cs => exact (Option.some.inj h).symm
  | case2 cs n => exact (Option.some.inj h).symm
  | case3 n ns cs hmore rest hrest ih =>
    rw [joinGroups?.eq_3 _ _ _ hmore, hrest] at h
    obtain ⟨more, hjoined, rfl⟩ := Option.map_eq_some_iff.1 h
    have hlength : (cs.drop n).length = rest.length + 1 := by rw [hrest, List.length_cons]
    have htaken : (cs.take n).length = n := by
      rw [List.length_drop] at hlength
      exact List.length_take_of_le (by omega)
    rw [hyphenate.eq_3 _ _ _ hmore, List.take_left' htaken, List.drop_left' htaken, ih hjoined,
      ← hrest, List.take_append_drop]
  | case4 n ns cs hmore hother =>
    rw [joinGroups?.eq_3 _ _ _ hmore] at h
    split at h
    · next rest hrest => exact absurd hrest (hother rest)
    · cases h

/-! ## Forms -/

/-- The 32 digits that an identifier may be spelled with, in either case. -/
structure AreDigits (ds : List Char) : Prop where
  length : ds.length = 32
  hex : ∀ d ∈ ds, IsHex d

/-- Digits are put into groups, one hyphen between two of them. -/
def hyphenated (ds : List Char) : List Char := hyphenate groups ds

/-- The texts that spell an identifier with these digits. -/
def spellings (ds : List Char) : List (List Char) :=
  [ds, hyphenated ds, '{' :: (hyphenated ds ++ ['}'])] ++ schemes.map (· ++ hyphenated ds)

variable {cs ds : List Char} {id : Uuid}

theorem sum_groups_le (h : ds.length = 32) : groups.sum ≤ ds.length := h.ge

theorem length_hyphenated (h : ds.length = 32) : (hyphenated ds).length = 36 := by
  rw [hyphenated, length_hyphenate (sum_groups_le h), h]
  rfl

theorem hyphenated_inj {es : List Char} (hds : ds.length = 32) (hes : es.length = 32) :
    hyphenated ds = hyphenated es ↔ ds = es := by
  refine ⟨fun h => ?_, congrArg hyphenated⟩
  have hjoined := joinGroups?_hyphenate (sum_groups_le hds)
  rw [← hyphenated, h, hyphenated, joinGroups?_hyphenate (sum_groups_le hes)] at hjoined
  exact (Option.some.inj hjoined).symm

/-- The digits of an identifier as they are written. -/
theorem areDigits_hexLower (id : Uuid) : AreDigits (id.digits.map fun d => Digit.hexLower d.val) where
  length := by rw [List.length_map, id.length_digits]
  hex := by simp [Digit.isHex_hexLower]

theorem toChars_injective : Function.Injective toChars := by
  intro id id' h
  have hdigits := (hyphenated_inj (areDigits_hexLower id).length (areDigits_hexLower id').length).1 h
  obtain ⟨digits, _⟩ := id
  obtain ⟨digits', _⟩ := id'
  obtain rfl : digits = digits' := Digit.hexLower_injective.list_map hdigits
  rfl

/-- Plain digits are read as the identifier that is written with them in lower case. -/
theorem exists_ofDigits? (h : AreDigits ds) :
    ∃ id, ofDigits? ds = some id ∧ id.toChars = hyphenated (ds.map Char.toLower) := by
  obtain ⟨ns, hns⟩ := Digit.exists_mapM_hex?_iff.2 h.hex
  have hlower := Digit.map_hexLower_of_mapM hns
  have hlength : ns.length = 32 := by simpa [h.length] using congrArg List.length hlower
  refine ⟨⟨ns.map (Fin.ofNat 16), by simpa using hlength⟩, ?_, ?_⟩
  · simp only [ofDigits?, hns, hlength, dif_pos]
  · rw [toChars, List.map_map, hyphenated, ← hlower]
    rfl

theorem areDigits_of_ofDigits? (h : ofDigits? ds = some id) : AreDigits ds := by
  unfold ofDigits? at h
  split at h
  · next ns hns =>
    split at h
    · next hlength =>
      have hlower := congrArg List.length (Digit.map_hexLower_of_mapM hns)
      rw [List.length_map, List.length_map, hlength] at hlower
      exact ⟨hlower.symm, Digit.exists_mapM_hex?_iff.1 ⟨ns, hns⟩⟩
    · cases h
  · cases h

theorem ofDigits?_eq_some_iff :
    ofDigits? ds = some id ↔ AreDigits ds ∧ id.toChars = hyphenated (ds.map Char.toLower) := by
  constructor
  · intro h
    have hdigits := areDigits_of_ofDigits? h
    obtain ⟨id', hread, hid'⟩ := exists_ofDigits? hdigits
    obtain rfl := Option.some.inj (h.symm.trans hread)
    exact ⟨hdigits, hid'⟩
  · rintro ⟨hdigits, hid⟩
    obtain ⟨id', hread, hid'⟩ := exists_ofDigits? hdigits
    rw [hread, toChars_injective (hid.trans hid'.symm)]

/-- Hyphenated digits are read as the digits are. -/
theorem ofHyphenated?_eq_some_iff :
    ofHyphenated? cs = some id ↔ ∃ ds, cs = hyphenated ds ∧ ofDigits? ds = some id := by
  rw [ofHyphenated?]
  constructor
  · intro h
    rw [Option.ite_none_right_eq_some, Option.bind_eq_some_iff] at h
    obtain ⟨-, ds, hjoined, hds⟩ := h
    exact ⟨ds, (hyphenate_of_joinGroups? hjoined).symm, hds⟩
  · rintro ⟨ds, rfl, hds⟩
    have hlength := (ofDigits?_eq_some_iff.1 hds).1.length
    rw [if_pos (length_hyphenated hlength), hyphenated, joinGroups?_hyphenate (sum_groups_le hlength)]
    exact hds

theorem eq_of_braces {c d : Char} (hlength : 1 < cs.length) (hfirst : cs.head? = some c)
    (hlast : cs.getLast? = some d) : cs = c :: ((cs.drop 1).dropLast ++ [d]) := by
  cases cs with
  | nil => cases hfirst
  | cons c' rest =>
    obtain rfl := Option.some.inj hfirst
    have hrest : rest ≠ [] := by
      rintro rfl
      exact absurd hlength (Nat.lt_irrefl 1)
    rw [List.getLast?_cons_of_ne_nil hrest] at hlast
    rw [List.drop_succ_cons, List.drop_zero, List.dropLast_append_getLast? d hlast]

theorem exists_digits_of_ofChars? (h : ofChars? cs = some id) :
    ∃ ds, cs ∈ spellings ds ∧ ofDigits? ds = some id := by
  unfold ofChars? at h
  split at h
  · exact ⟨cs, by simp [spellings], h⟩
  split at h
  · obtain ⟨ds, rfl, hds⟩ := ofHyphenated?_eq_some_iff.1 h
    exact ⟨ds, by simp [spellings], hds⟩
  split at h
  · next hlength =>
    rw [Option.ite_none_right_eq_some] at h
    obtain ⟨⟨hfirst, hlast⟩, hinner⟩ := h
    obtain ⟨ds, hcs, hds⟩ := ofHyphenated?_eq_some_iff.1 hinner
    have hbraced := eq_of_braces (by omega) hfirst hlast
    rw [hcs] at hbraced
    exact ⟨ds, by simp [spellings, hbraced], hds⟩
  · rw [Option.ite_none_right_eq_some] at h
    obtain ⟨hscheme, hrest⟩ := h
    obtain ⟨ds, hcs, hds⟩ := ofHyphenated?_eq_some_iff.1 hrest
    have hjoined : cs.take 9 ++ hyphenated ds = cs := by rw [← hcs, List.take_append_drop]
    exact ⟨ds, List.mem_append_right _ (List.mem_map.2 ⟨_, hscheme, hjoined⟩), hds⟩

theorem ofChars?_of_mem_spellings (hcs : cs ∈ spellings ds) (hds : ofDigits? ds = some id) :
    ofChars? cs = some id := by
  have hdigits := (ofDigits?_eq_some_iff.1 hds).1.length
  have hlength := length_hyphenated hdigits
  have hhyphenated := ofHyphenated?_eq_some_iff.2 ⟨ds, rfl, hds⟩
  simp only [spellings, schemes, List.map_cons, List.map_nil, List.cons_append, List.nil_append,
    List.mem_cons, List.not_mem_nil, or_false] at hcs
  -- the five forms have 32, 36, 38, 45 and 45 characters
  obtain rfl | rfl | rfl | rfl | rfl := hcs
  · rw [ofChars?, if_pos hdigits, hds]
  · rw [ofChars?, if_neg (by omega), if_pos hlength, hhyphenated]
  · simp [ofChars?, hlength, hhyphenated, List.getLast?_cons]
  · simp [ofChars?, schemes, hlength, hhyphenated]
  · simp [ofChars?, schemes, hlength, hhyphenated]

/-- An identifier is read from the spellings of 32 digits and from nothing else, and it is written as
these digits in lower case, hyphenated. -/
theorem ofChars?_eq_some_iff :
    ofChars? cs = some id ↔
      ∃ ds, AreDigits ds ∧ cs ∈ spellings ds ∧ id.toChars = hyphenated (ds.map Char.toLower) := by
  constructor
  · intro h
    obtain ⟨ds, hcs, hds⟩ := exists_digits_of_ofChars? h
    obtain ⟨hdigits, hid⟩ := ofDigits?_eq_some_iff.1 hds
    exact ⟨ds, hdigits, hcs, hid⟩
  · rintro ⟨ds, hdigits, hcs, hid⟩
    exact ofChars?_of_mem_spellings hcs (ofDigits?_eq_some_iff.2 ⟨hdigits, hid⟩)

/-- An identifier is read back from what is written of it. -/
theorem ofText?_toText (id : Uuid) : ofText? id.toText = some id := by
  rw [ofText?, toText, String.toList_ofList, ofChars?_eq_some_iff]
  refine ⟨_, areDigits_hexLower id, by simp [spellings, toChars, hyphenated], ?_⟩
  rw [List.map_map, toChars, hyphenated]
  exact congrArg _ (List.map_congr_left fun d _ => (Digit.toLower_hexLower d).symm)

/-- All spellings of 32 digits are read as one identifier. -/
theorem exists_ofChars? (h : AreDigits ds) : ∃ id, ∀ cs ∈ spellings ds, ofChars? cs = some id := by
  obtain ⟨id, hread, -⟩ := exists_ofDigits? h
  exact ⟨id, fun cs hcs => ofChars?_of_mem_spellings hcs hread⟩

example : (ofText? "\x7b67E55044-10B1-426F-9247-BB680E5FE0C8\x7d").map toChars =
    some "67e55044-10b1-426f-9247-bb680e5fe0c8".toList := by decide +kernel

end Uuid

end Concierge
