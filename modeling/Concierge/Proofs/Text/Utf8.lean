import Concierge.Text.Utf8
import Mathlib.Tactic.SplitIfs

/-!
# Reading octets back

The octets of a text are read back as that text, strictly or not: each character is read off its own
octets, whatever follows them.  Characters of ASCII are single octets with their own number, and no
other character has an octet of that range.
-/

namespace Concierge.Utf8

variable {a b c d : UInt8} {rest : List UInt8}

/-! ## One sequence -/

theorem isTail_iff : isTail b = true ↔ 0x80 ≤ b.toNat ∧ b.toNat ≤ 0xBF := by
  simp [isTail, UInt8.le_iff_toNat_le]

theorem isSecond_of_toNat (hb : 0x80 ≤ b.toNat ∧ b.toNat ≤ 0xBF)
    (hE0 : a.toNat = 0xE0 → 0xA0 ≤ b.toNat) (hED : a.toNat = 0xED → b.toNat ≤ 0x9F)
    (hF0 : a.toNat = 0xF0 → 0x90 ≤ b.toNat) (hF4 : a.toNat = 0xF4 → b.toNat ≤ 0x8F) :
    isSecond a b = true := by
  unfold isSecond
  simp only [← UInt8.toNat_inj, isTail]
  split_ifs <;> simp_all [UInt8.le_iff_toNat_le]

theorem scan_one (ha : a.toNat ≤ 0x7F) :
    scan (a :: rest) = some (Char.ofNat a.toNat) :: scan rest := by
  have hone : a < 0x80 := UInt8.lt_iff_toNat_lt.2 (Nat.lt_succ_of_le ha)
  rw [scan.eq_def]
  simp only [hone, if_true]

theorem scan_two (ha : 0xC2 ≤ a.toNat ∧ a.toNat ≤ 0xDF) (hb : isTail b = true) :
    scan (a :: b :: rest) = some (Char.ofNat (push (a.toNat - 0xC0) b)) :: scan rest := by
  have hone : ¬ a < 0x80 := by simp [UInt8.lt_iff_toNat_lt]; omega
  have htwo : (decide (0xC2 ≤ a) && decide (a ≤ 0xDF)) = true := by
    simpa [UInt8.le_iff_toNat_le] using ha
  rw [scan.eq_def]
  simp only [hone, htwo, hb, if_true, if_false]

theorem scan_three (ha : 0xE0 ≤ a.toNat ∧ a.toNat ≤ 0xEF) (hb : isSecond a b = true)
    (hc : isTail c = true) :
    scan (a :: b :: c :: rest) =
      some (Char.ofNat (push (push (a.toNat - 0xE0) b) c)) :: scan rest := by
  have hone : ¬ a < 0x80 := by simp [UInt8.lt_iff_toNat_lt]; omega
  have htwo : (decide (0xC2 ≤ a) && decide (a ≤ 0xDF)) = false := by
    simp [UInt8.le_iff_toNat_le]; omega
  have hthree : (decide (0xE0 ≤ a) && decide (a ≤ 0xEF)) = true := by
    simpa [UInt8.le_iff_toNat_le] using ha
  rw [scan.eq_def]
  simp only [hone, htwo, hthree, hb, hc, if_true, if_false, Bool.false_eq_true]

theorem scan_four (ha : 0xF0 ≤ a.toNat ∧ a.toNat ≤ 0xF4) (hb : isSecond a b = true)
    (hc : isTail c = true) (hd : isTail d = true) :
    scan (a :: b :: c :: d :: rest) =
      some (Char.ofNat (push (push (push (a.toNat - 0xF0) b) c) d)) :: scan rest := by
  have hone : ¬ a < 0x80 := by simp [UInt8.lt_iff_toNat_lt]; omega
  have htwo : (decide (0xC2 ≤ a) && decide (a ≤ 0xDF)) = false := by
    simp [UInt8.le_iff_toNat_le]; omega
  have hthree : (decide (0xE0 ≤ a) && decide (a ≤ 0xEF)) = false := by
    simp [UInt8.le_iff_toNat_le]; omega
  have hfour : (decide (0xF0 ≤ a) && decide (a ≤ 0xF4)) = true := by
    simpa [UInt8.le_iff_toNat_le] using ha
  rw [scan.eq_def]
  simp only [hone, htwo, hthree, hfour, hb, hc, hd, if_true, if_false, Bool.false_eq_true]

/-! ## One character -/

theorem toNat_octet {n : Nat} (h : n < 256) : (UInt8.ofNat n).toNat = n := by
  rw [UInt8.toNat_ofNat', Nat.mod_eq_of_lt h]

/-- A continuation octet carries the last six bits of a number. -/
theorem toNat_tail (n : Nat) : (UInt8.ofNat (n % 64 + 0x80)).toNat = n % 64 + 0x80 :=
  toNat_octet (by omega)

theorem isTail_tail (n : Nat) : isTail (UInt8.ofNat (n % 64 + 0x80)) = true := by
  rw [isTail_iff, toNat_tail]
  omega

theorem push_tail (bits n : Nat) :
    push bits (UInt8.ofNat (n % 64 + 0x80)) = bits * 64 + n % 64 := by
  unfold push
  have htail := toNat_tail n
  rw [htail]
  omega

/-- A character is read off its octets, whatever follows. -/
theorem scan_character (character : Char) (rest : List UInt8) :
    scan (String.utf8EncodeChar character ++ rest) = some character :: scan rest := by
  -- The two gaps in the numbers of characters are what the first octets E0, ED, F0 and F4 restrict.
  have hvalid : character.val.toNat < 0xD800 ∨
      0xDFFF < character.val.toNat ∧ character.val.toNat < 0x110000 := character.valid
  have hchar : Char.ofNat character.val.toNat = character := Char.ofNat_toNat character
  unfold String.utf8EncodeChar
  simp only
  generalize character.val.toNat = v at *
  split_ifs with hone htwo hthree
  · have ha : (UInt8.ofNat v).toNat = v := toNat_octet (by omega)
    rw [List.singleton_append, scan_one (ha.symm ▸ hone), ha, hchar]
  · have hbits : v / 64 % 32 * 64 + v % 64 = v := by omega
    have hrange : 0xC2 ≤ v / 64 % 32 + 0xC0 ∧ v / 64 % 32 + 0xC0 ≤ 0xDF := by omega
    have ha : (UInt8.ofNat (v / 64 % 32 + 0xC0)).toNat = v / 64 % 32 + 0xC0 := toNat_octet (by omega)
    rw [List.cons_append, List.singleton_append, scan_two (by rwa [ha]) (isTail_tail v), ha,
      Nat.add_sub_cancel, push_tail, hbits, hchar]
  · have hbits : (v / 4096 % 16 * 64 + v / 64 % 64) * 64 + v % 64 = v := by omega
    have hrange : 0xE0 ≤ v / 4096 % 16 + 0xE0 ∧ v / 4096 % 16 + 0xE0 ≤ 0xEF := by omega
    have ha : (UInt8.ofNat (v / 4096 % 16 + 0xE0)).toNat = v / 4096 % 16 + 0xE0 :=
      toNat_octet (by omega)
    have hsecond : isSecond (UInt8.ofNat (v / 4096 % 16 + 0xE0))
        (UInt8.ofNat (v / 64 % 64 + 0x80)) = true := by
      refine isSecond_of_toNat ?_ ?_ ?_ ?_ ?_ <;> rw [toNat_tail] <;> try rw [ha]
      all_goals clear ha; omega
    rw [List.cons_append, List.cons_append, List.singleton_append,
      scan_three (by rwa [ha]) hsecond (isTail_tail v), ha, Nat.add_sub_cancel, push_tail, push_tail,
      hbits, hchar]
  · have hbits : ((v / 262144 % 8 * 64 + v / 4096 % 64) * 64 + v / 64 % 64) * 64 + v % 64 = v := by
      omega
    have hrange : 0xF0 ≤ v / 262144 % 8 + 0xF0 ∧ v / 262144 % 8 + 0xF0 ≤ 0xF4 := by omega
    have ha : (UInt8.ofNat (v / 262144 % 8 + 0xF0)).toNat = v / 262144 % 8 + 0xF0 :=
      toNat_octet (by omega)
    have hsecond : isSecond (UInt8.ofNat (v / 262144 % 8 + 0xF0))
        (UInt8.ofNat (v / 4096 % 64 + 0x80)) = true := by
      refine isSecond_of_toNat ?_ ?_ ?_ ?_ ?_ <;> rw [toNat_tail] <;> try rw [ha]
      all_goals clear ha; omega
    rw [List.cons_append, List.cons_append, List.cons_append, List.singleton_append,
      scan_four (by rwa [ha]) hsecond (isTail_tail (v / 64)) (isTail_tail v), ha,
      Nat.add_sub_cancel, push_tail, push_tail, push_tail, hbits, hchar]

/-- A character of ASCII is the octet with its number. -/
theorem octets_of_ascii {character : Char} (h : character.toNat < 0x80) :
    String.utf8EncodeChar character = [UInt8.ofNat character.toNat] := by
  unfold String.utf8EncodeChar
  exact if_pos (Nat.le_of_lt_succ h)

/-- The octets of any other character are beyond ASCII. -/
theorem le_of_mem_octets {character : Char} (h : 0x80 ≤ character.toNat) {octet : UInt8}
    (hoctet : octet ∈ String.utf8EncodeChar character) : 0x80 ≤ octet.toNat := by
  have hone : ¬ character.val.toNat ≤ 0x7F := Nat.not_le.2 h
  unfold String.utf8EncodeChar at hoctet
  simp only [hone, if_false] at hoctet
  generalize character.val.toNat = v at hoctet
  have hhigh (n low : Nat) (hlow : 0x80 ≤ low) (hn : n + low < 256) :
      0x80 ≤ (UInt8.ofNat (n + low)).toNat := by
    rw [toNat_octet hn]
    omega
  split_ifs at hoctet <;> simp only [List.mem_cons, List.not_mem_nil, or_false] at hoctet
  · rcases hoctet with rfl | rfl <;> exact hhigh _ _ (by omega) (by omega)
  · rcases hoctet with rfl | rfl | rfl <;> exact hhigh _ _ (by omega) (by omega)
  · rcases hoctet with rfl | rfl | rfl | rfl <;> exact hhigh _ _ (by omega) (by omega)

/-! ## Texts -/

/-- The octets of a list of characters. -/
def octets (cs : List Char) : List UInt8 := cs.flatMap String.utf8EncodeChar

@[simp] theorem octets_nil : octets [] = [] := rfl

theorem octets_cons (character : Char) (cs : List Char) :
    octets (character :: cs) = String.utf8EncodeChar character ++ octets cs := List.flatMap_cons

theorem octets_append (cs ds : List Char) : octets (cs ++ ds) = octets cs ++ octets ds :=
  List.flatMap_append

theorem encode_eq_octets (s : String) : encode s = octets s.toList := rfl

@[simp] theorem encode_ofList (cs : List Char) : encode (String.ofList cs) = octets cs := by
  rw [encode_eq_octets, String.toList_ofList]

/-- Characters are read back in order. -/
theorem scan_octets (cs : List Char) : scan (octets cs) = cs.map some := by
  induction cs with
  | nil => rfl
  | cons character rest ih => rw [octets_cons, scan_character, ih, List.map_cons]

/-- What was written is read back. -/
theorem decodeLossy_encode (s : String) : decodeLossy (encode s) = s := by
  rw [decodeLossy, encode_eq_octets, scan_octets, List.map_map]
  simp [Function.comp_def]

/-- What was written is well-formed and read back as it was. -/
theorem decode?_octets (cs : List Char) : decode? (octets cs) = some (String.ofList cs) := by
  have hall : (cs.map some).mapM id = some cs := by
    induction cs with
    | nil => rfl
    | cons c rest ih => simp [List.map_cons, ih]
  rw [decode?, scan_octets, hall, Option.map_some]

/-- Different characters have different octets. -/
theorem octets_injective {cs ds : List Char} (h : octets cs = octets ds) : cs = ds := by
  have hscan : cs.map some = ds.map some := by rw [← scan_octets, h, scan_octets]
  exact (List.map_inj_right fun _ _ => Option.some.inj).1 hscan

/-! ## Octets of ASCII -/

/-- Only octets beyond ASCII are taken for a part of a longer sequence. -/
theorem le_of_isSecond (h : isSecond a b = true) : 0x80 ≤ b.toNat := by
  unfold isSecond at h
  split_ifs at h <;> simp [isTail, UInt8.le_iff_toNat_le] at h <;> omega

/-- An octet of ASCII is a character wherever it stands. -/
theorem mem_scan (hb : b.toNat < 0x80) (h : b ∈ rest) : some (Char.ofNat b.toNat) ∈ scan rest := by
  have hone : b < 0x80 := UInt8.lt_iff_toNat_lt.2 hb
  have htail : isTail b = false := Bool.eq_false_iff.2 fun htail => by
    have hlow := (isTail_iff.1 htail).1
    omega
  have hsecond (a : UInt8) : isSecond a b = false := Bool.eq_false_iff.2 fun hsecond => by
    have hlow := le_of_isSecond hsecond
    omega
  -- In every case the octet is the first one, or stands behind the sequence that is read there.
  fun_induction scan rest <;> grind

/-- What stands in a list stands, as it was read, among what was read of it. -/
theorem exists_of_mapM {α β : Type} {read : α → Option β} {xs : List α} {ys : List β} {x : α}
    (h : xs.mapM read = some ys) (hx : x ∈ xs) : ∃ y ∈ ys, read x = some y := by
  induction xs generalizing ys with
  | nil => cases hx
  | cons first rest ih =>
    rw [List.mapM_cons] at h
    obtain ⟨y, hy, hrest⟩ := Option.bind_eq_some_iff.1 h
    obtain ⟨others, hothers, hys⟩ := Option.bind_eq_some_iff.1 hrest
    cases hys
    rcases List.mem_cons.1 hx with rfl | hlater
    · exact ⟨y, List.mem_cons_self, hy⟩
    · obtain ⟨z, hz, hread⟩ := ih hothers hlater
      exact ⟨z, List.mem_cons_of_mem _ hz, hread⟩

/-- A text that is read strictly has every octet of ASCII as a character. -/
theorem mem_of_decode? {s : String} (h : decode? rest = some s) (hb : b.toNat < 0x80)
    (hmem : b ∈ rest) : Char.ofNat b.toNat ∈ s.toList := by
  obtain ⟨cs, hcs, rfl⟩ := Option.map_eq_some_iff.1 h
  obtain ⟨c, hc, hsame⟩ := exists_of_mapM hcs (mem_scan hb hmem)
  rw [String.toList_ofList, Option.some.inj hsame]
  exact hc

end Concierge.Utf8
