import Concierge.Proofs.Text.Utf8
import Concierge.Url.Percent
import Mathlib.Data.List.Infix

/-!
# Percent signs

Reading escapes is described here on characters: a percent sign with two digits behind it is an octet,
every other character stands for its own octets.  So a text is read as itself exactly if it holds no
escape, and any escape makes it shorter.  Escaping what may not stand in an address does not change what
the text is read as, whether or not it held escapes before.
-/

namespace Concierge.Percent

open Utf8

/-- A hexadecimal digit of either case. -/
def IsHex (c : Char) : Prop := (Digit.hex? c).isSome

instance (c : Char) : Decidable (IsHex c) := inferInstanceAs (Decidable (_ = true))

/-- A text that starts with two hexadecimal digits. -/
def StartsHex (cs : List Char) : Prop := ∃ a b rest, cs = a :: b :: rest ∧ IsHex a ∧ IsHex b

/-- No percent sign of a text has two hexadecimal digits behind it. -/
def Unescaped (cs : List Char) : Prop :=
  ∀ before a b after, cs = before ++ '%' :: a :: b :: after → ¬ (IsHex a ∧ IsHex b)

variable {c : Char} {cs rest : List Char}

theorem toNat_lt_of_isHex (h : IsHex c) : c.toNat < 0x80 := by
  by_contra hlarge
  have hdigit (low high : Char) (hhigh : high.toNat < 0x80) : ¬ (low ≤ c ∧ c ≤ high) := fun hc => by
    have hle : c.toNat ≤ high.toNat := hc.2
    omega
  simp [IsHex, Digit.hex?, hdigit '0' '9' (by decide), hdigit 'a' 'f' (by decide),
    hdigit 'A' 'F' (by decide)] at h

/-- What is said of characters by number is said of hexadecimal digits. -/
theorem forall_isHex {P : Char → Prop} (h : ∀ n < 0x80, IsHex (Char.ofNat n) → P (Char.ofNat n))
    (hc : IsHex c) : P c := by
  have hchar : Char.ofNat c.toNat = c := Char.ofNat_toNat c
  have hall := h c.toNat (toNat_lt_of_isHex hc)
  rw [hchar] at hall
  exact hall hc

theorem ofNat_octet (h : c.toNat < 0x80) : Char.ofNat (UInt8.ofNat c.toNat).toNat = c := by
  rw [toNat_octet (by omega), Char.ofNat_toNat]

/-! ## Reading octets -/

/-- Any octet but a percent sign stands for itself. -/
theorem decode_octet {b : UInt8} (h : b ≠ 0x25) (bytes : List UInt8) :
    decode (b :: bytes) = b :: decode bytes :=
  decode.eq_3 b bytes fun _ _ _ hb _ => h hb

theorem decode_octets {bytes : List UInt8} (h : ∀ b ∈ bytes, b ≠ 0x25) (more : List UInt8) :
    decode (bytes ++ more) = bytes ++ decode more := by
  induction bytes with
  | nil => rfl
  | cons b others ih =>
    rw [List.cons_append, decode_octet (h b List.mem_cons_self), ih fun b' hb' =>
      h b' (List.mem_cons_of_mem _ hb'), List.cons_append]

theorem ne_of_mem_octets (h : c ≠ '%') {b : UInt8} (hb : b ∈ String.utf8EncodeChar c) : b ≠ 0x25 := by
  rintro rfl
  by_cases hascii : c.toNat < 0x80
  · rw [octets_of_ascii hascii, List.mem_singleton] at hb
    have hchar := ofNat_octet hascii
    rw [← hb] at hchar
    exact h hchar.symm
  · have hlarge := le_of_mem_octets (Nat.le_of_not_lt hascii) hb
    exact absurd hlarge (by decide)

/-! ## Reading characters -/

/-- Any character but a percent sign stands for its octets. -/
theorem decode_character (h : c ≠ '%') (cs : List Char) :
    decode (octets (c :: cs)) = String.utf8EncodeChar c ++ decode (octets cs) := by
  rw [octets_cons]
  exact decode_octets (fun _ hb => ne_of_mem_octets h hb) _

theorem octets_percent (cs : List Char) : octets ('%' :: cs) = 0x25 :: octets cs := rfl

/-- A percent sign with two digits stands for an octet. -/
theorem decode_escaped {a b : Char} {high low : Nat} (ha : Digit.hex? a = some high)
    (hb : Digit.hex? b = some low) (cs : List Char) :
    decode (octets ('%' :: a :: b :: cs)) = UInt8.ofNat (high * 16 + low) :: decode (octets cs) := by
  have hasciiA : a.toNat < 0x80 := toNat_lt_of_isHex (by rw [IsHex, ha]; rfl)
  have hasciiB : b.toNat < 0x80 := toNat_lt_of_isHex (by rw [IsHex, hb]; rfl)
  rw [octets_percent, octets_cons, octets_cons, octets_of_ascii hasciiA, octets_of_ascii hasciiB,
    List.singleton_append, List.singleton_append, decode.eq_2, ofNat_octet hasciiA,
    ofNat_octet hasciiB, ha, hb]

/-- The first octet of a character is a digit only if the character is. -/
theorem isHex_of_octet {x : UInt8} {xs : List UInt8} (hx : octets cs = x :: xs)
    (hhex : IsHex (Char.ofNat x.toNat)) :
    ∃ more, cs = Char.ofNat x.toNat :: more ∧ octets more = xs := by
  cases cs with
  | nil => cases hx
  | cons c more =>
    rw [octets_cons] at hx
    by_cases hascii : c.toNat < 0x80
    · rw [octets_of_ascii hascii, List.singleton_append, List.cons.injEq] at hx
      refine ⟨more, ?_, hx.2⟩
      rw [← hx.1, ofNat_octet hascii]
    · have hmem : x ∈ String.utf8EncodeChar c := by
        cases hoctets : String.utf8EncodeChar c with
        | nil => exact absurd hoctets String.utf8EncodeChar_ne_nil
        | cons y ys =>
          rw [hoctets, List.cons_append, List.cons.injEq] at hx
          rw [hx.1]
          exact List.mem_cons_self
      have hlarge := le_of_mem_octets (Nat.le_of_not_lt hascii) hmem
      have hsmall := toNat_lt_of_isHex hhex
      have hsame : (Char.ofNat x.toNat).toNat = x.toNat := by
        have hlt : x.toNat < 0xD800 := x.toNat_lt.trans (by decide)
        rw [Char.ofNat, dif_pos (.inl hlt)]
        rfl
      omega

/-- A percent sign without two digits stands for itself. -/
theorem decode_percent (h : ¬ StartsHex cs) :
    decode (octets ('%' :: cs)) = 0x25 :: decode (octets cs) := by
  rw [octets_percent]
  cases hcs : octets cs with
  | nil => rfl
  | cons x xs =>
    cases xs with
    | nil => exact decode.eq_3 _ _ fun _ _ _ _ hlong => by cases hlong
    | cons y ys =>
      rw [decode.eq_2]
      split
      · next hx hy =>
        -- Octets that are digits come from characters that are.
        obtain ⟨more, hmore, hrest⟩ := isHex_of_octet hcs (by rw [IsHex, hx]; rfl)
        obtain ⟨after, hafter, -⟩ := isHex_of_octet hrest (by rw [IsHex, hy]; rfl)
        refine absurd ⟨_, _, after, hmore.trans (by rw [hafter]), ?_, ?_⟩ h
        · rw [IsHex, hx]; rfl
        · rw [IsHex, hy]; rfl
      · rfl

/-- A text is read from left to right, by what stands at its beginning. -/
theorem decode_induction {motive : List Char → Prop} (nil : motive [])
    (character : ∀ c cs, c ≠ '%' → motive cs → motive (c :: cs))
    (escaped : ∀ a b cs, IsHex a → IsHex b → motive cs → motive ('%' :: a :: b :: cs))
    (percent : ∀ cs, ¬ StartsHex cs → motive cs → motive ('%' :: cs)) (cs : List Char) :
    motive cs := by
  -- An escape takes three characters at once, so the induction is on the length.
  induction hn : cs.length using Nat.strong_induction_on generalizing cs with
  | _ n ih =>
    cases cs with
    | nil => exact nil
    | cons c rest =>
      rw [List.length_cons] at hn
      have hrest := ih rest.length (by omega) rest rfl
      by_cases hc : c = '%'
      · subst hc
        by_cases hhex : StartsHex rest
        · obtain ⟨a, b, more, rfl, ha, hb⟩ := hhex
          rw [List.length_cons, List.length_cons] at hn
          exact escaped a b more ha hb (ih more.length (by omega) more rfl)
        · exact percent rest hhex hrest
      · exact character c rest hc hrest

/-! ## Escapes -/

/-- Reading makes no text longer, and one with an escape shorter. -/
theorem length_decode_le (cs : List Char) :
    (decode (octets cs)).length ≤ (octets cs).length ∧
      ((decode (octets cs)).length = (octets cs).length → Unescaped cs) := by
  induction cs using decode_induction with
  | nil => exact ⟨le_rfl, fun _ before a b after h => by simp at h⟩
  | character c cs hc ih =>
    rw [decode_character hc, octets_cons, List.length_append, List.length_append]
    refine ⟨by omega, fun heq before a b after hsplit => ?_⟩
    cases before with
    | nil => exact absurd (List.cons.inj hsplit).1 hc
    | cons d others => exact ih.2 (by omega) others a b after (List.cons.inj hsplit).2
  | escaped a b cs ha hb ih =>
    obtain ⟨high, hhigh⟩ := Option.isSome_iff_exists.1 ha
    obtain ⟨low, hlow⟩ := Option.isSome_iff_exists.1 hb
    have hlength : (octets ('%' :: a :: b :: cs)).length = 3 + (octets cs).length := by
      rw [octets_percent, octets_cons, octets_cons, octets_of_ascii (toNat_lt_of_isHex ha),
        octets_of_ascii (toNat_lt_of_isHex hb)]
      simp only [List.singleton_append, List.length_cons]
      omega
    rw [decode_escaped hhigh hlow, List.length_cons, hlength]
    exact ⟨by omega, fun heq => by omega⟩
  | percent cs hcs ih =>
    rw [decode_percent hcs, octets_percent, List.length_cons, List.length_cons]
    refine ⟨by omega, fun heq before a b after hsplit => ?_⟩
    cases before with
    | nil =>
      rintro ⟨ha, hb⟩
      exact hcs ⟨a, b, after, (List.cons.inj hsplit).2, ha, hb⟩
    | cons d others => exact ih.2 (by omega) others a b after (List.cons.inj hsplit).2

/-- A text without escapes is read as itself. -/
theorem decode_unescaped (h : Unescaped cs) : decode (octets cs) = octets cs := by
  have hrest {c : Char} {cs : List Char} (hall : Unescaped (c :: cs)) : Unescaped cs :=
    fun before a b after hsplit => hall (c :: before) a b after (by rw [hsplit, List.cons_append])
  induction cs using decode_induction with
  | nil => rfl
  | character c cs hc ih => rw [decode_character hc, octets_cons, ih (hrest h)]
  | escaped a b cs ha hb ih => exact absurd ⟨ha, hb⟩ (h [] a b cs rfl)
  | percent cs hcs ih => rw [decode_percent hcs, octets_percent, ih (hrest h)]

theorem unescaped_of_not_mem (h : '%' ∉ cs) : Unescaped cs := by
  rintro before a b after rfl
  exact absurd (by simp) h

/-- What is written for an octet is read as that octet. -/
theorem decode_escape (b : UInt8) (cs : List Char) :
    decode (octets (escape b ++ cs)) = b :: decode (octets cs) := by
  have hb := b.toNat_lt
  have hhigh := Digit.hex?_hexUpper (b.toNat / 16) (by omega)
  have hlow := Digit.hex?_hexUpper (b.toNat % 16) (by omega)
  have hvalue : b.toNat / 16 * 16 + b.toNat % 16 = b.toNat := by omega
  change decode (octets ('%' :: _ :: _ :: cs)) = _
  rw [decode_escaped hhigh hlow, hvalue, UInt8.ofNat_toNat]

theorem decode_escapes (bytes : List UInt8) (cs : List Char) :
    decode (octets (bytes.flatMap escape ++ cs)) = bytes ++ decode (octets cs) := by
  induction bytes with
  | nil => rfl
  | cons b others ih =>
    rw [List.flatMap_cons, List.append_assoc, decode_escape, ih, List.cons_append]

/-- A character behind a text is read as itself if it cannot end an escape. -/
theorem decode_append_character (h : c ≠ '%') (hhex : ¬ IsHex c) (cs : List Char) :
    decode (octets (cs ++ [c])) = decode (octets cs) ++ String.utf8EncodeChar c := by
  induction cs using decode_induction with
  | nil =>
    rw [List.nil_append, decode_character h]
    exact List.append_nil _
  | character d cs hd ih =>
    rw [List.cons_append, decode_character hd, decode_character hd, ih, List.append_assoc]
  | escaped a b cs ha hb ih =>
    obtain ⟨high, hhigh⟩ := Option.isSome_iff_exists.1 ha
    obtain ⟨low, hlow⟩ := Option.isSome_iff_exists.1 hb
    rw [List.cons_append, List.cons_append, List.cons_append, decode_escaped hhigh hlow,
      decode_escaped hhigh hlow, ih, List.cons_append]
  | percent cs hcs ih =>
    have hmore : ¬ StartsHex (cs ++ [c]) := by
      rintro ⟨a, b, rest, hsplit, ha, hb⟩
      cases cs with
      | nil => simp at hsplit
      | cons d others =>
        cases others with
        | nil =>
          obtain ⟨-, rfl, -⟩ : d = a ∧ c = b ∧ rest = [] := by simpa using hsplit
          exact hhex hb
        | cons e more =>
          obtain ⟨rfl, rfl, -⟩ : d = a ∧ e = b ∧ more ++ [c] = rest := by simpa using hsplit
          exact hcs ⟨d, e, more, rfl, ha, hb⟩
    rw [List.cons_append, decode_percent hmore, decode_percent hcs, ih, List.cons_append]

/-! ## Escaping -/

/-- Percent signs and digits are left as they are. -/
structure SparesEscapes (escaped : Char → Bool) : Prop where
  percent : escaped '%' = false
  digit : ∀ c, IsHex c → escaped c = false

theorem inPath_sparesEscapes : SparesEscapes inPath where
  percent := by decide
  digit _ hc := forall_isHex (P := fun c => inPath c = false) (by decide) hc

variable {escaped : Char → Bool}

theorem encode_cons (c : Char) (cs : List Char) :
    encode escaped (c :: cs) = encodeChar escaped c ++ encode escaped cs := List.flatMap_cons

theorem encodeChar_of_isHex (h : SparesEscapes escaped) (hc : IsHex c) :
    encodeChar escaped c = [c] := by
  simp [encodeChar, toNat_lt_of_isHex hc, h.digit c hc]

/-- A character is written as itself or as escapes. -/
theorem encodeChar_cases (escaped : Char → Bool) (c : Char) :
    encodeChar escaped c = [c] ∨
      encodeChar escaped c = (String.utf8EncodeChar c).flatMap escape := by
  unfold encodeChar
  split
  · exact .inl rfl
  · exact .inr rfl

/-- The first character of what is written is a digit only if it was one before. -/
theorem exists_of_encode_eq_cons {a : Char} (h : encode escaped cs = a :: rest) (ha : IsHex a) :
    ∃ more, cs = a :: more ∧ encode escaped more = rest := by
  cases cs with
  | nil => cases h
  | cons c more =>
    rw [encode_cons] at h
    rcases encodeChar_cases escaped c with hc | hc
    · rw [hc, List.singleton_append, List.cons.injEq] at h
      exact ⟨more, by rw [h.1], h.2⟩
    · rw [hc] at h
      cases hoctets : String.utf8EncodeChar c with
      | nil => exact absurd hoctets String.utf8EncodeChar_ne_nil
      | cons b others =>
        rw [hoctets, List.flatMap_cons, escape, List.cons_append, List.cons_append] at h
        rw [← (List.cons.inj h).1] at ha
        exact absurd ha (by decide)

theorem startsHex_of_encode (h : StartsHex (encode escaped cs)) : StartsHex cs := by
  obtain ⟨a, b, rest, hcs, ha, hb⟩ := h
  obtain ⟨more, rfl, hmore⟩ := exists_of_encode_eq_cons hcs ha
  obtain ⟨after, rfl, -⟩ := exists_of_encode_eq_cons hmore hb
  exact ⟨a, b, after, rfl, ha, hb⟩

/-- Escaping does not change what a text is read as. -/
theorem decode_encode (h : SparesEscapes escaped) (cs : List Char) :
    decode (octets (encode escaped cs)) = decode (octets cs) := by
  have hpercent : encodeChar escaped '%' = ['%'] := by simp [encodeChar, h.percent]
  induction cs using decode_induction with
  | nil => rfl
  | character c cs hc ih =>
    rw [encode_cons, decode_character hc]
    rcases encodeChar_cases escaped c with hplain | hescapes
    · rw [hplain, List.singleton_append, decode_character hc, ih]
    · rw [hescapes, decode_escapes, ih]
  | escaped a b cs ha hb ih =>
    obtain ⟨high, hhigh⟩ := Option.isSome_iff_exists.1 ha
    obtain ⟨low, hlow⟩ := Option.isSome_iff_exists.1 hb
    rw [encode_cons, encode_cons, encode_cons, hpercent, encodeChar_of_isHex h ha,
      encodeChar_of_isHex h hb, List.singleton_append, List.singleton_append, List.singleton_append,
      decode_escaped hhigh hlow, decode_escaped hhigh hlow, ih]
  | percent cs hcs ih =>
    rw [encode_cons, hpercent, List.singleton_append, decode_percent hcs,
      decode_percent fun hhex => hcs (startsHex_of_encode hhex), ih]

end Concierge.Percent
