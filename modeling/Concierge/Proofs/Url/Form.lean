import Concierge.Proofs.Url.Percent
import Concierge.Url.Form

/-!
# Forms are read back

The pairs that were written into a form are read from it, in order and nothing else, whatever characters
their names and values hold: what is written for an octet is read as that octet, and it never holds one
of the characters that join names, values and pairs.
-/

namespace Concierge.Form

open Utf8 Percent

/-! ## Octets -/

/-- Plus signs stand for blanks. -/
def unplus (c : Char) : Char := if c = '+' then ' ' else c

/-- An octet that stands for itself is a character of ASCII with no other meaning. -/
theorem plain_character : ∀ n < 256, isPlain (UInt8.ofNat n) = true →
    (Char.ofNat n).toNat = n ∧ n < 0x80 ∧ Char.ofNat n ≠ '+' ∧ Char.ofNat n ≠ '%' := by
  decide +kernel

/-- What is written for an octet holds no character that joins names, values and pairs. -/
theorem ne_joint_of_mem_encodeOctet {b : UInt8} {c : Char} (h : c ∈ encodeOctet b) :
    c ≠ '=' ∧ c ≠ '&' := by
  -- The check of all octets is one of `Bool`, so as to evaluate nothing but the characters.
  have hall : ((List.range 256).all fun n =>
      (encodeOctet (UInt8.ofNat n)).all fun c => c != '=' && c != '&') = true := by
    decide +kernel
  have hb := List.all_eq_true.1 hall b.toNat (List.mem_range.2 b.toNat_lt)
  rw [UInt8.ofNat_toNat] at hb
  simpa using List.all_eq_true.1 hb c h

/-- Escapes hold no plus sign. -/
theorem unplus_escape : ∀ n < 256, (escape (UInt8.ofNat n)).map unplus = escape (UInt8.ofNat n) := by
  decide +kernel

/-- What is written for an octet is read as that octet. -/
theorem decode_encodeOctet (b : UInt8) (cs : List Char) :
    Percent.decode (octets ((encodeOctet b).map unplus ++ cs)) = b :: Percent.decode (octets cs) := by
  have hb : UInt8.ofNat b.toNat = b := UInt8.ofNat_toNat
  unfold encodeOctet
  split
  · next hplain =>
    obtain ⟨hnumber, hascii, hplus, hpercent⟩ := plain_character b.toNat b.toNat_lt (by rwa [hb])
    have hone : String.utf8EncodeChar (Char.ofNat b.toNat) = [b] := by
      rw [octets_of_ascii (by omega), hnumber, hb]
    rw [List.map_singleton, unplus, if_neg hplus, List.singleton_append, decode_character hpercent,
      hone, List.singleton_append]
  · split
    · next hblank =>
      rw [hblank]
      exact decode_character (by decide) cs
    · have hunplus := unplus_escape b.toNat b.toNat_lt
      rw [hb] at hunplus
      rw [hunplus, decode_escape]

/-! ## Texts and pairs -/

/-- Names and values are read back. -/
theorem decodeText_encodeText (s : String) : decodeText (encodeText s) = s := by
  have hbytes (bytes : List UInt8) :
      Percent.decode (octets ((bytes.flatMap encodeOctet).map unplus)) = bytes := by
    induction bytes with
    | nil => rfl
    | cons b others ih => rw [List.flatMap_cons, List.map_append, decode_encodeOctet, ih]
  change decodeLossy (Percent.decode (Utf8.encode (String.ofList ((encodeText s).map unplus)))) = s
  rw [encode_ofList, encodeText, hbytes, decodeLossy_encode]

theorem ne_joint_of_mem_encodeText {s : String} {c : Char} (h : c ∈ encodeText s) :
    c ≠ '=' ∧ c ≠ '&' := by
  obtain ⟨b, -, hc⟩ := List.mem_flatMap.1 h
  exact ne_joint_of_mem_encodeOctet hc

/-- The first equals sign of a pair is the one between its name and its value. -/
theorem decodePair_encodePair (pair : String × String) : decodePair (encodePair pair) = pair := by
  have hname : ∀ c ∈ encodeText pair.1, (c != '=') = true := fun c hc =>
    bne_iff_ne.2 (ne_joint_of_mem_encodeText hc).1
  have htake : (encodePair pair).takeWhile (· != '=') = encodeText pair.1 := by
    rw [encodePair, List.takeWhile_append_of_pos hname]
    simp
  have hdrop : ((encodePair pair).dropWhile (· != '=')).drop 1 = encodeText pair.2 := by
    rw [encodePair, List.dropWhile_append_of_pos hname]
    simp
  rw [decodePair, htake, hdrop, decodeText_encodeText, decodeText_encodeText]

/-- The pairs of a form are read back. -/
theorem decode_encode (pairs : List (String × String)) : Form.decode (Form.encode pairs) = pairs := by
  cases pairs with
  | nil => rfl
  | cons first others =>
    have hjoint : ∀ cs ∈ (first :: others).map encodePair, '&' ∉ cs := by
      intro cs hcs hmem
      obtain ⟨pair, -, rfl⟩ := List.mem_map.1 hcs
      rcases List.mem_append.1 hmem with hname | hvalue
      · exact (ne_joint_of_mem_encodeText hname).2 rfl
      · rcases List.mem_cons.1 hvalue with heq | hvalue
        · exact absurd heq (by decide)
        · exact (ne_joint_of_mem_encodeText hvalue).2 rfl
    have hfilled : ∀ cs ∈ (first :: others).map encodePair, (! cs.isEmpty) = true := by
      intro cs hcs
      obtain ⟨pair, -, rfl⟩ := List.mem_map.1 hcs
      simp [encodePair]
    rw [Form.decode, Form.encode, List.splitOn_intercalate '&' hjoint (by simp),
      List.filter_eq_self.2 hfilled, List.map_map]
    exact List.map_id'' decodePair_encodePair _

end Concierge.Form
