import Concierge.Json.Printer
import Concierge.Proofs.Json.Records
import Concierge.Proofs.Text.Utf8
import Mathlib.Data.List.DropRight
import Mathlib.Tactic.SplitIfs

/-!
# Printed values are read back

A value may be spelled in many ways, since white space may stand around every token.  However it is
spelled, it is read as the tree of that value, whatever follows that does not carry on a number.
The compact and the indented text are two spellings, for values whose numbers are integers of at
most 64 bits: any other number keeps its spelling in print, and its tree does not tell what it was.
-/

namespace Concierge.Json

open Utf8 (octets octets_append octets_cons octets_of_ascii)

/-! ## Numbers -/

/-- Octets that do not carry on a number. -/
def EndsNumber (rest : List UInt8) : Prop :=
  ∀ b ∈ rest.head?, isDigit b = false ∧ b ≠ 0x2E ∧ b ≠ 0x65 ∧ b ≠ 0x45

theorem endsNumber_nil : EndsNumber [] := fun _ h => nomatch h

theorem endsNumber_comma (rest : List UInt8) : EndsNumber (octet ',' :: rest) := by
  rintro b ⟨rfl⟩
  decide

theorem endsNumber_bracket (rest : List UInt8) : EndsNumber (octet ']' :: rest) := by
  rintro b ⟨rfl⟩
  decide

theorem endsNumber_brace (rest : List UInt8) : EndsNumber (octet '\x7d' :: rest) := by
  rintro b ⟨rfl⟩
  decide

theorem range_of_mem_toDigits {n : Nat} {c : Char} (h : c ∈ Nat.toDigits 10 n) :
    '0' ≤ c ∧ c ≤ '9' := by
  simpa [Char.isDigit, Char.le_def] using Nat.isDigit_of_mem_toDigits (by decide) (by decide) h

/-- The octets of a number's digits. -/
def digitOctets (n : Nat) : List UInt8 := (Nat.toDigits 10 n).map octet

theorem octet_of_isDigit {c : Char} (h : c.isDigit = true) :
    isDigit (octet c) = true ∧ digitValue (octet c) = c.toNat - '0'.toNat ∧
      String.utf8EncodeChar c = [octet c] := by
  have hrange : '0'.toNat ≤ c.toNat ∧ c.toNat ≤ '9'.toNat := by
    simpa [Char.isDigit, UInt32.le_iff_toNat_le] using h
  have htoNat : (octet c).toNat = c.toNat := Utf8.toNat_octet (by
    have : '9'.toNat = 57 := rfl
    omega)
  refine ⟨?_, ?_, octets_of_ascii (Nat.lt_of_le_of_lt hrange.2 (by decide))⟩
  · simpa [isDigit, UInt8.le_iff_toNat_le, htoNat] using hrange
  · rw [digitValue, htoNat]
    rfl

theorem isDigit_of_mem_digitOctets {n : Nat} {b : UInt8} (h : b ∈ digitOctets n) :
    isDigit b = true := by
  obtain ⟨c, hc, rfl⟩ := List.mem_map.1 h
  exact (octet_of_isDigit (Nat.isDigit_of_mem_toDigits (by decide) (by decide) hc)).1

theorem exists_digitOctets (n : Nat) : ∃ b ds, digitOctets n = b :: ds ∧ isDigit b = true := by
  cases hdigits : digitOctets n with
  | nil => simp [digitOctets, Nat.toDigits_ne_nil] at hdigits
  | cons b ds =>
    exact ⟨b, ds, rfl, isDigit_of_mem_digitOctets (hdigits ▸ List.mem_cons_self)⟩

theorem octets_toDigits (n : Nat) : octets (Nat.toDigits 10 n) = digitOctets n := by
  have hall (cs : List Char) (hcs : ∀ c ∈ cs, c.isDigit = true) : octets cs = cs.map octet := by
    induction cs with
    | nil => rfl
    | cons c rest ih =>
      rw [octets_cons, (octet_of_isDigit (hcs c List.mem_cons_self)).2.2,
        ih fun d hd => hcs d (List.mem_cons_of_mem c hd)]
      rfl
  exact hall _ fun c hc => Nat.isDigit_of_mem_toDigits (by decide) (by decide) hc

/-- The digits of a number spell it. -/
theorem value_toDigits (n : Nat) :
    Digit.value 10 ((Nat.toDigits 10 n).map fun c => c.toNat - '0'.toNat) = n := by
  have hspelled := Nat.ofDigitChars_ten_toDigits (n := n)
  rw [Nat.ofDigitChars_eq_foldl] at hspelled
  rw [Digit.value, List.foldl_map]
  simpa only [Nat.mul_comm] using hspelled

theorem natOf_toString (n : Nat) : Digit.natOf (toString n).toList = n := by
  have hdigits : (Nat.toDigits 10 n).map (fun c => (Digit.decimal? c).getD 0) =
      (Nat.toDigits 10 n).map fun c => c.toNat - '0'.toNat :=
    List.map_congr_left fun c hc => by simp [Digit.decimal?, range_of_mem_toDigits hc]
  rw [Digit.natOf, Nat.toString_eq_repr, Nat.toList_repr, hdigits, value_toDigits]

theorem value_digitOctets (n : Nat) : Digit.value 10 ((digitOctets n).map digitValue) = n := by
  have hvalues : (digitOctets n).map digitValue =
      (Nat.toDigits 10 n).map fun c => c.toNat - '0'.toNat := by
    rw [digitOctets, List.map_map]
    exact List.map_congr_left fun c hc =>
      (octet_of_isDigit (Nat.isDigit_of_mem_toDigits (by decide) (by decide) hc)).2.1
  rw [hvalues, value_toDigits]

/-- Only zero starts with a zero. -/
theorem head_digitOctets {n : Nat} (h : 0 < n) :
    ∃ b rest, digitOctets n = b :: rest ∧ b ≠ 0x30 := by
  induction n using Nat.strongRecOn with
  | ind n ih =>
    rw [digitOctets, Nat.toDigits_eq_if (by decide)]
    split
    · next hsmall =>
      have hfirst : ∀ d < 10, 0 < d → octet (Nat.digitChar d) ≠ 0x30 := by decide
      exact ⟨_, [], rfl, hfirst n hsmall h⟩
    · next hlarge =>
      obtain ⟨b, rest, hdigits, hb⟩ := ih (n / 10) (by omega) (by omega)
      refine ⟨b, rest ++ [octet (n % 10).digitChar], ?_, hb⟩
      rw [List.map_append, ← digitOctets, hdigits]
      rfl

variable {rest : List UInt8}

theorem digits?_append {ds : List UInt8} (hds : ∀ b ∈ ds, isDigit b = true) (hne : ds ≠ [])
    (hrest : EndsNumber rest) : digits? (ds ++ rest) = some (ds, rest) := by
  have hnone : rest.takeWhile isDigit = [] ∧ rest.dropWhile isDigit = rest := by
    cases rest with
    | nil => exact ⟨rfl, rfl⟩
    | cons b rest =>
      have hb := (hrest b rfl).1
      simp [hb]
  rw [digits?, List.takeWhile_append_of_pos hds, List.dropWhile_append_of_pos hds, hnone.1, hnone.2,
    List.append_nil]
  cases ds with
  | nil => exact absurd rfl hne
  | cons d ds => rfl

theorem whole?_digitOctets (n : Nat) (hrest : EndsNumber rest) :
    whole? (digitOctets n ++ rest) = some (digitOctets n, rest) := by
  cases n with
  | zero =>
    change whole? (0x30 :: rest) = some ([0x30], rest)
    cases rest with
    | nil => rfl
    | cons b rest => simp [whole?, (hrest b rfl).1]
  | succ n =>
    obtain ⟨b, ds, hdigits, hb⟩ := head_digitOctets (Nat.succ_pos n)
    have hdigits? : digits? (digitOctets (n + 1) ++ rest) = some (digitOctets (n + 1), rest) :=
      digits?_append (fun _ => isDigit_of_mem_digitOctets) (by rw [hdigits]; simp) hrest
    rw [hdigits] at hdigits? ⊢
    rw [List.cons_append] at hdigits? ⊢
    unfold whole?
    split
    · next heq => exact absurd (List.cons.inj heq).1 hb
    · next heq => exact absurd (List.cons.inj heq).1 hb
    · exact hdigits?

/-- A number's digits are read up to what does not carry it on. -/
theorem number?_digitOctets (n : Nat) (hrest : EndsNumber rest) :
    number? (digitOctets n ++ rest) = some (⟨false, digitOctets n, none, none⟩, rest) ∧
      number? (0x2D :: (digitOctets n ++ rest)) = some (⟨true, digitOctets n, none, none⟩, rest) := by
  have hfraction : fraction? rest = some (none, rest) := by
    unfold fraction?
    split
    · next b rest' => exact absurd rfl (hrest 0x2E rfl).2.1
    · rfl
  have hexponent : exponent? rest = some (none, rest) := by
    cases rest with
    | nil => rfl
    | cons b rest =>
      obtain ⟨-, -, he, hE⟩ := hrest b rfl
      simp [exponent?, he, hE]
  have hwhole := whole?_digitOctets n hrest
  constructor
  · obtain ⟨b, ds, hdigits, hb⟩ := exists_digitOctets n
    have hminus : b ≠ 0x2D := by
      rintro rfl
      cases hb
    rw [hdigits, List.cons_append] at hwhole ⊢
    simp [number?, hminus, hwhole, hfraction, hexponent]
  · simp [number?, hwhole, hfraction, hexponent]

theorem octets_ofNat (n : Nat) : octets (toString (Int.ofNat n)).toList = digitOctets n := by
  change octets (Nat.repr n).toList = _
  rw [Nat.toList_repr, octets_toDigits]

theorem octets_negSucc (n : Nat) :
    octets (toString (Int.negSucc n)).toList = 0x2D :: digitOctets (n + 1) := by
  change octets ("-" ++ Nat.repr (n + 1)).toList = _
  rw [String.toList_append, Nat.toList_repr, octets_append, octets_toDigits]
  rfl

/-- The literal of an integer, and what is left behind it. -/
theorem number?_int (i : Int) (hrest : EndsNumber rest) :
    number? (octets (toString i).toList ++ rest) =
      some (⟨decide (i < 0), digitOctets i.natAbs, none, none⟩, rest) := by
  cases i with
  | ofNat n =>
    rw [octets_ofNat]
    exact (number?_digitOctets n hrest).1
  | negSucc n =>
    rw [octets_negSucc, decide_eq_true (Int.negSucc_lt_zero n)]
    exact (number?_digitOctets (n + 1) hrest).2

theorem tree_int {i : Int} (h : fitsWord i = true) :
    NumberLiteral.tree ⟨decide (i < 0), digitOctets i.natAbs, none, none⟩ = .int i := by
  have hvalue : (if decide (i < 0) = true then -(i.natAbs : Int) else i.natAbs) = i := by
    split_ifs with hneg <;> simp at hneg <;> omega
  have hzero : ¬ (decide (i < 0) = true ∧ i.natAbs = 0) := by
    simp
    omega
  simp only [NumberLiteral.tree, value_digitOctets, hvalue, h, hzero, not_false_eq_true, and_self,
    if_true]

/-! ## Text literals -/

theorem pieces?_plain {b : UInt8} (hcontrol : 0x20 ≤ b.toNat) (hquote : b ≠ 0x22)
    (hescape : b ≠ 0x5C) (read : List Piece) :
    pieces? read (b :: rest) = pieces? (.octet b :: read) rest := by
  have hlow : ¬ b < 0x20 := by
    rw [UInt8.lt_iff_toNat_lt]
    exact Nat.not_lt.2 hcontrol
  rw [pieces?]
  · simp only [hlow, if_false]
  · exact hquote
  · intro _ _ _ _ _ h
    exact absurd h hescape
  · intro _ _ h
    exact absurd h hescape

theorem joinPieces?_octets (bs : List UInt8) (later : List Piece) (bytes : List UInt8) :
    joinPieces? (bs.map .octet ++ later) bytes = joinPieces? later (bs.reverse ++ bytes) := by
  induction bs generalizing bytes with
  | nil => rfl
  | cons b bs ih =>
    rw [List.map_cons, List.cons_append, joinPieces?, ih, List.reverse_cons, List.append_assoc]
    rfl

/-- Pieces that are read where characters are printed, and that join to their octets. -/
structure Denotes (printed : List UInt8) (ps : List Piece) (bytes : List UInt8) : Prop where
  read : ∀ before rest, pieces? before (printed ++ rest) = pieces? (ps.reverse ++ before) rest
  join : ∀ later before, joinPieces? (ps ++ later) before = joinPieces? later (bytes.reverse ++ before)

theorem Denotes.append {printed printed' bytes bytes' : List UInt8} {ps ps' : List Piece}
    (h : Denotes printed ps bytes) (h' : Denotes printed' ps' bytes') :
    Denotes (printed ++ printed') (ps ++ ps') (bytes ++ bytes') where
  read before rest := by
    rw [List.append_assoc, h.read, h'.read, List.reverse_append, List.append_assoc]
  join later before := by
    rw [List.append_assoc, h.join, h'.join, List.reverse_append, List.append_assoc]

theorem denotes_plain {bs : List UInt8}
    (h : ∀ b ∈ bs, 0x20 ≤ b.toNat ∧ b ≠ 0x22 ∧ b ≠ 0x5C) : Denotes bs (bs.map .octet) bs where
  read before rest := by
    induction bs generalizing before with
    | nil => rfl
    | cons b bs ih =>
      obtain ⟨hcontrol, hquote, hescape⟩ := h b List.mem_cons_self
      rw [List.cons_append, pieces?_plain hcontrol hquote hescape,
        ih fun d hd => h d (List.mem_cons_of_mem b hd)]
      simp
  join later before := joinPieces?_octets bs later before

/-- An escaped character is read back. -/
theorem denotes_escaped (letter b : UInt8) (hsimple : simpleEscape? letter = some b)
    (hletter : letter ≠ 0x75) : Denotes [0x5C, letter] [.octet b] [b] where
  read before rest := by
    change pieces? before (0x5C :: letter :: rest) = _
    rw [pieces?]
    · rw [hsimple]
      rfl
    · intro _ _ _ _ _ h
      exact absurd h hletter
  join later before := rfl

/-- A control character is read back from its number. -/
theorem denotes_control {c : Char} (h : c.toNat < 0x20) :
    Denotes (octets ['\\', 'u', '0', '0', Digit.hexLower (c.toNat / 16), Digit.hexLower (c.toNat % 16)])
      [.unit c.toNat] (String.utf8EncodeChar c) := by
  have hoctets : ∀ n < 0x20,
      octets ['\\', 'u', '0', '0', Digit.hexLower (n / 16), Digit.hexLower (n % 16)] =
        [0x5C, 0x75, 0x30, 0x30, octet (Digit.hexLower (n / 16)), octet (Digit.hexLower (n % 16))] := by
    decide
  have hunit : ∀ n < 0x20, hexUnit? 0x30 0x30 (octet (Digit.hexLower (n / 16)))
      (octet (Digit.hexLower (n % 16))) = some n := by decide
  rw [hoctets _ h]
  refine ⟨fun before rest => ?_, fun later before => ?_⟩
  · change pieces? before (0x5C :: 0x75 :: 0x30 :: 0x30 :: _ :: _ :: rest) = _
    rw [pieces?, hunit _ h]
    rfl
  · have hhigh : ¬ (0xD800 ≤ c.toNat ∧ c.toNat < 0xDC00) := by omega
    have hlow : ¬ (0xDC00 ≤ c.toNat ∧ c.toNat < 0xE000) := by omega
    change joinPieces? (.unit c.toNat :: later) before = _
    rw [joinPieces?.eq_def]
    simp only [hhigh, hlow, if_false, Char.ofNat_toNat]

/-- The pieces of a printed character join to it. -/
theorem exists_denotes (c : Char) :
    ∃ ps, Denotes (octets (escapeChar c)) ps (String.utf8EncodeChar c) := by
  unfold escapeChar
  split_ifs with h1 h2 h3 h4 h5 h6 h7 h8
  · subst h1; exact ⟨_, denotes_escaped 0x22 0x22 rfl (by decide)⟩
  · subst h2; exact ⟨_, denotes_escaped 0x5C 0x5C rfl (by decide)⟩
  · subst h3; exact ⟨_, denotes_escaped 0x6E 0x0A rfl (by decide)⟩
  · subst h4; exact ⟨_, denotes_escaped 0x72 0x0D rfl (by decide)⟩
  · subst h5; exact ⟨_, denotes_escaped 0x74 0x09 rfl (by decide)⟩
  · subst h6; exact ⟨_, denotes_escaped 0x62 0x08 rfl (by decide)⟩
  · subst h7; exact ⟨_, denotes_escaped 0x66 0x0C rfl (by decide)⟩
  · exact ⟨_, denotes_control h8⟩
  · rw [octets_cons, Utf8.octets_nil, List.append_nil]
    refine ⟨_, denotes_plain fun b hb => ?_⟩
    by_cases hascii : c.toNat < 0x80
    · rw [octets_of_ascii hascii, List.mem_singleton] at hb
      have hne {d : Char} (hd : c ≠ d) : c.toNat ≠ d.toNat := fun h => hd (Char.toNat_inj.1 h)
      subst hb
      rw [Ne, Ne, ← UInt8.toNat_inj, ← UInt8.toNat_inj, Utf8.toNat_octet (by omega)]
      exact ⟨Nat.not_lt.1 h8, hne h1, hne h2⟩
    · have hhigh := Utf8.le_of_mem_octets (Nat.not_lt.1 hascii) hb
      rw [Ne, Ne, ← UInt8.toNat_inj, ← UInt8.toNat_inj]
      refine ⟨by omega, ?_, ?_⟩ <;> rintro h <;> rw [h] at hhigh <;> exact absurd hhigh (by decide)

/-- A printed text is read back. -/
theorem literal?_quoted (s : String) (rest : List UInt8) :
    ∃ bytes, octets (quoted s) = octet '"' :: bytes ∧
      literal? (bytes ++ rest) = some (some s, rest) := by
  have hdenotes (cs : List Char) : ∃ ps, Denotes (octets (cs.flatMap escapeChar)) ps (octets cs) := by
    induction cs with
    | nil => exact ⟨[], fun _ _ => rfl, fun _ _ => rfl⟩
    | cons c cs ih =>
      obtain ⟨ps, hps⟩ := exists_denotes c
      obtain ⟨qs, hqs⟩ := ih
      rw [List.flatMap_cons, octets_append, octets_cons]
      exact ⟨ps ++ qs, hps.append hqs⟩
  obtain ⟨ps, hread, hjoin⟩ := hdenotes s.toList
  refine ⟨octets (s.toList.flatMap escapeChar) ++ [octet '"'], ?_, ?_⟩
  · rw [quoted, List.cons_append, octets_cons, octets_append]
    rfl
  · have hpieces : pieces? [] (octets (s.toList.flatMap escapeChar) ++ octet '"' :: rest) =
        some (ps.reverse, rest) := by
      rw [hread, List.append_nil]
      rfl
    have hbytes : joinPieces? ps [] = some (octets s.toList) := by
      have := hjoin [] []
      rw [List.append_nil, List.append_nil] at this
      rw [this, joinPieces?, List.reverse_reverse]
    rw [literal?, List.append_assoc, List.singleton_append, hpieces]
    simp only [Option.map_some, List.reverse_reverse, hbytes, Option.bind_some, Utf8.decode?_octets,
      String.ofList_toList]

/-! ## Spellings -/

/-- A printed integer starts with its sign or with a digit. -/
theorem exists_int (i : Int) : ∃ b bs, octets (toString i).toList = b :: bs ∧
    (b = octet '-' ∨ isDigit b = true) := by
  cases i with
  | ofNat n =>
    obtain ⟨b, ds, hdigits, hb⟩ := exists_digitOctets n
    exact ⟨b, ds, (octets_ofNat n).trans hdigits, .inr hb⟩
  | negSucc n => exact ⟨_, _, octets_negSucc n, .inl rfl⟩

theorem ne_of_isDigit {b c : UInt8} (hb : isDigit b = true) (hc : isDigit c = false) : b ≠ c := by
  rintro rfl
  exact Bool.noConfusion (hb.symm.trans hc)

theorem isGap_of_isDigit {b : UInt8} (hb : isDigit b = true) : isGap b = false := by
  have hne (c : UInt8) (hc : isDigit c = false) : (b == c) = false :=
    beq_false_of_ne (ne_of_isDigit hb hc)
  rw [isGap, hne 0x20 (by decide), hne 0x0A (by decide), hne 0x0D (by decide), hne 0x09 (by decide)]
  rfl

theorem skipGap_cons {b : UInt8} (h : isGap b = false) : skipGap (b :: rest) = b :: rest :=
  List.dropWhile_cons_of_neg (by simp [h])

/-- White space between tokens. -/
def Gap (bytes : List UInt8) : Prop := ∀ b ∈ bytes, isGap b = true

theorem gap_nil : Gap [] := fun _ h => nomatch h

theorem skipGap_append {gap : List UInt8} (h : Gap gap) : skipGap (gap ++ rest) = skipGap rest :=
  List.dropWhile_append_of_pos h

theorem EndsNumber.after {gap : List UInt8} (hrest : EndsNumber rest) (h : Gap gap) :
    EndsNumber (gap ++ rest) := by
  cases gap with
  | nil => exact hrest
  | cons b gap =>
    rintro b ⟨rfl⟩
    have hb := h b List.mem_cons_self
    simp only [isGap, Bool.or_eq_true, beq_iff_eq] at hb
    obtain ((rfl | rfl) | rfl) | rfl := hb <;> decide

mutual

/-- Octets that spell what a tree says, with white space inside but not around them. -/
inductive Spells : Tree → List UInt8 → Prop where
  | null : Spells .null (octets "null".toList)
  | yes : Spells (.bool true) (octets "true".toList)
  | no : Spells (.bool false) (octets "false".toList)
  | int {i : Int} (fits : fitsWord i = true) : Spells (.int i) (octets (toString i).toList)
  | string (s : String) : Spells (.string (some s)) (octets (quoted s))
  | nothing : Spells (.array []) [octet '[', octet ']']
  | array {ts : List Tree} {bytes : List UInt8} (items : SpellsItems ts bytes) :
    Spells (.array ts) (octet '[' :: (bytes ++ [octet ']']))
  | blank : Spells (.object []) [octet '\x7b', octet '\x7d']
  | object {ms : List (Option String × Tree)} {bytes : List UInt8} (members : SpellsMembers ms bytes) :
    Spells (.object ms) (octet '\x7b' :: (bytes ++ [octet '\x7d']))

/-- Octets that spell the items of an array, with commas between them. -/
inductive SpellsItems : List Tree → List UInt8 → Prop where
  | last {t : Tree} {before bytes after : List UInt8} (gap : Gap before) (item : Spells t bytes)
    (gap' : Gap after) : SpellsItems [t] (before ++ (bytes ++ after))
  | more {t : Tree} {before bytes after later : List UInt8} {ts : List Tree} (gap : Gap before)
    (item : Spells t bytes) (gap' : Gap after) (others : SpellsItems ts later) :
    SpellsItems (t :: ts) (before ++ (bytes ++ (after ++ octet ',' :: later)))

/-- Octets that spell the members of an object, with commas between them. -/
inductive SpellsMembers : List (Option String × Tree) → List UInt8 → Prop where
  | last {key : String} {t : Tree} {before between bytes after : List UInt8} (gap : Gap before)
    (gap' : Gap between) (value : Spells t bytes) (gap'' : Gap after) :
    SpellsMembers [(some key, t)]
      (before ++ (octets (quoted key) ++ octet ':' :: (between ++ (bytes ++ after))))
  | more {key : String} {t : Tree} {before between bytes after later : List UInt8}
    {ms : List (Option String × Tree)} (gap : Gap before) (gap' : Gap between)
    (value : Spells t bytes) (gap'' : Gap after) (others : SpellsMembers ms later) :
    SpellsMembers ((some key, t) :: ms)
      (before ++ (octets (quoted key) ++ octet ':' ::
        (between ++ (bytes ++ (after ++ octet ',' :: later)))))

end

/-- The first octet of a spelled value is neither white space nor the end of an array. -/
theorem Spells.head {t : Tree} {bytes : List UInt8} (h : Spells t bytes) :
    ∃ b bs, bytes = b :: bs ∧ isGap b = false ∧ b ≠ octet ']' := by
  cases h with
  | @int i fits =>
    obtain ⟨b, bs, hprinted, rfl | hb⟩ := exists_int i
    · exact ⟨_, _, hprinted, by decide, by decide⟩
    · exact ⟨b, bs, hprinted, isGap_of_isDigit hb, ne_of_isDigit hb (by decide)⟩
  | _ => exact ⟨_, _, rfl, by decide, by decide⟩

theorem SpellsItems.head {ts : List Tree} {bytes : List UInt8} (h : SpellsItems ts bytes)
    (rest : List UInt8) :
    ∃ b bs, skipGap (bytes ++ rest) = b :: bs ∧ b ≠ octet ']' := by
  cases h with
  | last gap item _ | more gap item _ _ =>
    obtain ⟨b, bs, rfl, hgap, hend⟩ := item.head
    rw [List.append_assoc, skipGap_append gap, List.append_assoc, List.cons_append,
      skipGap_cons hgap]
    exact ⟨_, _, rfl, hend⟩

/-- The key of a member is read up to its colon. -/
theorem literal?_key (key : String) (rest : List UInt8) :
    ∃ inner, octets (quoted key) ++ octet ':' :: rest = octet '"' :: inner ∧
      literal? inner = some (some key, octet ':' :: rest) := by
  obtain ⟨bytes, hquoted, hliteral⟩ := literal?_quoted key (octet ':' :: rest)
  exact ⟨bytes ++ octet ':' :: rest, by rw [hquoted, List.cons_append], hliteral⟩

theorem SpellsMembers.head {ms : List (Option String × Tree)} {bytes : List UInt8}
    (h : SpellsMembers ms bytes) (rest : List UInt8) :
    ∃ bs, skipGap (bytes ++ rest) = octet '"' :: bs := by
  cases h with
  | last gap gap' value gap'' | more gap gap' value gap'' others =>
    obtain ⟨inner, hkey, -⟩ := literal?_key _ _
    rw [List.append_assoc, skipGap_append gap, hkey, List.cons_append,
      skipGap_cons (show isGap (octet '"') = false from rfl)]
    exact ⟨_, rfl⟩

/-! ## Reading what is spelled -/

variable {fuel : Nat}

theorem skipGap_skipGap (bytes : List UInt8) : skipGap (skipGap bytes) = skipGap bytes :=
  List.dropWhile_idempotent isGap bytes

theorem value_skipGap (bytes : List UInt8) : value fuel (skipGap bytes) = value fuel bytes := by
  cases fuel with
  | zero => rfl
  | succ fuel => simp only [value, skipGap_skipGap]

theorem items_skipGap (read : List Tree) (bytes : List UInt8) :
    items fuel read (skipGap bytes) = items fuel read bytes := by
  cases fuel with
  | zero => rfl
  | succ fuel => simp only [items, value_skipGap]

theorem members_skipGap (read : List (Option String × Tree)) (bytes : List UInt8) :
    members fuel read (skipGap bytes) = members fuel read bytes := by
  cases fuel with
  | zero => rfl
  | succ fuel => simp only [members, skipGap_skipGap]

theorem value_number {b : UInt8} {bytes : List UInt8} (hb : b = octet '-' ∨ isDigit b = true)
    {n : NumberLiteral} (h : number? (b :: bytes) = some (n, rest)) :
    value (fuel + 1) (b :: bytes) = (n.tree, some rest) := by
  have hgap : isGap b = false := hb.elim (fun h => h ▸ rfl) isGap_of_isDigit
  have hne (c : UInt8) (hminus : octet '-' ≠ c) (hc : isDigit c = false) : b ≠ c :=
    hb.elim (fun h => h ▸ hminus) fun h => ne_of_isDigit h hc
  simp only [value, skipGap_cons hgap, hne (octet 'n') (by decide) (by decide),
    hne (octet 't') (by decide) (by decide), hne (octet 'f') (by decide) (by decide),
    hne (octet '"') (by decide) (by decide), hb, h, if_true, if_false]

theorem value_int {i : Int} (h : fitsWord i = true) (hrest : EndsNumber rest) :
    value (fuel + 1) (octets (toString i).toList ++ rest) = (.int i, some rest) := by
  have hnumber := number?_int i hrest
  obtain ⟨b, bs, hprinted, hb⟩ := exists_int i
  rw [hprinted, List.cons_append] at hnumber ⊢
  rw [value_number hb hnumber, tree_int h]

theorem value_string {bytes : List UInt8} {text : Option String}
    (h : literal? bytes = some (text, rest)) :
    value (fuel + 1) (octet '"' :: bytes) = (.string text, some rest) := by
  have hskip : skipGap (octet '"' :: bytes) = octet '"' :: bytes := skipGap_cons rfl
  rw [value, hskip]
  simp only [h]
  rfl

theorem value_array {b : UInt8} {bytes : List UInt8} (h : skipGap bytes = b :: rest)
    (hend : b ≠ octet ']') : value (fuel + 1) (octet '[' :: bytes) = items fuel [] bytes := by
  have hskip : skipGap (octet '[' :: bytes) = octet '[' :: bytes := skipGap_cons rfl
  rw [← items_skipGap, h, value, hskip]
  simp only [h, hend, if_false]
  rfl

theorem value_object {bytes : List UInt8} (h : skipGap bytes = octet '"' :: rest) :
    value (fuel + 1) (octet '\x7b' :: bytes) = members fuel [] bytes := by
  have hskip : skipGap (octet '\x7b' :: bytes) = octet '\x7b' :: bytes := skipGap_cons rfl
  rw [← members_skipGap, h, value, hskip]
  simp only [h]
  rfl

section Sequences

variable {bytes gap : List UInt8} {t : Tree}

theorem items_last {read : List Tree} (hgap : Gap gap)
    (h : value fuel bytes = (t, some (gap ++ octet ']' :: rest))) :
    items (fuel + 1) read bytes = (.array (t :: read).reverse, some rest) := by
  rw [items, h]
  simp only [skipGap_append hgap, skipGap_cons (show isGap (octet ']') = false from rfl), if_true]

theorem items_more {read : List Tree} (hgap : Gap gap)
    (h : value fuel bytes = (t, some (gap ++ octet ',' :: rest))) :
    items (fuel + 1) read bytes = items fuel (t :: read) rest := by
  have hcomma : octet ',' ≠ octet ']' := by decide
  rw [items, h]
  simp only [skipGap_append hgap, skipGap_cons (show isGap (octet ',') = false from rfl), hcomma,
    if_true, if_false]

variable {inner member : List UInt8} {key : Option String} {read : List (Option String × Tree)}

theorem members_last (hquote : skipGap bytes = octet '"' :: inner)
    (hkey : literal? inner = some (key, octet ':' :: member)) (hgap : Gap gap)
    (h : value fuel member = (t, some (gap ++ octet '\x7d' :: rest))) :
    members (fuel + 1) read bytes = (.object ((key, t) :: read).reverse, some rest) := by
  simp only [members, hquote, skipGap_cons (show isGap (octet ':') = false from rfl),
    skipGap_append hgap, skipGap_cons (show isGap (octet '\x7d') = false from rfl), ne_eq,
    not_true_eq_false, if_false, if_true, hkey, h]

theorem members_more (hquote : skipGap bytes = octet '"' :: inner)
    (hkey : literal? inner = some (key, octet ':' :: member)) (hgap : Gap gap)
    (h : value fuel member = (t, some (gap ++ octet ',' :: rest))) :
    members (fuel + 1) read bytes = members fuel ((key, t) :: read) rest := by
  have hcomma : octet ',' ≠ octet '\x7d' := by decide
  simp only [members, hquote, skipGap_cons (show isGap (octet ':') = false from rfl),
    skipGap_append hgap, skipGap_cons (show isGap (octet ',') = false from rfl), ne_eq,
    not_true_eq_false, if_false, if_true, hkey, h, hcomma]

end Sequences

/-- Spelled values are read as their trees by this much fuel, if it is more than their octets. -/
def ReadsValues (fuel : Nat) : Prop :=
  ∀ t bytes, Spells t bytes → ∀ gap rest, Gap gap → EndsNumber rest → bytes.length < fuel →
    value fuel (gap ++ (bytes ++ rest)) = (t, some rest)

/-- Spelled items are read up to the end of their array, behind those that were read before. -/
def ReadsItems (fuel : Nat) : Prop :=
  ∀ ts bytes, SpellsItems ts bytes → bytes.length + 1 < fuel → ∀ read rest,
    items fuel read (bytes ++ octet ']' :: rest) = (.array (read.reverse ++ ts), some rest)

/-- Spelled members are read up to the end of their object, behind those that were read before. -/
def ReadsMembers (fuel : Nat) : Prop :=
  ∀ ms bytes, SpellsMembers ms bytes → bytes.length + 1 < fuel → ∀ read rest,
    members fuel read (bytes ++ octet '\x7d' :: rest) = (.object (read.reverse ++ ms), some rest)

theorem readsValues_succ (hitems : ReadsItems fuel) (hmembers : ReadsMembers fuel) :
    ReadsValues (fuel + 1) := by
  intro t bytes h gap rest hgap hrest hfuel
  rw [← value_skipGap, skipGap_append hgap, value_skipGap]
  cases h with
  | null | yes | no | nothing | blank => rfl
  | int fits => exact value_int fits hrest
  | string s =>
    obtain ⟨bytes, hprinted, hliteral⟩ := literal?_quoted s rest
    rw [hprinted]
    exact value_string hliteral
  | @array ts bytes items =>
    simp only [List.length_cons, List.length_append, List.length_nil] at hfuel
    obtain ⟨b, bs, hhead, hend⟩ := items.head (octet ']' :: rest)
    rw [List.cons_append, List.append_assoc, List.singleton_append, value_array hhead hend,
      hitems ts bytes items (by omega), List.reverse_nil, List.nil_append]
  | @object ms bytes members =>
    simp only [List.length_cons, List.length_append, List.length_nil] at hfuel
    obtain ⟨bs, hhead⟩ := members.head (octet '\x7d' :: rest)
    rw [List.cons_append, List.append_assoc, List.singleton_append, value_object hhead,
      hmembers ms bytes members (by omega), List.reverse_nil, List.nil_append]

theorem readsItems_succ (hvalues : ReadsValues fuel) (hitems : ReadsItems fuel) :
    ReadsItems (fuel + 1) := by
  intro ts bytes h hfuel read rest
  cases h with
  | @last t before bytes after gap item gap' =>
    simp only [List.length_append] at hfuel
    have hvalue := hvalues t bytes item before (after ++ octet ']' :: rest) gap
      ((endsNumber_bracket rest).after gap') (by omega)
    rw [List.append_assoc, List.append_assoc, items_last gap' hvalue, List.reverse_cons]
  | @more t before bytes after later ts gap item gap' others =>
    simp only [List.length_append, List.length_cons] at hfuel
    have hvalue := hvalues t bytes item before (after ++ octet ',' :: (later ++ octet ']' :: rest)) gap
      ((endsNumber_comma _).after gap') (by omega)
    simp only [List.append_assoc, List.cons_append]
    rw [items_more gap' hvalue, hitems ts later others (by omega), List.reverse_cons,
      List.append_assoc, List.singleton_append]

theorem readsMembers_succ (hvalues : ReadsValues fuel) (hmembers : ReadsMembers fuel) :
    ReadsMembers (fuel + 1) := by
  intro ms bytes h hfuel read rest
  cases h with
  | @last key t before between bytes after gap gap' value gap'' =>
    simp only [List.length_append, List.length_cons] at hfuel
    have hvalue := hvalues t bytes value between (after ++ octet '\x7d' :: rest) gap'
      ((endsNumber_brace rest).after gap'') (by omega)
    obtain ⟨inner, hquoted, hkey⟩ := literal?_key key (between ++ (bytes ++ (after ++ octet '\x7d' :: rest)))
    have hquote : skipGap (before ++ (octets (quoted key) ++ octet ':' ::
        (between ++ (bytes ++ (after ++ octet '\x7d' :: rest))))) = octet '"' :: inner := by
      rw [skipGap_append gap, hquoted, skipGap_cons (show isGap (octet '"') = false from rfl)]
    simp only [List.append_assoc, List.cons_append]
    rw [members_last hquote hkey gap'' hvalue, List.reverse_cons]
  | @more key t before between bytes after later ms gap gap' value gap'' others =>
    simp only [List.length_append, List.length_cons] at hfuel
    have hvalue := hvalues t bytes value between
      (after ++ octet ',' :: (later ++ octet '\x7d' :: rest)) gap'
      ((endsNumber_comma _).after gap'') (by omega)
    obtain ⟨inner, hquoted, hkey⟩ := literal?_key key
      (between ++ (bytes ++ (after ++ octet ',' :: (later ++ octet '\x7d' :: rest))))
    have hquote : skipGap (before ++ (octets (quoted key) ++ octet ':' ::
        (between ++ (bytes ++ (after ++ octet ',' :: (later ++ octet '\x7d' :: rest)))))) =
          octet '"' :: inner := by
      rw [skipGap_append gap, hquoted, skipGap_cons (show isGap (octet '"') = false from rfl)]
    simp only [List.append_assoc, List.cons_append]
    rw [members_more hquote hkey gap'' hvalue, hmembers ms later others (by omega),
      List.reverse_cons, List.append_assoc, List.singleton_append]

/-- Each step of reading uses up one unit of fuel and at least one octet. -/
theorem reads (fuel : Nat) : ReadsValues fuel ∧ ReadsItems fuel ∧ ReadsMembers fuel := by
  induction fuel with
  | zero =>
    exact ⟨fun _ _ _ _ _ _ _ h => absurd h (Nat.not_lt_zero _), fun _ _ _ h => absurd h (Nat.not_lt_zero _),
      fun _ _ _ h => absurd h (Nat.not_lt_zero _)⟩
  | succ fuel ih =>
    obtain ⟨hvalues, hitems, hmembers⟩ := ih
    exact ⟨readsValues_succ hitems hmembers, readsItems_succ hvalues hitems,
      readsMembers_succ hvalues hmembers⟩

/-- What is spelled is read from end to end, and what a reader makes of it is what it makes of the
tree. -/
theorem readText_of_spells {α : Type} (r : Reader α) {t : Tree} {bytes : List UInt8}
    (h : Spells t bytes) : readText r bytes = r t := by
  have hparse : parse bytes = (t, some []) := by
    have hvalue := (reads (bytes.length + 1)).1 t bytes h [] [] gap_nil endsNumber_nil
      (Nat.lt_succ_self _)
    rwa [List.append_nil] at hvalue
  simp only [readText, hparse]
  cases r t <;> rfl

/-! ## The compact and the indented text -/

/-- An ASCII character between two texts is one octet. -/
theorem octets_between (cs ds : List Char) {c : Char} (hc : c.toNat < 0x80) :
    octets (cs ++ c :: ds) = octets cs ++ octet c :: octets ds := by
  rw [octets_append, octets_cons, octets_of_ascii hc]
  rfl

theorem octets_enclosed (cs : List Char) {c d : Char} (hc : c.toNat < 0x80) (hd : d.toNat < 0x80) :
    octets (c :: (cs ++ [d])) = octet c :: (octets cs ++ [octet d]) := by
  rw [octets_cons, octets_of_ascii hc, octets_between _ _ hd]
  rfl

mutual

/-- Every number in the value is an integer of at most 64 bits. -/
def integral : Json → Bool
  | .int i => fitsWord i
  | .real _ => false
  | .array items => integralItems items
  | .object members => integralMembers members
  | _ => true

/-- Every number in the items is an integer of at most 64 bits. -/
def integralItems : List Json → Bool
  | [] => true
  | item :: rest => integral item && integralItems rest

/-- Every number in the members is an integer of at most 64 bits. -/
def integralMembers : List (String × Json) → Bool
  | [] => true
  | (_, value) :: rest => integral value && integralMembers rest

end

theorem integral_nat {n : Nat} (h : n < Width.count 64) : integral (.nat n) = true := by
  rw [nat, integral, fitsWord_nat h]

@[simp] theorem integral_optional (o : Option String) : integral (.optional o) = true := by
  cases o <;> rfl

theorem compactItems_more (item next : Json) (later : List Json) :
    compactItems (item :: next :: later) = compactChars item ++ ',' :: compactItems (next :: later) :=
  rfl

theorem compactMembers_one (key : String) (item : Json) :
    compactMembers [(key, item)] = quoted key ++ ':' :: compactChars item := rfl

theorem compactMembers_more (key : String) (item : Json) (next : String × Json)
    (later : List (String × Json)) :
    compactMembers ((key, item) :: next :: later) =
      quoted key ++ ':' :: (compactChars item ++ ',' :: compactMembers (next :: later)) :=
  List.append_assoc _ _ _

mutual

/-- The compact text spells a value. -/
theorem spells_compact : ∀ j : Json, integral j = true → Spells (tree j) (octets (compactChars j))
  | .null, _ => .null
  | .bool true, _ => .yes
  | .bool false, _ => .no
  | .int i, h => by
    rw [integral] at h
    rw [tree, if_pos h]
    exact .int h
  | .string s, _ => .string s
  | .array [], _ => .nothing
  | .array (item :: later), h => by
    rw [compactChars, octets_enclosed _ (by decide) (by decide)]
    exact .array (spells_compactItems (item :: later) (List.cons_ne_nil _ _) h)
  | .object [], _ => .blank
  | .object (member :: later), h => by
    rw [compactChars, octets_enclosed _ (by decide) (by decide)]
    exact .object (spells_compactMembers (member :: later) (List.cons_ne_nil _ _) h)

theorem spells_compactItems : ∀ items : List Json, items ≠ [] → integralItems items = true →
    SpellsItems (treeItems items) (octets (compactItems items))
  | [], hne, _ => absurd rfl hne
  | [item], _, h => by
    have hlast := SpellsItems.last gap_nil (spells_compact item (Bool.and_eq_true_iff.1 h).1) gap_nil
    rwa [List.nil_append, List.append_nil] at hlast
  | item :: next :: later, _, h => by
    rw [compactItems_more, octets_between _ _ (by decide)]
    exact .more gap_nil (spells_compact item (Bool.and_eq_true_iff.1 h).1) gap_nil
      (spells_compactItems (next :: later) (List.cons_ne_nil _ _) (Bool.and_eq_true_iff.1 h).2)

theorem spells_compactMembers : ∀ members : List (String × Json), members ≠ [] →
    integralMembers members = true →
      SpellsMembers (treeMembers members) (octets (compactMembers members))
  | [], hne, _ => absurd rfl hne
  | [(key, item)], _, h => by
    rw [compactMembers_one, octets_between _ _ (by decide)]
    have hlast : SpellsMembers [(some key, tree item)] _ := .last gap_nil gap_nil
      (spells_compact item (Bool.and_eq_true_iff.1 h).1) gap_nil
    rwa [List.nil_append, List.nil_append, List.append_nil] at hlast
  | (key, item) :: next :: later, _, h => by
    rw [compactMembers_more, octets_between _ _ (by decide), octets_between _ _ (by decide)]
    exact .more gap_nil gap_nil (spells_compact item (Bool.and_eq_true_iff.1 h).1) gap_nil
      (spells_compactMembers (next :: later) (List.cons_ne_nil _ _) (Bool.and_eq_true_iff.1 h).2)

end

theorem gap_newline (depth : Nat) : Gap (octets (newline depth)) := by
  have hspaces (n : Nat) : Gap (octets (List.replicate n ' ')) := by
    induction n with
    | zero => exact gap_nil
    | succ n ih =>
      rw [List.replicate_succ, octets_cons]
      exact List.forall_mem_cons.2 ⟨rfl, ih⟩
  rw [newline, octets_cons]
  exact List.forall_mem_cons.2 ⟨rfl, hspaces _⟩

theorem indentedItems_more (depth : Nat) (item next : Json) (later : List Json) :
    indentedItems depth (item :: next :: later) =
      newline depth ++ (indentedChars depth item ++ ',' :: indentedItems depth (next :: later)) :=
  List.append_assoc _ _ _

theorem indentedMembers_one (depth : Nat) (key : String) (item : Json) :
    indentedMembers depth [(key, item)] =
      newline depth ++ (quoted key ++ ':' :: ' ' :: indentedChars depth item) :=
  List.append_assoc _ _ _

theorem indentedMembers_more (depth : Nat) (key : String) (item : Json) (next : String × Json)
    (later : List (String × Json)) :
    indentedMembers depth ((key, item) :: next :: later) =
      newline depth ++ (quoted key ++ ':' :: ' ' ::
        (indentedChars depth item ++ ',' :: indentedMembers depth (next :: later))) := by
  simp [indentedMembers]

mutual

/-- The indented text spells a value, at every depth. -/
theorem spells_indented : ∀ (j : Json) (depth : Nat), integral j = true →
    Spells (tree j) (octets (indentedChars depth j))
  | .null, _, _ => .null
  | .bool true, _, _ => .yes
  | .bool false, _, _ => .no
  | .int i, _, h => by
    rw [integral] at h
    rw [tree, if_pos h]
    exact .int h
  | .string s, _, _ => .string s
  | .array [], _, _ => .nothing
  | .array (item :: later), depth, h => by
    rw [indentedChars, octets_enclosed _ (by decide) (by decide), octets_append]
    · exact .array (spells_indentedItems (item :: later) (depth + 1) (List.cons_ne_nil _ _) h
        (gap_newline depth))
    · simp
  | .object [], _, _ => .blank
  | .object (member :: later), depth, h => by
    rw [indentedChars, octets_enclosed _ (by decide) (by decide), octets_append]
    · exact .object (spells_indentedMembers (member :: later) (depth + 1) (List.cons_ne_nil _ _) h
        (gap_newline depth))
    · simp

theorem spells_indentedItems : ∀ (items : List Json) (depth : Nat), items ≠ [] →
    integralItems items = true → ∀ {gap : List UInt8}, Gap gap →
      SpellsItems (treeItems items) (octets (indentedItems depth items) ++ gap)
  | [], _, hne, _, _, _ => absurd rfl hne
  | [item], depth, _, h, gap, hgap => by
    rw [indentedItems, octets_append, List.append_assoc]
    exact .last (gap_newline depth) (spells_indented item depth (Bool.and_eq_true_iff.1 h).1) hgap
  | item :: next :: later, depth, _, h, gap, hgap => by
    rw [indentedItems_more, octets_append, octets_between _ _ (by decide)]
    simp only [List.append_assoc, List.cons_append]
    exact .more (gap_newline depth) (spells_indented item depth (Bool.and_eq_true_iff.1 h).1) gap_nil
      (spells_indentedItems (next :: later) depth (List.cons_ne_nil _ _)
        (Bool.and_eq_true_iff.1 h).2 hgap)

theorem spells_indentedMembers : ∀ (members : List (String × Json)) (depth : Nat), members ≠ [] →
    integralMembers members = true → ∀ {gap : List UInt8}, Gap gap →
      SpellsMembers (treeMembers members) (octets (indentedMembers depth members) ++ gap)
  | [], _, hne, _, _, _ => absurd rfl hne
  | [(key, item)], depth, _, h, gap, hgap => by
    rw [indentedMembers_one, octets_append, octets_between _ _ (by decide), octets_cons]
    simp only [List.append_assoc, List.cons_append]
    exact .last (gap_newline depth) (List.forall_mem_singleton.2 rfl)
      (spells_indented item depth (Bool.and_eq_true_iff.1 h).1) hgap
  | (key, item) :: next :: later, depth, _, h, gap, hgap => by
    rw [indentedMembers_more, octets_append, octets_between _ _ (by decide), octets_cons,
      octets_between _ _ (by decide)]
    simp only [List.append_assoc, List.cons_append]
    exact .more (gap_newline depth) (List.forall_mem_singleton.2 rfl)
      (spells_indented item depth (Bool.and_eq_true_iff.1 h).1) gap_nil
      (spells_indentedMembers (next :: later) depth (List.cons_ne_nil _ _)
        (Bool.and_eq_true_iff.1 h).2 hgap)

end

variable {α : Type} (r : Reader α) {j : Json}

/-- A printed value is read from end to end, and what a reader makes of it is what it makes of the
tree. -/
theorem readText_compact (h : integral j = true) :
    readText r (Utf8.encode j.compact) = r (tree j) := by
  rw [compact, Utf8.encode_ofList, readText_of_spells r (spells_compact j h)]

theorem readText_indented (h : integral j = true) :
    readText r (Utf8.encode j.indented) = r (tree j) := by
  rw [indented, Utf8.encode_ofList, readText_of_spells r (spells_indented j 0 h)]

end Concierge.Json
