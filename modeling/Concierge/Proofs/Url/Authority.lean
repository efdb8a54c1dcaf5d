import Concierge.Proofs.Url.Endpoint
import Concierge.Url.Basic
import Mathlib.Data.List.Basic

/-!
# Blanks in authorities

At the end of an address a blank is passed over, but an authority that ends in one names no host: in a
port a blank is no digit, and in a host it is read as it stands, since it cannot end an escape, and comes
through every step that brings a name into one form.
-/

namespace Concierge.Url

variable {c : Char} {cs : List Char} {scheme : String}

/-- What is said of characters by number is said of blanks. -/
theorem forall_isMargin {P : Char → Prop} (h : ∀ n < 0x21, P (Char.ofNat n))
    (hc : isMargin c = true) : P c := by
  have hlow : c.toNat < 0x21 := Nat.lt_succ_of_le (of_decide_eq_true hc)
  have hall := h c.toNat hlow
  rwa [Char.ofNat_toNat] at hall

/-! ## Names -/

namespace Domain

/-- A blank is no character of a name and no step changes it. -/
theorem of_isMargin (h : isMargin c = true) :
    c.toNat < 128 ∧ isIgnored c = false ∧ fold c = c ∧ isForbidden c = true ∧
      c ∉ ['.', '%', '@', ':', ']'] ∧ ¬ Percent.IsHex c ∧ c.isDigit = false :=
  forall_isMargin (P := fun c => c.toNat < 128 ∧ isIgnored c = false ∧ fold c = c ∧
    isForbidden c = true ∧ c ∉ ['.', '%', '@', ':', ']'] ∧ ¬ Percent.IsHex c ∧ c.isDigit = false)
    (by decide) h

/-- The form of a label has its characters of ASCII. -/
theorem mem_of_labelToAscii? {label ascii : List Char} (h : labelToAscii? label = some ascii)
    (hc : c.toNat < 128) (hmem : c ∈ label) : c ∈ ascii := by
  unfold labelToAscii? at h
  split at h
  · split at h
    · split at h
      · exact Option.some.inj h ▸ hmem
      · cases h
    · cases h
  · split at h
    · exact Option.some.inj h ▸ hmem
    · split at h
      · cases h
      · have hbasic : c ∈ label.filter (·.toNat < 128) := by simpa using ⟨hmem, hc⟩
        have hsome : ¬ (label.filter (·.toNat < 128)).isEmpty = true := fun hempty =>
          List.not_mem_nil (List.isEmpty_iff.1 hempty ▸ hbasic)
        rw [← Option.some.inj h, Punycode.encode]
        simp only [hsome]
        exact List.mem_append_right _ (List.mem_append_left _ (List.mem_append_left _ hbasic))

theorem mem_intercalate {l : List Char} {ls : List (List Char)} {joint : Char} (hl : l ∈ ls)
    (hc : c ∈ l) : c ∈ [joint].intercalate ls := by
  induction ls with
  | nil => cases hl
  | cons first rest ih =>
    cases rest with
    | nil => simp_all [List.intercalate]
    | cons second others =>
      rw [List.intercalate_cons_cons]
      rcases List.mem_cons.1 hl with rfl | hrest
      · simp [hc]
      · simp [ih hrest]

theorem exists_of_mem_intercalate {ls : List (List Char)} {joint : Char} (hne : c ≠ joint)
    (h : c ∈ [joint].intercalate ls) : ∃ l ∈ ls, c ∈ l := by
  induction ls with
  | nil => simp at h
  | cons first rest ih =>
    cases rest with
    | nil => simp_all [List.intercalate]
    | cons second others =>
      rw [List.intercalate_cons_cons] at h
      simp only [List.mem_append, List.mem_singleton] at h
      obtain (h | h) | h := h
      · exact ⟨first, List.mem_cons_self, h⟩
      · exact absurd h hne
      · obtain ⟨l, hl, hc⟩ := ih h
        exact ⟨l, List.mem_cons_of_mem _ hl, hc⟩

/-- A name with a blank has no ASCII form. -/
theorem toAscii?_of_blank (hc : isMargin c = true) (hmem : c ∈ cs) : toAscii? cs = none := by
  obtain ⟨hascii, hignored, hfold, hforbidden, hother, -⟩ := of_isMargin hc
  have hpoint : c ≠ '.' := fun heq => hother (by simp [heq])
  unfold toAscii?
  simp only
  have hfolded : c ∈ (cs.filter (! isIgnored ·)).map fold :=
    List.mem_map.2 ⟨c, List.mem_filter.2 ⟨hmem, by simp [hignored]⟩, hfold⟩
  generalize (cs.filter (! isIgnored ·)).map fold = folded at hfolded
  split
  · rfl
  · cases hlabels : (folded.splitOn '.').mapM labelToAscii? with
    | none => rfl
    | some labels =>
      have hsplit : c ∈ ['.'].intercalate (folded.splitOn '.') := by
        rwa [List.intercalate_splitOn]
      obtain ⟨label, hlabel, hcl⟩ := exists_of_mem_intercalate hpoint hsplit
      obtain ⟨ascii, hasciis, hread⟩ := Utf8.exists_of_mapM hlabels hlabel
      have hfound : (['.'].intercalate labels).any isForbidden = true :=
        List.any_eq_true.2 ⟨c, mem_intercalate hasciis (mem_of_labelToAscii? hread hascii hcl),
          hforbidden⟩
      exact if_pos hfound

end Domain

/-! ## Hosts and ports -/

/-- No host ends in a blank. -/
theorem readHost_of_blank (hc : isMargin c = true) (cs : List Char) :
    ∃ fault, readHost (cs ++ [c]) = .error fault := by
  obtain ⟨hascii, -, -, -, hother, hhex, -⟩ := Domain.of_isMargin hc
  have hpercent : c ≠ '%' := fun heq => hother (by simp [heq])
  have hbracket : c ≠ ']' := fun heq => hother (by simp [heq])
  unfold readHost
  split
  · exact ⟨.ipv6, by simp [bracketed?, hbracket]⟩
  · cases hread : Utf8.decode? (Percent.decode (Utf8.encode (String.ofList (cs ++ [c])))) with
    | none => exact ⟨.domain, rfl⟩
    | some s =>
      rw [Utf8.encode_ofList, Percent.decode_append_character hpercent hhex,
        Utf8.octets_of_ascii hascii] at hread
      have hoctet : (UInt8.ofNat c.toNat).toNat = c.toNat := Utf8.toNat_octet (by omega)
      have hmem := Utf8.mem_of_decode? hread (hoctet.symm ▸ hascii)
        (List.mem_append_right _ (List.mem_singleton_self _))
      rw [Percent.ofNat_octet hascii] at hmem
      exact ⟨.domain, by simp only [Option.bind_some, Domain.toAscii?_of_blank hc hmem]⟩

/-- No port ends in a blank. -/
theorem readPort_of_blank (hc : isMargin c = true) (scheme : String) (cs : List Char) :
    readPort scheme (cs ++ [c]) = .error .port := by
  have hdigit := (Domain.of_isMargin hc).2.2.2.2.2.2
  simp [readPort, hdigit]

theorem splitUser_append (h : c ≠ '@') (cs : List Char) :
    ∃ user host, splitUser (cs ++ [c]) = (user, host ++ [c]) := by
  have hc : (c != '@') = true := bne_iff_ne.2 h
  have hreverse : (cs ++ [c]).reverse = c :: cs.reverse := by simp
  unfold splitUser
  simp only [hreverse, List.dropWhile_cons, List.takeWhile_cons, hc, if_true, List.reverse_cons]
  split
  · exact ⟨_, cs, rfl⟩
  · exact ⟨_, _, rfl⟩

theorem splitHost_append (h : c ≠ ':') (inside : Bool) (read cs : List Char) :
    (∃ host, splitHost inside read (cs ++ [c]) = (host ++ [c], none)) ∨
      ∃ host port, splitHost inside read (cs ++ [c]) = (host, some (port ++ [c])) := by
  induction cs generalizing inside read with
  | nil => exact .inl ⟨read.reverse, by simp [splitHost, h]⟩
  | cons d rest ih =>
    rw [List.cons_append, splitHost]
    split
    · exact .inr ⟨_, rest, rfl⟩
    · exact ih _ _

/-- No authority of the web ends in a blank. -/
theorem readAuthority_of_blank (web : IsWeb scheme) (hc : isMargin c = true) (cs : List Char) :
    ∃ fault, readAuthority scheme (cs ++ [c]) false = .error fault := by
  have hother := (Domain.of_isMargin hc).2.2.2.2.1
  have huser : c ≠ '@' := fun heq => hother (by simp [heq])
  have hport : c ≠ ':' := fun heq => hother (by simp [heq])
  obtain ⟨user, host, huser⟩ := splitUser_append huser cs
  obtain ⟨name, hhost⟩ | ⟨name, port, hhost⟩ := splitHost_append hport false [] host
  · obtain ⟨fault, hfault⟩ := readHost_of_blank hc name
    exact ⟨fault, by simp [readAuthority, huser, hhost, web.isSpecial, hfault, bind, Except.bind]⟩
  · by_cases hempty : name = []
    · exact ⟨.emptyHost, by simp [readAuthority, huser, hhost, web.isSpecial, hempty]⟩
    · cases hname : readHost name with
      | error fault =>
        exact ⟨fault, by
          simp [readAuthority, huser, hhost, web.isSpecial, hempty, hname, bind, Except.bind]⟩
      | ok found =>
        exact ⟨.port, by simp [readAuthority, huser, hhost, web.isSpecial, hempty, hname, bind,
          Except.bind, readPort_of_blank hc]⟩

end Concierge.Url
