/-!
# Message templates

A template is text with placeholders `{{key}}`.  It is filled in from left to right: what is written is
never looked at again, so what a value contains does not matter.
-/

namespace Concierge.Template

/-- Cut a list at the first occurrence of a mark, which belongs to neither part. -/
def cut? (mark : List Char) : List Char → Option (List Char × List Char)
  | [] => if mark.isEmpty then some ([], []) else none
  | c :: rest =>
    if mark.isPrefixOf (c :: rest) then some ([], (c :: rest).drop mark.length)
    else (cut? mark rest).map fun (before, after) => (c :: before, after)

/-- The parts and the mark make up the list. -/
theorem append_of_cut? {mark cs before after : List Char}
    (h : cut? mark cs = some (before, after)) :
    cs = before ++ mark ++ after := by
  induction cs generalizing before with
  | nil =>
    simp only [cut?] at h
    split at h <;> simp_all
  | cons c rest ih =>
    simp only [cut?] at h
    split at h
    · next hp =>
      obtain ⟨t, ht⟩ := List.isPrefixOf_iff_prefix.1 hp
      simp only [Option.some.injEq, Prod.mk.injEq] at h
      obtain ⟨rfl, rfl⟩ := h
      rw [← ht]
      simp
    · obtain ⟨⟨b, a⟩, hcut, heq⟩ := Option.map_eq_some_iff.1 h
      simp only [Prod.mk.injEq] at heq
      obtain ⟨rfl, rfl⟩ := heq
      simp [ih hcut]

/-- What follows a non-empty mark is shorter. -/
theorem length_lt_of_cut? {mark cs before after : List Char} (hm : mark ≠ [])
    (h : cut? mark cs = some (before, after)) : after.length < cs.length := by
  have := List.length_pos_iff.2 hm
  rw [append_of_cut? h]
  simp
  omega

/-- The mark that opens a placeholder. -/
def opening : List Char := ['\x7b', '\x7b']

/-- The mark that closes a placeholder. -/
def closing : List Char := ['\x7d', '\x7d']

/-- Fill in what is left of a template behind what was written so far.  A placeholder whose key is unknown
is copied, but only its opening mark is passed over, since a known placeholder may start inside it.  Of
several values for a key the first counts. -/
def renderFrom (values : List (String × String)) (out rest : List Char) : List Char :=
  match hopen : cut? opening rest with
  | none => out ++ rest
  | some (before, afterOpen) =>
    have hshorter := length_lt_of_cut? (by decide) hopen
    let out := out ++ before
    match hclose : cut? closing afterOpen with
    | none => out ++ opening ++ afterOpen
    | some (key, afterClose) =>
      have hshortest := Nat.lt_trans (length_lt_of_cut? (by decide) hclose) hshorter
      match values.lookup (String.ofList key) with
      | some value => renderFrom values (out ++ value.toList) afterClose
      | none => renderFrom values (out ++ opening) afterOpen
termination_by rest.length

/-- Fill in a template. -/
def render (template : String) (values : List (String × String)) : String :=
  String.ofList (renderFrom values [] template.toList)

end Concierge.Template
