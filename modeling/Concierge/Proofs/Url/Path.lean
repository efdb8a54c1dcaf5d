import Concierge.Proofs.Url.Percent
import Concierge.Url.Basic
import Mathlib.Data.List.Basic

/-!
# Paths, segment by segment

Splitting a path at its slashes goes part by part: what is joined with a slash is split there again.
Resolving goes from left to right, and what was resolved so far is all that the rest depends on.  So what
a path with a given beginning resolves to is read off the segments behind that beginning: they either stand
as they are, or take away segments before them, or leave nothing.
-/

namespace Concierge.Url

variable {special : Bool} {segment cs : List Char} {above xs ys : List (List Char)}

/-! ## Splitting -/

theorem splitPath_cons_slash {c : Char} (h : isSlash special c = true) (segment cs : List Char) :
    splitPath special segment (c :: cs) = segment.reverse :: splitPath special [] cs := if_pos h

theorem splitPath_cons_other {c : Char} (h : isSlash special c = false) (segment cs : List Char) :
    splitPath special segment (c :: cs) = splitPath special (c :: segment) cs :=
  if_neg (Bool.eq_false_iff.1 h)

theorem splitPath_append_slash (segment before : List Char) {slash : Char}
    (h : isSlash special slash = true) (after : List Char) :
    splitPath special segment (before ++ slash :: after) =
      splitPath special segment before ++ splitPath special [] after := by
  induction before generalizing segment with
  | nil => exact splitPath_cons_slash h segment after
  | cons c rest ih =>
    rw [List.cons_append]
    cases hc : isSlash special c with
    | true => rw [splitPath_cons_slash hc, splitPath_cons_slash hc, ih, List.cons_append]
    | false => rw [splitPath_cons_other hc, splitPath_cons_other hc, ih]

theorem splitPath_of_no_slash (h : ∀ c ∈ cs, isSlash special c = false) (segment : List Char) :
    splitPath special segment cs = [segment.reverse ++ cs] := by
  induction cs generalizing segment with
  | nil => rw [splitPath, List.append_nil]
  | cons c rest ih =>
    rw [splitPath_cons_other (h c List.mem_cons_self), ih fun d hd => h d (List.mem_cons_of_mem _ hd),
      List.reverse_cons, List.append_assoc, List.singleton_append]

/-- Text without slashes goes on with the last segment. -/
theorem splitPath_append_other (special : Bool) (segment cs : List Char) :
    ∃ before last, splitPath special segment cs = before ++ [last] ∧
      ∀ more : List Char, (∀ c ∈ more, isSlash special c = false) →
        splitPath special segment (cs ++ more) = before ++ [last ++ more] := by
  induction cs generalizing segment with
  | nil =>
    exact ⟨[], segment.reverse, rfl, fun more hmore => splitPath_of_no_slash hmore segment⟩
  | cons c rest ih =>
    cases hc : isSlash special c with
    | true =>
      obtain ⟨before, last, hsplit, hmore⟩ := ih []
      refine ⟨segment.reverse :: before, last, by rw [splitPath_cons_slash hc, hsplit]; rfl,
        fun more h => ?_⟩
      rw [List.cons_append, splitPath_cons_slash hc, hmore more h, List.cons_append]
    | false =>
      obtain ⟨before, last, hsplit, hmore⟩ := ih (c :: segment)
      refine ⟨before, last, by rw [splitPath_cons_other hc, hsplit], fun more h => ?_⟩
      rw [List.cons_append, splitPath_cons_other hc, hmore more h]

theorem splitPath_ne_nil (segment cs : List Char) : splitPath special segment cs ≠ [] := by
  induction cs generalizing segment with
  | nil => exact List.cons_ne_nil _ _
  | cons c rest ih =>
    cases hc : isSlash special c with
    | true =>
      rw [splitPath_cons_slash hc]
      exact List.cons_ne_nil _ _
    | false =>
      rw [splitPath_cons_other hc]
      exact ih _

/-- A segment holds no slash, and its characters stand in the path in this order. -/
theorem of_mem_splitPath {piece : List Char} (h : piece ∈ splitPath special segment cs)
    (hsegment : ∀ c ∈ segment, isSlash special c = false) :
    (∀ c ∈ piece, isSlash special c = false) ∧ piece.Sublist (segment.reverse ++ cs) := by
  induction cs generalizing segment with
  | nil =>
    rw [List.mem_singleton.1 h]
    exact ⟨fun c hc => hsegment c (List.mem_reverse.1 hc), List.sublist_append_left _ _⟩
  | cons c rest ih =>
    cases hc : isSlash special c with
    | true =>
      rw [splitPath_cons_slash hc] at h
      rcases List.mem_cons.1 h with rfl | hrest
      · exact ⟨fun d hd => hsegment d (List.mem_reverse.1 hd), List.sublist_append_left _ _⟩
      · obtain ⟨hpiece, hsublist⟩ := ih hrest fun d hd => nomatch hd
        exact ⟨hpiece, (hsublist.cons c).trans (List.sublist_append_right _ _)⟩
    | false =>
      rw [splitPath_cons_other hc] at h
      obtain ⟨hpiece, hsublist⟩ := ih h (List.forall_mem_cons.2 ⟨hc, hsegment⟩)
      rw [List.reverse_cons, List.append_assoc, List.singleton_append] at hsublist
      exact ⟨hpiece, hsublist⟩

theorem splitPath_slashes (k : Nat) :
    splitPath special [] (List.replicate k '/') = List.replicate (k + 1) [] := by
  have hslash : isSlash special '/' = true := by simp [isSlash]
  induction k with
  | zero => rfl
  | succ k ih =>
    rw [List.replicate_succ, splitPath_cons_slash hslash, ih, List.reverse_nil,
      ← List.replicate_succ]

/-! ## Resolving -/

/-- What a segment, with others behind it, does to those before it. -/
def pass (above : List (List Char)) (segment : List Char) : List (List Char) :=
  if isAbove segment then above.drop 1 else if isHere segment then above else segment :: above

theorem resolve_cons (h : ys ≠ []) (above : List (List Char)) (segment : List Char) :
    resolve above (segment :: ys) = resolve (pass above segment) ys := by
  cases ys with
  | nil => exact absurd rfl h
  | cons second others =>
    rw [pass, resolve]
    · split
      · rfl
      · split <;> rfl
    · exact List.cons_ne_nil _ _

theorem resolve_append (h : ys ≠ []) (above xs : List (List Char)) :
    resolve above (xs ++ ys) = resolve (xs.foldl pass above) ys := by
  induction xs generalizing above with
  | nil => rfl
  | cons segment rest ih =>
    rw [List.cons_append, resolve_cons (List.append_ne_nil_of_right_ne_nil _ h), ih,
      List.foldl_cons]

/-- The last segment does the same as any other, and leaves an empty one if it is none itself. -/
theorem resolve_singleton (above : List (List Char)) (segment : List Char) :
    ∃ k, resolve above [segment] = (pass above segment).reverse ++ List.replicate k [] := by
  unfold resolve pass
  split
  · exact ⟨1, by simp⟩
  · split
    · exact ⟨1, by simp⟩
    · exact ⟨0, by simp⟩

theorem resolve_eq (h : xs ≠ []) (above : List (List Char)) :
    ∃ k, resolve above xs = (xs.foldl pass above).reverse ++ List.replicate k [] := by
  obtain rfl | ⟨before, last, rfl⟩ := List.eq_nil_or_concat xs
  · exact absurd rfl h
  · rw [List.concat_eq_append, resolve_append (List.cons_ne_nil _ _), List.foldl_append]
    exact resolve_singleton _ _

theorem resolve_empties (above : List (List Char)) (k : Nat) :
    resolve above (List.replicate k []) = above.reverse ++ List.replicate k [] := by
  induction k generalizing above with
  | zero => simp [resolve]
  | succ k ih =>
    cases k with
    | zero => exact List.reverse_cons
    | succ k =>
      rw [List.replicate_succ, resolve_cons (by simp)]
      change resolve ([] :: above) _ = _
      rw [ih, List.reverse_cons, List.append_assoc, List.singleton_append]

/-- A segment takes away some of those before it, or stands behind them. -/
theorem drop_pass (above : List (List Char)) (segment : List Char) (i : Nat) :
    ∃ j own, ((pass above segment).drop i).reverse = (above.drop j).reverse ++ own ∧
      ∀ s ∈ own, s = segment ∧ isAbove s = false ∧ isHere s = false := by
  unfold pass
  cases habove : isAbove segment with
  | true => exact ⟨i + 1, [], by simp, by simp⟩
  | false =>
    cases hhere : isHere segment with
    | true => exact ⟨i, [], by simp, by simp⟩
    | false =>
      cases i with
      | zero =>
        refine ⟨0, [segment], by simp, fun s hs => ?_⟩
        rw [List.mem_singleton.1 hs]
        exact ⟨rfl, habove, hhere⟩
      | succ i => exact ⟨i, [], by simp, by simp⟩

/-- What a path resolves to begins with segments from before it, and what follows these are segments of
its own that name no place by points, or empty ones. -/
theorem resolve_split (above xs : List (List Char)) :
    ∃ i tail, resolve above xs = (above.drop i).reverse ++ tail ∧
      ∀ s ∈ tail, s = [] ∨ s ∈ xs ∧ isAbove s = false ∧ isHere s = false := by
  induction xs generalizing above with
  | nil => exact ⟨0, [], by simp [resolve], by simp⟩
  | cons segment rest ih =>
    have hrest : ∃ i tail, resolve above (segment :: rest) =
        ((pass above segment).drop i).reverse ++ tail ∧
        ∀ s ∈ tail, s = [] ∨ s ∈ rest ∧ isAbove s = false ∧ isHere s = false := by
      by_cases hlast : rest = []
      · obtain ⟨k, hk⟩ := resolve_singleton above segment
        exact ⟨0, List.replicate k [], hlast ▸ hk, fun s hs => .inl (List.eq_of_mem_replicate hs)⟩
      · rw [resolve_cons hlast]
        exact ih _
    obtain ⟨i, tail, heq, htail⟩ := hrest
    obtain ⟨j, own, hown, hmem⟩ := drop_pass above segment i
    refine ⟨j, own ++ tail, by rw [heq, hown, List.append_assoc], fun s hs => ?_⟩
    rcases List.mem_append.1 hs with hs | hs
    · obtain ⟨rfl, hpoints⟩ := hmem s hs
      exact .inr ⟨List.mem_cons_self, hpoints⟩
    · obtain rfl | ⟨hs, hpoints⟩ := htail s hs
      · exact .inl rfl
      · exact .inr ⟨List.mem_cons_of_mem _ hs, hpoints⟩

/-- Behind all that stood before it, a path holds only segments of its own. -/
theorem mem_of_resolve_getElem? {above xs : List (List Char)} {n : Nat} {s : List Char}
    (hn : above.length ≤ n) (h : (resolve above xs)[n]? = some s) :
    s = [] ∨ s ∈ xs ∧ isAbove s = false ∧ isHere s = false := by
  obtain ⟨i, tail, heq, htail⟩ := resolve_split above xs
  have hlength : ((above.drop i).reverse).length ≤ n := by
    rw [List.length_reverse, List.length_drop]
    omega
  rw [heq, List.getElem?_append_right hlength] at h
  exact htail s (List.mem_of_getElem? h)

/-! ## Points -/

/-- In a text without escapes only a point is one. -/
theorem eq_cons_of_afterPoint? {rest : List Char} (h : afterPoint? segment = some rest)
    (hplain : Percent.Unescaped segment) : segment = '.' :: rest := by
  unfold afterPoint? at h
  split at h
  · rw [Option.some.inj h]
  · next c after =>
    split at h
    · next hc =>
      refine absurd ⟨by decide, ?_⟩ (hplain [] '2' c after rfl)
      rcases hc with rfl | rfl <;> decide
    · cases h
  · cases h

theorem isHere_of_unescaped (h : Percent.Unescaped segment) :
    isHere segment = true ↔ segment = ['.'] := by
  unfold isHere
  rw [beq_iff_eq]
  exact ⟨fun hpoint => eq_cons_of_afterPoint? hpoint h, fun heq => heq ▸ rfl⟩

theorem isAbove_of_unescaped (h : Percent.Unescaped segment) :
    isAbove segment = true ↔ segment = ['.', '.'] := by
  unfold isAbove
  rw [beq_iff_eq]
  constructor
  · intro hpoints
    obtain ⟨rest, hfirst, hsecond⟩ := Option.bind_eq_some_iff.1 hpoints
    obtain rfl := eq_cons_of_afterPoint? hfirst h
    have hrest : Percent.Unescaped rest := fun before a b after hsplit =>
      h ('.' :: before) a b after (by rw [hsplit, List.cons_append])
    rw [eq_cons_of_afterPoint? hsecond hrest]
  · rintro rfl
    rfl

end Concierge.Url
