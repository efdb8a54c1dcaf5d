import Concierge.Tenant
import Mathlib.Data.List.TakeWhile

/-!
# The label of a host name

Which label of a host name names an account, if any, is settled here for every text, however many
colons and points it has and wherever they stand.  A port at the end is cut off before the labels are
counted; since it holds no point, it stands behind the last one, so it is no part of any label but the
last, and whether there is a port makes no difference to the answer.
-/

namespace Concierge.Tenant

variable {cs name digits label rest : List Char}

/-! ## Ports -/

/-- The text of a port: decimal digits, one or more. -/
def IsPort (digits : List Char) : Prop := digits ≠ [] ∧ ∀ c ∈ digits, '0' ≤ c ∧ c ≤ '9'

/-- A text, and what is left of it when one port at its end is cut off, if it has one. -/
inductive PortCut : List Char → List Char → Prop where
  | cut {name digits : List Char} (port : IsPort digits) : PortCut (name ++ ':' :: digits) name
  | whole {cs : List Char} (unported : ∀ name digits, IsPort digits → cs ≠ name ++ ':' :: digits) :
      PortCut cs cs

theorem isDigit_iff {c : Char} : isDigit c = true ↔ '0' ≤ c ∧ c ≤ '9' := by
  by_cases h : '0' ≤ c ∧ c ≤ '9' <;> simp [isDigit, Digit.decimal?, h]

theorem isPort_iff : (! digits.isEmpty && digits.all isDigit) = true ↔ IsPort digits := by
  simp [IsPort, isDigit_iff]

theorem IsPort.not_mem (h : IsPort digits) {c : Char} (hc : ¬ ('0' ≤ c ∧ c ≤ '9')) : c ∉ digits :=
  fun hmem => hc (h.2 c hmem)

/-- A list with a mark is split at the last one. -/
theorem splitLast?_append {mark : Char} {after : List Char} (before : List Char)
    (h : mark ∉ after) : splitLast? mark (before ++ mark :: after) = some (before, after) := by
  have hother : ∀ c ∈ after.reverse, (c != mark) = true := fun c hc =>
    bne_iff_ne.2 fun heq => h (heq ▸ List.mem_reverse.1 hc)
  have hreverse : (before ++ mark :: after).reverse = after.reverse ++ mark :: before.reverse := by
    simp
  rw [splitLast?, hreverse, List.dropWhile_append_of_pos hother, List.takeWhile_append_of_pos hother]
  simp

theorem exists_last {mark : Char} (h : mark ∈ cs) :
    ∃ before after, cs = before ++ mark :: after ∧ mark ∉ after := by
  obtain ⟨after, before, hreverse, hafter⟩ := List.eq_append_cons_of_mem (List.mem_reverse.2 h)
  refine ⟨before.reverse, after.reverse, ?_, by simpa using hafter⟩
  rw [← List.reverse_reverse cs, hreverse]
  simp

theorem splitLast?_of_not_mem {mark : Char} (h : mark ∉ cs) : splitLast? mark cs = none := by
  have hnone : cs.reverse.dropWhile (· != mark) = [] := List.dropWhile_eq_nil_iff.2 fun c hc =>
    bne_iff_ne.2 fun heq => h (heq ▸ List.mem_reverse.1 hc)
  rw [splitLast?, hnone]

/-- What is left of a host name without its port is what is left when a port at its end is cut off. -/
theorem portCut_withoutPort (cs : List Char) : PortCut cs (withoutPort cs) := by
  by_cases hcolon : ':' ∈ cs
  · obtain ⟨before, after, rfl, hafter⟩ := exists_last hcolon
    rw [withoutPort, splitLast?_append before hafter]
    by_cases hport : IsPort after
    · simp only [isPort_iff.2 hport, if_true]
      exact .cut hport
    · simp only [mt isPort_iff.1 hport, if_false, Bool.false_eq_true]
      refine .whole fun name digits hdigits heq => hport ?_
      -- The digits of a port hold no colon, so it begins at the last one.
      have hsplit := splitLast?_append name (hdigits.not_mem (c := ':') (by decide))
      rw [← heq, splitLast?_append before hafter] at hsplit
      obtain ⟨-, rfl⟩ := Prod.mk.inj (Option.some.inj hsplit)
      exact hdigits
  · rw [withoutPort, splitLast?_of_not_mem hcolon]
    exact .whole fun name digits _ heq => hcolon (heq ▸ by simp)

/-- There is one way to cut a port off. -/
theorem PortCut.unique {x y : List Char} (hx : PortCut cs x) (hy : PortCut cs y) : x = y := by
  cases hx with
  | @cut x digits port =>
    generalize hcs : x ++ ':' :: digits = cs at hy
    cases hy with
    | @cut y others port' =>
      have hsplit := splitLast?_append x (port.not_mem (c := ':') (by decide))
      rw [hcs, splitLast?_append y (port'.not_mem (c := ':') (by decide))] at hsplit
      exact (Prod.mk.inj (Option.some.inj hsplit)).1.symm
    | whole unported => exact absurd hcs.symm (unported x digits port)
  | whole unported =>
    cases hy with
    | cut port => exact absurd rfl (unported _ _ port)
    | whole => rfl

theorem withoutPort_eq_iff : withoutPort cs = name ↔ PortCut cs name :=
  ⟨fun h => h ▸ portCut_withoutPort cs, fun h => (portCut_withoutPort cs).unique h⟩

/-- Only what follows a point can hold the port. -/
theorem append_port_eq_iff (h : IsPort digits) :
    label ++ '.' :: rest = name ++ ':' :: digits ↔
      ∃ inner, name = label ++ '.' :: inner ∧ rest = inner ++ ':' :: digits := by
  constructor
  · intro heq
    rw [← List.singleton_append (x := '.'), ← List.append_assoc] at heq
    obtain ⟨inner, rfl, rfl⟩ | ⟨inner, hlabel, hport⟩ := List.append_eq_append_iff.1 heq
    · exact ⟨inner, by simp, rfl⟩
    · -- Otherwise the point would stand in the port.
      obtain rfl | ⟨before, last, rfl⟩ := List.eq_nil_or_concat inner
      · exact ⟨[], by simpa using hlabel.symm, by simpa using hport.symm⟩
      · have hlast : last = '.' := by
          have hlasts := congrArg List.getLast? hlabel
          simpa using hlasts.symm
        have hdot : '.' ∈ ':' :: digits := by simp [hport, hlast]
        simp [h.not_mem] at hdot
  · rintro ⟨inner, rfl, rfl⟩
    simp

/-- A port is cut off from what follows a point. -/
theorem portCut_dotted_iff {left : List Char} :
    PortCut cs (label ++ '.' :: left) ↔ ∃ rest, cs = label ++ '.' :: rest ∧ PortCut rest left := by
  have hdotted {rest left : List Char} (h : PortCut rest left) :
      PortCut (label ++ '.' :: rest) (label ++ '.' :: left) := by
    cases h with
    | @cut _ digits port =>
      have hport : PortCut ((label ++ '.' :: left) ++ ':' :: digits) (label ++ '.' :: left) := .cut port
      simpa using hport
    | whole unported =>
      refine .whole fun name digits port heq => ?_
      obtain ⟨inner, -, hrest⟩ := (append_port_eq_iff port).1 heq
      exact unported inner digits port hrest
  constructor
  · intro h
    obtain ⟨rest, rfl⟩ : ∃ rest, cs = label ++ '.' :: rest := by
      cases h with
      | cut port => exact ⟨_, by rw [List.append_assoc, List.cons_append]⟩
      | whole => exact ⟨left, rfl⟩
    have hleft := (hdotted (portCut_withoutPort rest)).unique h
    rw [List.append_cancel_left_eq, List.cons.injEq] at hleft
    exact ⟨rest, rfl, withoutPort_eq_iff.1 hleft.2⟩
  · rintro ⟨rest, rfl, h⟩
    exact hdotted h

/-- Cutting a port off takes no point away. -/
theorem PortCut.dot_mem_iff {left : List Char} (h : PortCut rest left) : '.' ∈ left ↔ '.' ∈ rest := by
  cases h with
  | cut port => simp [port.not_mem]
  | whole => rfl

/-! ## Labels -/

theorem labels_of_not_mem (h : '.' ∉ cs) : labels cs = [cs] := List.splitOn_eq_singleton h

theorem labels_append (h : '.' ∉ label) (rest : List Char) :
    labels (label ++ '.' :: rest) = label :: labels rest :=
  List.splitOn_append_cons_self_of_not_mem h rest

theorem one_lt_length_labels : 1 < (labels cs).length ↔ '.' ∈ cs := by
  by_cases h : '.' ∈ cs
  · obtain ⟨label, rest, rfl, hlabel⟩ := List.eq_append_cons_of_mem h
    have hrest := List.length_pos_iff.2 (List.splitOn_ne_nil '.' rest)
    rw [labels_append hlabel, labels, List.length_cons]
    simp [hrest]
  · simp [labels_of_not_mem h, h]

theorem label?_of_not_mem {host : String} (h : '.' ∉ withoutPort host.toList) :
    label? host = none := by
  rw [label?, labels_of_not_mem h]
  rfl

/-- The label before the first point counts, if it is not empty and another point follows. -/
theorem label?_of_dotted {host : String} {left : List Char} (hlabel : '.' ∉ label)
    (h : withoutPort host.toList = label ++ '.' :: left) :
    label? host = if label ≠ [] ∧ '.' ∈ left then some (String.ofList label) else none := by
  have hfew : (labels left).length + 1 < minLabels ↔ '.' ∉ left := by
    rw [← one_lt_length_labels, minLabels]
    omega
  rw [label?, h, labels_append hlabel]
  simp only [hfew, List.isEmpty_iff]
  by_cases hempty : label = [] <;> by_cases hdot : '.' ∈ left <;> simp [hempty, hdot]

/-- The label of an account stands before the first point, and another point follows; it makes no
difference whether that one is looked for before the port or in the whole text. -/
theorem label?_eq_some_iff {host label : String} :
    label? host = some label ↔ label ≠ "" ∧ '.' ∉ label.toList ∧
      ∃ rest, host.toList = label.toList ++ '.' :: rest ∧ '.' ∈ rest := by
  constructor
  · intro h
    by_cases hdot : '.' ∈ withoutPort host.toList
    · obtain ⟨first, left, hhost, hfirst⟩ := List.eq_append_cons_of_mem hdot
      rw [label?_of_dotted hfirst hhost] at h
      split at h
      · next hlabel =>
        obtain rfl := Option.some.inj h
        obtain ⟨rest, hrest, hcut⟩ := portCut_dotted_iff.1 (withoutPort_eq_iff.1 hhost)
        rw [String.toList_ofList]
        refine ⟨fun hempty => hlabel.1 ?_, hfirst, rest, hrest, hcut.dot_mem_iff.1 hlabel.2⟩
        rw [← String.toList_ofList (l := first), hempty, String.toList_empty]
      · cases h
    · cases (label?_of_not_mem hdot).symm.trans h
  · rintro ⟨hne, hlabel, rest, hhost, hdot⟩
    have hcut := portCut_withoutPort rest
    have hleft := withoutPort_eq_iff.2 (portCut_dotted_iff.2 ⟨rest, hhost, hcut⟩)
    have hlabel' : label.toList ≠ [] := mt String.toList_eq_nil_iff.1 hne
    rw [label?_of_dotted hlabel hleft, if_pos ⟨hlabel', hcut.dot_mem_iff.2 hdot⟩, String.ofList_toList]

/-! ## Host names of accounts -/

/-- A host name of the account with a label: the label, which is not empty and has no points, a point,
and a text that has a point when one port at its end is cut off, if it has one. -/
def IsHostOf (label host : String) : Prop :=
  label ≠ "" ∧ '.' ∉ label.toList ∧
    ∃ (rest : String) (left : List Char), host = label ++ "." ++ rest ∧ PortCut rest.toList left ∧
      '.' ∈ left

theorem toList_dotted (label rest : String) :
    (label ++ "." ++ rest).toList = label.toList ++ '.' :: rest.toList := by
  rw [String.toList_append, String.toList_append, List.append_assoc]
  rfl

theorem isHostOf_iff {label host : String} : IsHostOf label host ↔ label? host = some label := by
  rw [label?_eq_some_iff, IsHostOf]
  refine and_congr_right fun _ => and_congr_right fun _ => ⟨?_, ?_⟩
  · rintro ⟨rest, left, rfl, hcut, hdot⟩
    exact ⟨rest.toList, toList_dotted label rest, hcut.dot_mem_iff.1 hdot⟩
  · rintro ⟨rest, hhost, hdot⟩
    refine ⟨String.ofList rest, withoutPort rest, String.toList_injective ?_, ?_, ?_⟩
    · rw [toList_dotted, String.toList_ofList, hhost]
    · rw [String.toList_ofList]
      exact portCut_withoutPort rest
    · exact (portCut_withoutPort rest).dot_mem_iff.2 hdot

/-- What is behind a point may end in a port or not. -/
theorem exists_dotted_port_iff {host label port : String} (h : IsPort port.toList) :
    (∃ rest, (host ++ ":" ++ port).toList = label.toList ++ '.' :: rest ∧ '.' ∈ rest) ↔
      ∃ rest, host.toList = label.toList ++ '.' :: rest ∧ '.' ∈ rest := by
  have hported : (host ++ ":" ++ port).toList = host.toList ++ ':' :: port.toList := by
    rw [String.toList_append, String.toList_append, List.append_assoc]
    rfl
  rw [hported]
  constructor
  · rintro ⟨rest, heq, hdot⟩
    obtain ⟨inner, hhost, rfl⟩ := (append_port_eq_iff h).1 heq.symm
    exact ⟨inner, hhost, (PortCut.cut h).dot_mem_iff.2 hdot⟩
  · rintro ⟨inner, hhost, hdot⟩
    exact ⟨inner ++ ':' :: port.toList, by rw [hhost]; simp, List.mem_append_left _ hdot⟩

theorem label?_append_port (host : String) {port : String} (h : IsPort port.toList) :
    label? (host ++ ":" ++ port) = label? host := by
  refine Option.ext fun label => ?_
  rw [label?_eq_some_iff, label?_eq_some_iff, exists_dotted_port_iff h]

/-- A text names the account whose host name it is, and no account if it is no such name.  A port at the
end makes no difference, and every label that is not empty and has no points is named by its host names. -/
theorem label_of_host_name (host : String) :
    (∀ label, label? host = some label ↔ IsHostOf label host) ∧
      (label? host = none ↔ ∀ label, ¬ IsHostOf label host) ∧
      (∀ port : String, IsPort port.toList → label? (host ++ ":" ++ port) = label? host) ∧
      ∀ label domain : String, label ≠ "" → '.' ∉ label.toList → '.' ∈ domain.toList →
        label? (label ++ "." ++ domain) = some label ∧
        ∀ port : String, IsPort port.toList →
          label? (label ++ "." ++ domain ++ ":" ++ port) = some label := by
  refine ⟨fun label => isHostOf_iff.symm, ?_, fun port => label?_append_port host, ?_⟩
  · simp only [isHostOf_iff, Option.eq_none_iff_forall_ne_some, ne_eq]
  · intro label domain hne hlabel hdot
    have hnamed : label? (label ++ "." ++ domain) = some label :=
      label?_eq_some_iff.2 ⟨hne, hlabel, domain.toList, toList_dotted label domain, hdot⟩
    exact ⟨hnamed, fun port hport => (label?_append_port _ hport).trans hnamed⟩

/-- A colon inside the label and a second port change nothing. -/
theorem label_of_host_name_sample :
    IsPort "80".toList ∧ label? "a:1.b.c:2:80" = some "a:1" ∧ IsHostOf "a:1" "a:1.b.c:2" := by
  have hport : IsPort "80".toList := ⟨by decide, by simp⟩
  obtain ⟨hiff, -, hported, -⟩ := label_of_host_name "a:1.b.c:2"
  have hnamed : label? "a:1.b.c:2" = some "a:1" :=
    ((label_of_host_name "a:1.b.c:2").2.2.2 "a:1" "b.c:2" (by decide) (by decide) (by decide)).1
  exact ⟨hport, (hported "80" hport).trans hnamed, (hiff "a:1").1 hnamed⟩

end Concierge.Tenant
