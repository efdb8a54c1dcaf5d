/-!
# Blank text

Credentials count as missing when they hold nothing but white space.  White space here is the
whole Unicode class, so a token pasted with a no-break or ideographic space is blank as well.
-/

namespace Concierge.Text

/-- The Unicode characters with the property White_Space. -/
def isSpace (c : Char) : Bool :=
  let n := c.toNat
  (9 ≤ n && n ≤ 13) || n == 0x20 || n == 0x85 || n == 0xA0 || n == 0x1680 ||
    (0x2000 ≤ n && n ≤ 0x200A) || n == 0x2028 || n == 0x2029 || n == 0x202F || n == 0x205F ||
    n == 0x3000

/-- Every character that core counts as white space is white space here. -/
theorem isSpace_of_isWhitespace {c : Char} (h : c.isWhitespace = true) : isSpace c = true := by
  simp only [Char.isWhitespace, Bool.or_eq_true, decide_eq_true_eq] at h
  rcases h with ((rfl | rfl) | rfl) | rfl <;> decide

/-- Drop the items at both ends for which `p` holds. -/
def trimBy {α : Type} (p : α → Bool) (xs : List α) : List α :=
  ((xs.dropWhile p).reverse.dropWhile p).reverse

/-- A text without the white space at its ends. -/
def trim (s : String) : String := String.ofList (trimBy isSpace s.toList)

/-- A text of white space only. -/
def isBlank (s : String) : Bool := s.toList.all isSpace

/-- The trimmed text, if anything is left of it. -/
def nonBlank? (s : String) : Option String :=
  if isBlank s then none else some (trim s)

/-- The text as it stands, unless it is blank. -/
def unlessBlank? (s : String) : Option String :=
  if isBlank s then none else some s

end Concierge.Text
