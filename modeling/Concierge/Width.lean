/-!
# Widths of numbers

Numbers of a fixed width are the natural numbers below a power of two; signed ones are the
integers of which half are negative.
-/

namespace Concierge.Width

/-- How many numbers there are of a width. -/
def count (bits : Nat) : Nat := Nat.pow 2 bits

/-- The least signed number of a width. -/
def least (bits : Nat) : Int := -(count (bits - 1) : Int)

/-- The greatest signed number of a width. -/
def greatest (bits : Nat) : Int := (count (bits - 1) : Int) - 1

/-- Whether an integer is a number of a width, signed or unsigned. -/
def admits (bits : Nat) (i : Int) : Bool := least bits ≤ i && i < (count bits : Int)

end Concierge.Width
