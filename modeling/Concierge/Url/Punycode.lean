/-!
# Punycode

Labels of host names with characters beyond ASCII travel as ASCII.  The ASCII characters come first;
the others are given, in the order of their numbers, by the distances between them, and each
distance is written in digits whose weights adapt to the distances before it.
-/

namespace Concierge.Punycode

/-- The value of a digit. -/
def digitValue? (c : Char) : Option Nat :=
  if 'a' ≤ c ∧ c ≤ 'z' then some (c.toNat - 'a'.toNat)
  else if 'A' ≤ c ∧ c ≤ 'Z' then some (c.toNat - 'A'.toNat)
  else if '0' ≤ c ∧ c ≤ '9' then some (c.toNat - '0'.toNat + 26)
  else none

/-- The digit of a value. -/
def digit (n : Nat) : Char :=
  if n < 26 then Char.ofNat ('a'.toNat + n) else Char.ofNat ('0'.toNat + (n - 26))

/-- The threshold of the digit at a place; places are counted in steps of 36. -/
def threshold (place bias : Nat) : Nat :=
  if place ≤ bias then 1 else if bias + 26 ≤ place then 26 else place - bias

theorem threshold_pos (place bias : Nat) : 1 ≤ threshold place bias := by
  unfold threshold
  split
  · omega
  · split <;> omega

theorem threshold_le (place bias : Nat) : threshold place bias ≤ 26 := by
  unfold threshold
  split
  · omega
  · split <;> omega

/-- Shrink a distance until it is small, counting the steps in places. -/
def shrink (distance place : Nat) : Nat × Nat :=
  if 455 < distance then shrink (distance / 35) (place + 36) else (distance, place)
termination_by distance
decreasing_by exact Nat.div_lt_self (by omega) (by omega)

/-- The bias after a distance. -/
def adapt (distance length : Nat) (first : Bool) : Nat :=
  let distance := if first then distance / 700 else distance / 2
  let (rest, place) := shrink (distance + distance / length) 0
  place + 36 * rest / (rest + 38)

/-- The digits of a distance. -/
def digits (bias place n : Nat) : List Char :=
  let t := threshold place bias
  if n < t then [digit n]
  else digit (t + (n - t) % (36 - t)) :: digits bias (place + 36) ((n - t) / (36 - t))
termination_by n
decreasing_by
  have h1 := threshold_pos place bias
  have h2 := threshold_le place bias
  calc (n - threshold place bias) / (36 - threshold place bias)
      ≤ n - threshold place bias := Nat.div_le_self _ _
    _ < n := by omega

/-- The state of writing. -/
structure Writing where
  output : List Char
  distance : Nat
  bias : Nat
  handled : Nat

/-- Pass over a character while the characters with one number are written. -/
def visit (basic current : Nat) (w : Writing) (c : Char) : Writing :=
  if c.toNat < current then { w with distance := w.distance + 1 }
  else if c.toNat = current then
    ⟨w.output ++ digits w.bias 36 w.distance, 0,
      adapt w.distance (w.handled + 1) (w.handled == basic), w.handled + 1⟩
  else w

/-- Write the characters with the given numbers, in ascending order, from the number before. -/
def writeAll (cs : List Char) (basic : Nat) : List Nat → Nat → Writing → List Char
  | [], _, w => w.output
  | current :: rest, before, w =>
    let w := { w with distance := w.distance + (current - before) * (w.handled + 1) }
    let w := cs.foldl (visit basic current) w
    writeAll cs basic rest (current + 1) { w with distance := w.distance + 1 }

/-- The written form of a label. -/
def encode (cs : List Char) : List Char :=
  let basic := cs.filter (·.toNat < 128)
  let numbers := ((cs.map (·.toNat)).filter (128 ≤ ·)).mergeSort.eraseDups
  (if basic.isEmpty then [] else basic ++ ['-']) ++
    writeAll cs basic.length numbers 128 ⟨[], 0, 72, basic.length⟩

/-- Read a distance: its value and the rest. -/
def distance? (bias : Nat) : Nat → Nat → Nat → List Char → Option (Nat × List Char)
  | _, _, _, [] => none
  | place, weight, sum, c :: rest => do
    let d ← digitValue? c
    let sum := sum + d * weight
    let t := threshold place bias
    if d < t then return (sum, rest) else distance? bias (place + 36) (weight * (36 - t)) sum rest

/-- Read distances and insert the characters they lead to. -/
def insertAll? : Nat → Nat → Nat → Nat → Bool → List Char → List Char → Option (List Char)
  | _, _, _, _, _, read, [] => some read
  | 0, _, _, _, _, _, _ :: _ => none
  | fuel + 1, number, position, bias, first, read, c :: rest => do
    let (d, rest) ← distance? bias 36 1 0 (c :: rest)
    let length := read.length + 1
    let place := position + d
    let number := number + place / length
    let position := place % length
    if ¬ number.isValidChar ∨ 0x10FFFF < number then none
    else
      insertAll? fuel number (position + 1) (adapt d length first) false
        (read.take position ++ Char.ofNat number :: read.drop position) rest

/-- The label of a written form. -/
def decode? (cs : List Char) : Option (List Char) :=
  let (basic, rest) := match cs.reverse.dropWhile (· != '-') with
    | [] => ([], cs)
    | _ :: basic => (basic.reverse, (cs.reverse.takeWhile (· != '-')).reverse)
  if basic.all (·.toNat < 128) then
    insertAll? (rest.length + 1) 128 0 72 true basic rest
  else none

end Concierge.Punycode
