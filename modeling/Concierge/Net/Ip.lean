import Concierge.Text.Digit

/-!
# Internet addresses

Addresses of both versions as numbers, and their written forms.  In the written form of a long
address the longest run of at least two zero groups is left out, the first one if several are
longest.
-/

namespace Concierge.Net

/-- An address of four octets. -/
structure Ipv4 where
  a : Fin 256
  b : Fin 256
  c : Fin 256
  d : Fin 256
  deriving DecidableEq, Repr

/-- An address of eight groups of 16 bits. -/
structure Ipv6 where
  groups : List (Fin 65536)
  length_groups : groups.length = 8
  deriving DecidableEq, Repr

/-! ## Reading -/

/-- Read the digits of a number in a base below a bound; at most `most` of them, and without leading
zeros unless they are allowed. -/
def number? (base bound : Nat) (most : Option Nat) (padded : Bool) (cs : List Char) :
    Option (Nat × List Char) :=
  let isDigit (c : Char) : Bool := (Digit.hex? c).any (· < base)
  let digits := cs.takeWhile isDigit
  let n := Digit.value base (digits.filterMap Digit.hex?)
  if digits.isEmpty || most.any (· < digits.length) || bound ≤ n ||
      (! padded && digits.head? == some '0' && digits.length > 1) then none
  else some (n, cs.dropWhile isDigit)

/-- Pass over a character. -/
def sign? (c : Char) : List Char → Option (List Char)
  | d :: rest => if c = d then some rest else none
  | [] => none

/-! ## Four octets -/

namespace Ipv4

/-- The address of a number. -/
def ofNat (n : Nat) : Ipv4 :=
  ⟨Fin.ofNat 256 (n / 16777216), Fin.ofNat 256 (n / 65536), Fin.ofNat 256 (n / 256),
    Fin.ofNat 256 n⟩

/-- The two groups that hold an address inside a long one. -/
def groups (ip : Ipv4) : List (Fin 65536) :=
  [Fin.ofNat _ (ip.a.val * 256 + ip.b.val), Fin.ofNat _ (ip.c.val * 256 + ip.d.val)]

/-- The written form. -/
def toText (ip : Ipv4) : String :=
  ".".intercalate ([ip.a, ip.b, ip.c, ip.d].map fun x => toString x.val)

/-- Read an octet. -/
def octet? (cs : List Char) : Option (Fin 256 × List Char) :=
  (number? 10 256 (some 3) false cs).map fun (n, rest) => (Fin.ofNat 256 n, rest)

/-- Read four octets. -/
def read? (cs : List Char) : Option (Ipv4 × List Char) := do
  let (a, cs) ← octet? cs
  let (b, cs) ← octet? (← sign? '.' cs)
  let (c, cs) ← octet? (← sign? '.' cs)
  let (d, cs) ← octet? (← sign? '.' cs)
  return (⟨a, b, c, d⟩, cs)

end Ipv4

/-! ## Eight groups -/

namespace Ipv6

/-- An address of eight groups. -/
def ofGroups? (groups : List (Fin 65536)) : Option Ipv6 :=
  if h : groups.length = 8 then some ⟨groups, h⟩ else none

/-- The address of two parts around a run of zero groups. -/
def ofParts? (head tail : List (Fin 65536)) : Option Ipv6 :=
  ofGroups? (head ++ List.replicate (8 - (head.length + tail.length)) 0 ++ tail)

/-- Read at most `room` groups; the second result says that they end in four octets. -/
def readGroups (first : Bool) : Nat → List Char → List (Fin 65536) × Bool × List Char
  | 0, cs => ([], false, cs)
  | room + 1, cs =>
    match (if first then some cs else sign? ':' cs) with
    | none => ([], false, cs)
    | some inner =>
      match (if room = 0 then none else Ipv4.read? inner) with
      | some (ip, rest) => (ip.groups, true, rest)
      | none =>
        match number? 16 65536 (some 4) true inner with
        | none => ([], false, cs)
        | some (n, rest) =>
          let (others, octets, rest) := readGroups false room rest
          (Fin.ofNat _ n :: others, octets, rest)

/-- Read a long address. -/
def read? (cs : List Char) : Option (Ipv6 × List Char) := do
  let (head, octets, cs) := readGroups true 8 cs
  if head.length = 8 then return (← ofGroups? head, cs)
  else if octets then none
  else
    let cs ← sign? ':' (← sign? ':' cs)
    let (tail, _, cs) := readGroups true (7 - head.length) cs
    return (← ofParts? head tail, cs)

/-- The runs of zero groups, as start and length. -/
def zeroRuns (start : Nat) : List (Fin 65536) → List (Nat × Nat)
  | [] => []
  | g :: rest =>
    match zeroRuns (start + 1) rest with
    | (s, n) :: runs =>
      if g = 0 then (if s = start + 1 then (start, n + 1) :: runs else (start, 1) :: (s, n) :: runs)
      else (s, n) :: runs
    | [] => if g = 0 then [(start, 1)] else []

/-- The longest run of zero groups, the first of several. -/
def longestRun (runs : List (Nat × Nat)) : Nat × Nat :=
  runs.foldl (fun best run => if run.2 > best.2 then run else best) (0, 0)

/-- Groups with colons between them. -/
def groupsText (groups : List (Fin 65536)) : String :=
  ":".intercalate (groups.map fun g => String.ofList (Nat.toDigits 16 g.val))

/-- The written form in groups only. -/
def groupText (ip : Ipv6) : String :=
  let (start, length) := longestRun (zeroRuns 0 ip.groups)
  if length < 2 then groupsText ip.groups
  else groupsText (ip.groups.take start) ++ "::" ++ groupsText (ip.groups.drop (start + length))

/-- The address of four octets inside a long one whose other groups are those of the mapping. -/
def mapped? (ip : Ipv6) : Option Ipv4 :=
  match ip.groups with
  | [0, 0, 0, 0, 0, 65535, x, y] => some (.ofNat (x.val * 65536 + y.val))
  | _ => none

/-- The written form; mapped addresses end in the form of four octets. -/
def toText (ip : Ipv6) : String :=
  match ip.mapped? with
  | some v4 => "::ffff:" ++ v4.toText
  | none => ip.groupText

end Ipv6

end Concierge.Net
