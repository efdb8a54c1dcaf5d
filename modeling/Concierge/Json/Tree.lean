import Concierge.Json.Basic
import Concierge.Width

/-!
# Trees of JSON texts

A reader of records meets the faults of a text in the order in which they stand there, and does not
meet a fault inside a member that it skips.  So a tree keeps what a text says as far as it can be
read: `damage` stands where the text stops being JSON, and a literal that is well-formed but denotes
no text or no number is kept as such.  A JSON value is the tree without any of these.
-/

namespace Concierge.Json

/-- What a text says, with its faults in place. -/
inductive Tree where
  | null
  | bool (b : Bool)
  | int (i : Int)
  /-- A number that is no integer of 64 bits; `finite` says that it is within double precision. -/
  | real (finite : Bool)
  /-- A text literal; none if it holds a lone surrogate or ill-formed UTF-8. -/
  | string (text : Option String)
  | array (items : List Tree)
  | object (members : List (Option String × Tree))
  /-- Nothing readable follows. -/
  | damage
  deriving Inhabited, Repr

/-- Integers of at most 64 bits, signed or unsigned, keep their value. -/
def fitsWord (i : Int) : Bool := Width.admits 64 i

mutual

/-- The tree of a value. -/
def tree : Json → Tree
  | .null => .null
  | .bool b => .bool b
  | .int i => if fitsWord i then .int i else .real true
  | .real _ => .real true
  | .string s => .string (some s)
  | .array items => .array (treeItems items)
  | .object members => .object (treeMembers members)

/-- The trees of the items of an array. -/
def treeItems : List Json → List Tree
  | [] => []
  | item :: rest => tree item :: treeItems rest

/-- The trees of the members of an object. -/
def treeMembers : List (String × Json) → List (Option String × Tree)
  | [] => []
  | (key, value) :: rest => (some key, tree value) :: treeMembers rest

end

namespace Tree

mutual

/-- Nothing in the tree is damaged; ill literals do not count. -/
def intact : Tree → Bool
  | .array items => intactItems items
  | .object members => intactMembers members
  | .damage => false
  | _ => true

/-- No item is damaged. -/
def intactItems : List Tree → Bool
  | [] => true
  | item :: rest => intact item && intactItems rest

/-- No member is damaged. -/
def intactMembers : List (Option String × Tree) → Bool
  | [] => true
  | (_, value) :: rest => intact value && intactMembers rest

end

mutual

/-- Nothing in the tree is damaged and every literal denotes something. -/
def clean : Tree → Bool
  | .real finite => finite
  | .string text => text.isSome
  | .array items => cleanItems items
  | .object members => cleanMembers members
  | .damage => false
  | _ => true

/-- Every item is clean. -/
def cleanItems : List Tree → Bool
  | [] => true
  | item :: rest => clean item && cleanItems rest

/-- Every member is clean, its key included. -/
def cleanMembers : List (Option String × Tree) → Bool
  | [] => true
  | (key, value) :: rest => key.isSome && clean value && cleanMembers rest

end

mutual

/-- How deeply arrays and objects are nested. -/
def depth : Tree → Nat
  | .array items => depthItems items + 1
  | .object members => depthMembers members + 1
  | _ => 0

/-- The depth of the deepest item. -/
def depthItems : List Tree → Nat
  | [] => 0
  | item :: rest => max (depth item) (depthItems rest)

/-- The depth of the deepest member. -/
def depthMembers : List (Option String × Tree) → Nat
  | [] => 0
  | (_, value) :: rest => max (depth value) (depthMembers rest)

end

end Tree

end Concierge.Json
