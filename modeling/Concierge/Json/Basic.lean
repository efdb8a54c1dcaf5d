/-!
# JSON values

Members keep the order in which they were written, because printed records show it.  Numbers that
are integers of at most 64 bits are kept as integers; every other number is kept as its spelling,
since nothing in the service computes with it.
-/

namespace Concierge

/-- A JSON value. -/
inductive Json where
  | null
  | bool (b : Bool)
  | int (i : Int)
  | real (spelling : String)
  | string (s : String)
  | array (items : List Json)
  | object (members : List (String × Json))
  deriving Inhabited, Repr

namespace Json

/-- The value of a member of an object. -/
def get? (key : String) : Json → Option Json
  | .object members => members.lookup key
  | _ => none

/-- A number. -/
def nat (n : Nat) : Json := .int n

/-- A text that may be missing. -/
def optional (s : Option String) : Json :=
  match s with
  | some s => .string s
  | none => .null

/-- Replace the value of a member in place, or append the member. -/
def setMember (key : String) (value : Json) : List (String × Json) → List (String × Json)
  | [] => [(key, value)]
  | (k, v) :: rest => if k = key then (k, value) :: rest else (k, v) :: setMember key value rest

mutual

/-- Lay changes over a value: objects are merged member by member, all else is replaced. -/
def patch : Json → Json → Json
  | base, .object changes =>
    match base with
    | .object members => .object (patchMembers members changes)
    | _ => .object changes
  | _, .null => .null
  | _, .bool b => .bool b
  | _, .int i => .int i
  | _, .real r => .real r
  | _, .string s => .string s
  | _, .array items => .array items

/-- Lay changed members over the members of an object. -/
def patchMembers (members : List (String × Json)) : List (String × Json) → List (String × Json)
  | [] => members
  | (key, value) :: rest =>
    match members.lookup key with
    | some old => patchMembers (setMember key (patch old value) members) rest
    | none => patchMembers (setMember key value members) rest

end

end Json

end Concierge
