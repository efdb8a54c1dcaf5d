import Concierge.Json.Text

/-!
# Reading records from JSON

A reader takes a tree to a value of its type, or says why not: because the text is not JSON there,
or because it is JSON of the wrong shape.  Of several faults the first one in the text counts.

Records are read from objects, where unknown members are skipped or refused and a repeated known
member is refused, and from arrays, where the fields stand in their declared order.
-/

namespace Concierge.Json

/-- Why a text was refused. -/
inductive ReadError where
  /-- The text is not JSON. -/
  | malformed
  /-- The text is JSON of the wrong shape. -/
  | unsuitable
  deriving DecidableEq, Repr

/-- A way to read a value. -/
abbrev Reader (α : Type) := Tree → Except ReadError α

/-- The refusal of a tree of the wrong kind: its own literal is read first. -/
def Tree.mismatch : Tree → ReadError
  | .damage => .malformed
  | .string none => .malformed
  | .real false => .malformed
  | _ => .unsuitable

namespace Reader

/-- Pass over a value, whatever it is. -/
def skip : Reader Unit := fun t => if t.intact then .ok () else .error .malformed

/-- Read `null`. -/
def unit : Reader Unit
  | .null => .ok ()
  | t => .error t.mismatch

/-- Read a truth value. -/
def bool : Reader Bool
  | .bool b => .ok b
  | t => .error t.mismatch

/-- Read a text. -/
def text : Reader String
  | .string (some s) => .ok s
  | t => .error t.mismatch

/-- Read an integer in a range. -/
def intIn (low high : Int) : Reader Int
  | .int i => if low ≤ i ∧ i ≤ high then .ok i else .error .unsuitable
  | t => .error t.mismatch

/-- Read a natural number below a bound. -/
def natBelow (bound : Nat) : Reader Nat := fun t =>
  (intIn 0 (bound - 1) t).map Int.toNat

/-- Read an unsigned integer of 64 bits. -/
def word64 : Reader Nat := natBelow (Width.count 64)

/-- Read a value through a partial view of it. -/
def refine {α β : Type} (r : Reader α) (view : α → Option β) : Reader β := fun t =>
  match r t with
  | .error e => .error e
  | .ok a => match view a with
    | some b => .ok b
    | none => .error .unsuitable

/-- Read a value that may be `null`. -/
def option {α : Type} (r : Reader α) : Reader (Option α)
  | .null => .ok none
  | t => (r t).map some

/-- Read items in order. -/
def items {α : Type} (r : Reader α) : List Tree → Except ReadError (List α)
  | [] => .ok []
  | t :: rest =>
    match r t with
    | .error e => .error e
    | .ok a => (items r rest).map (a :: ·)

/-- Read an array. -/
def list {α : Type} (r : Reader α) : Reader (List α)
  | .array ts => items r ts
  | t => .error t.mismatch

/-- The member of an object that comes first in the alphabet. -/
def leastMember (member : String × Tree) : List (Option String × Tree) → String × Tree
  | [] => member
  | (some key, t) :: rest => leastMember (if key < member.1 then (key, t) else member) rest
  | (none, _) :: rest => leastMember member rest

/-- Read one of several names, also written as a member of an object, where `payload` reads the
member's value; unless `surplus` is tolerated, the object has no other member.  Where it is, the
member that comes first in the alphabet counts. -/
def variantWith {α : Type} (payload : Reader Unit) (surplus : Bool) (names : List (String × α)) :
    Reader α
  | .string (some s) => match names.lookup s with
    | some a => .ok a
    | none => .error .unsuitable
  | .object ((some key, t) :: rest) =>
    let member := if surplus then leastMember (key, t) rest else (key, t)
    match names.lookup member.1 with
    | some a => match payload member.2 with
      | .error e => .error e
      | .ok () => if surplus || rest.isEmpty then .ok a else .error .malformed
    | none => .error .unsuitable
  | .object ((none, _) :: _) => .error .malformed
  | t => .error t.mismatch

/-- Read one of several names. -/
def variant {α : Type} (names : List (String × α)) : Reader α := variantWith unit false names

end Reader

/-! ## Records -/

/-- What a record tolerates beyond its fields. -/
structure Tolerance where
  /-- Members that are no fields are skipped. -/
  unknownMembers : Bool
  /-- Items after those of the fields, and members beside that of a name, are ignored. -/
  surplus : Bool
  deriving DecidableEq, Repr

namespace Tolerance

/-- Unknown members are skipped. -/
def lenient : Tolerance := ⟨true, false⟩

/-- Nothing is tolerated. -/
def strict : Tolerance := ⟨false, false⟩

end Tolerance

/-- What it means that a record has no value for a field. -/
inductive Absence where
  /-- The record is refused. -/
  | refused
  /-- In an object the field is empty; an array that ends before it is refused. -/
  | empty
  /-- The field has its default. -/
  | defaulted
  deriving DecidableEq, Repr

/-- A field of a record. -/
structure Field where
  /-- The member's key, and other keys it goes by. -/
  names : List String
  /-- Whether a value fits. -/
  check : Reader Unit
  /-- What its absence means. -/
  absence : Absence

/-- The fields of a record, and the record built from their trees. -/
structure Fields (α : Type) where
  /-- The fields in declared order. -/
  fields : List Field
  /-- The record, given each field's tree by its key. -/
  build : (String → Option Tree) → Except ReadError α

namespace Fields

/-- Forget what was read. -/
def checkOf {α : Type} (r : Reader α) : Reader Unit := fun t => (r t).map fun _ => ()

/-- A field that must be there. -/
def required {α : Type} (name : String) (r : Reader α) : Fields α where
  fields := [⟨[name], checkOf r, .refused⟩]
  build get := match get name with
    | some t => r t
    | none => .error .unsuitable

/-- A field that may be missing or `null`. -/
def optional {α : Type} (name : String) (r : Reader α) : Fields (Option α) where
  fields := [⟨[name], checkOf (Reader.option r), .empty⟩]
  build get := match get name with
    | some t => Reader.option r t
    | none => .ok none

/-- A field that may be missing under each of its keys. -/
def defaultedAs {α : Type} (name : String) (others : List String) (default : α) (r : Reader α) :
    Fields α where
  fields := [⟨name :: others, checkOf r, .defaulted⟩]
  build get := match get name with
    | some t => r t
    | none => .ok default

/-- A field that may be missing. -/
def defaulted {α : Type} (name : String) (default : α) (r : Reader α) : Fields α :=
  defaultedAs name [] default r

/-- A field that must be there under one of its keys. -/
def requiredAs {α : Type} (name : String) (others : List String) (r : Reader α) : Fields α where
  fields := [⟨name :: others, checkOf r, .refused⟩]
  build get := match get name with
    | some t => r t
    | none => .error .unsuitable

instance : Applicative Fields where
  pure a := ⟨[], fun _ => .ok a⟩
  seq f x := ⟨f.fields ++ (x ()).fields, fun get => do
    let g ← f.build get
    let a ← (x ()).build get
    return g a⟩

end Fields

/-- The field that a key names. -/
def fieldOf? (fields : List Field) (key : String) : Option Field :=
  fields.find? fun f => f.names.contains key

/-- The first key of a field, under which its tree is kept. -/
def Field.key (f : Field) : String := f.names.headD ""

/-- Go through the members of an object in order, keeping the trees of the known ones. -/
def readMembers (fields : List Field) (tolerance : Tolerance) (seen : List (String × Tree)) :
    List (Option String × Tree) → Except ReadError (List (String × Tree))
  | [] => .ok seen
  | (none, _) :: _ => .error .malformed
  | (some key, t) :: rest =>
    match fieldOf? fields key with
    | some f =>
      if (seen.lookup f.key).isSome then .error .unsuitable
      else match f.check t with
        | .error e => .error e
        | .ok () => readMembers fields tolerance ((f.key, t) :: seen) rest
    | none =>
      if tolerance.unknownMembers then
        match Reader.skip t with
        | .error e => .error e
        | .ok () => readMembers fields tolerance seen rest
      else .error .unsuitable

/-- Go through the items of an array, one for each field in order. -/
def readItems (tolerance : Tolerance) (seen : List (String × Tree)) :
    List Field → List Tree → Except ReadError (List (String × Tree))
  | [], [] => .ok seen
  | [], _ :: _ => if tolerance.surplus then .ok seen else .error .malformed
  | f :: fields, [] =>
    if f.absence = .defaulted then readItems tolerance seen fields [] else .error .unsuitable
  | f :: fields, t :: rest =>
    match f.check t with
    | .error e => .error e
    | .ok () => readItems tolerance ((f.key, t) :: seen) fields rest

/-- Every field that must be there is. -/
def complete (fields : List Field) (seen : List (String × Tree)) : Bool :=
  fields.all fun f => f.absence != .refused || (seen.lookup f.key).isSome

/-- Read a record. -/
def record {α : Type} (tolerance : Tolerance) (fs : Fields α) : Reader α
  | .object members => do
    let seen ← readMembers fs.fields tolerance [] members
    if complete fs.fields seen then fs.build fun key => seen.lookup key else .error .unsuitable
  | .array items => do
    let seen ← readItems tolerance [] fs.fields items
    fs.build fun key => seen.lookup key
  | t => .error t.mismatch

/-- Read a text from end to end. -/
def readText {α : Type} (r : Reader α) (bytes : List UInt8) : Except ReadError α :=
  match parse bytes with
  | (t, none) => match r t with
    | .error e => .error e
    | .ok _ => .error .malformed
  | (t, some rest) => match r t with
    | .error e => .error e
    | .ok a => if (skipGap rest).isEmpty then .ok a else .error .malformed

end Concierge.Json
