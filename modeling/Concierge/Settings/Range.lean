import Concierge.Settings.Layers

/-!
# Numbers out of range

When layers hold no settings because a number is too large or negative, the message says which
number, what was expected, and where it was set.  Settings are read in alphabetical order, so the
first such number is named, and only if nothing before it is wrong.
-/

namespace Concierge

/-- Where a setting was set. -/
inductive Origin where
  | file
  | environment
  deriving DecidableEq, Repr

/-- A number that is out of range. -/
structure RangeFault where
  sectionName : String
  key : String
  /-- The width of the numbers that fit. -/
  bits : Nat
  value : Int
  origin : Origin
  deriving DecidableEq, Repr

namespace RangeFault

/-- The settings that are numbers, in the order in which they are read. -/
def numbers : List (String × String × Nat) :=
  [("database", "max_connections", 32), ("doorbot", "delivery_attempt_timeout_ms", 64),
    ("doorbot", "fetch_timeout_ms", 64), ("server", "port", 16),
    ("server", "request_timeout_ms", 64)]

/-- The members of a section before a key. -/
def before (key : String) : Json → Json
  | .object members => .object (members.filter fun (k, _) => k < key)
  | value => value

/-- What is read before a setting. -/
def readBefore (sectionName key : String) : Json → Json
  | .object members =>
    .object ((members.filter fun (k, _) => k < sectionName) ++
      (match members.lookup sectionName with
        | some settings => [(sectionName, before key settings)]
        | none => []))
  | table => table

/-- A setting of a table. -/
def setting? (sectionName key : String) (table : Json) : Option Json :=
  (table.get? sectionName).bind fun s => s.get? key

/-- The fault of a setting, if it is the first of a table. -/
def of? (file environment : Json) (sectionName key : String) (bits : Nat) : Option RangeFault :=
  let table := file.patch environment
  match setting? sectionName key table with
  | some (.int value) =>
    if Json.fitsWord value ∧ (value < 0 ∨ Width.count bits ≤ value) ∧
        (ProgramSettings.ofTable? (readBefore sectionName key table)).isSome then
      some ⟨sectionName, key, bits, value,
        if (setting? sectionName key environment).isSome then .environment else .file⟩
    else none
  | _ => none

/-- The first number of layers that is out of range. -/
def ofLayers? (file environment : Json) : Option RangeFault :=
  numbers.findSome? fun (sectionName, key, bits) => of? file environment sectionName key bits

/-- The wording of a fault; files are named by their paths. -/
def message (path : String) (f : RangeFault) : String :=
  "invalid value " ++ (if f.value < 0 then "signed" else "unsigned") ++ " int \x60" ++
    toString f.value ++ "\x60, expected u" ++ toString f.bits ++ " for key \"" ++
    (match f.origin with
      | .file => "default." ++ f.sectionName ++ "." ++ f.key ++ "\" in " ++ path ++ " YAML file"
      | .environment =>
        (f.sectionName ++ "." ++ f.key).map Char.toUpper ++
          "\" in \x60APP__\x60 environment variable(s)")

end RangeFault

end Concierge
