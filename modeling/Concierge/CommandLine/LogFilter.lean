import Concierge.Text.Blank
import Concierge.Text.Digit

/-!
# Log filters

A filter is a list of directives with commas between them.  A directive names a level, or a target
with a span and its fields in brackets and a level after `=`; a single word that names no level is a
target.  Only whether a filter can be read matters here, and what is wrong with it if not.
-/

namespace Concierge.CommandLine.LogFilter

/-- What is wrong with a filter. -/
inductive Fault where
  /-- A directive has not the form of one. -/
  | form
  /-- What stands in the place of a level is none. -/
  | level
  deriving DecidableEq, Repr

/-- The wording of a fault. -/
def Fault.message : Fault → String
  | .form => "invalid filter directive"
  | .level =>
    "error parsing level filter: expected one of \"off\", \"error\", \"warn\", \"info\", " ++
      "\"debug\", \"trace\", or a number 0-5"

/-- The names of the levels. -/
def levels : List String := ["off", "error", "warn", "info", "debug", "trace"]

/-- A level: its name in either case, its number, or nothing. -/
def isLevel (cs : List Char) : Bool :=
  let digits := match cs with
    | '+' :: digits => digits
    | digits => digits
  cs.isEmpty || levels.contains (String.ofList (cs.map Char.toLower)) ||
    (! digits.isEmpty && digits.all Char.isDigit && Digit.natOf digits < levels.length)

/-- Characters that a directive may start with, besides a bracket. -/
def isStart (c : Char) : Bool :=
  c == '-' || c == ':' || c == '_' || c.isAlphanum || 0x80 ≤ c.toNat

/-- The part of a directive that is being read. -/
inductive Part where
  | start
  | target
  | span
  /-- Inside a field, of which perhaps nothing was read yet. -/
  | field (isNew : Bool)
  /-- After the fields. -/
  | fields
  /-- After the span. -/
  | afterSpan
  /-- At the level. -/
  | level (text : List Char)
  deriving DecidableEq, Repr

/-- Read a directive; with blanks around it no level is recognized. -/
def directive (bare : Bool) (part : Part) : List Char → Option Fault
  | [] =>
    match part with
    | .level text => if bare && isLevel text.reverse then none else some .level
    | _ => none
  | c :: rest =>
    match part with
    | .start =>
      if c = '[' then directive bare .span rest
      else if isStart c then directive bare .target rest
      else some .form
    | .target =>
      if c = '=' then directive bare (.level []) rest
      else if c = '[' then directive bare .span rest
      else directive bare .target rest
    | .span =>
      if c = ']' then directive bare .afterSpan rest
      else if c = '\x7b' then directive bare (.field true) rest
      else directive bare .span rest
    | .field isNew =>
      if c = '\x7d' then if isNew then some .form else directive bare .fields rest
      else directive bare (.field false) rest
    | .fields => if c = ']' then directive bare .afterSpan rest else some .form
    | .afterSpan => if c = '=' then directive bare (.level []) rest else some .form
    | .level text => directive bare (.level (c :: text)) rest

/-- What is wrong with a filter, if anything is; empty directives are passed over. -/
def fault? (filter : String) : Option Fault :=
  ((filter.toList.splitOn ',').filter (! ·.isEmpty)).findSome? fun d =>
    let trimmed := Text.trimBy Text.isSpace d
    directive (d == trimmed) .start trimmed

end Concierge.CommandLine.LogFilter
