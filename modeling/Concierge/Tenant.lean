import Concierge.Text.Digit

/-!
# Tenants by host name

An account is served on every host name of at least three labels whose first label is the account's
own.  A numeric port at the end of the host name is no part of it.
-/

namespace Concierge.Tenant

/-- Split at the last occurrence of a character. -/
def splitLast? (mark : Char) (cs : List Char) : Option (List Char × List Char) :=
  match cs.reverse.dropWhile (· != mark) with
  | [] => none
  | _ :: before => some (before.reverse, (cs.reverse.takeWhile (· != mark)).reverse)

/-- A decimal digit. -/
def isDigit (c : Char) : Bool := (Digit.decimal? c).isSome

/-- A host name without the port. -/
def withoutPort (cs : List Char) : List Char :=
  match splitLast? ':' cs with
  | some (name, port) => if ! port.isEmpty && port.all isDigit then name else cs
  | none => cs

/-- Tenants are served below a domain of at least two labels. -/
def minLabels : Nat := 3

/-- The labels of a host name. -/
def labels (cs : List Char) : List (List Char) := cs.splitOn '.'

/-- The label that names an account, if the host name is a tenant's. -/
def label? (host : String) : Option String :=
  match labels (withoutPort host.toList) with
  | first :: others =>
    if others.length + 1 < minLabels ∨ first.isEmpty then none else some (String.ofList first)
  | [] => none

end Concierge.Tenant
