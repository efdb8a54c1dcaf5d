import Concierge.Net.Ip
import Concierge.Width

/-!
# Socket addresses

The address that the program listens on, written as a host and a port.  Hosts are addresses, never
names: four decimal octets without leading zeros, or up to eight groups in brackets, which may end
in four octets, leave out one run of zero groups and name a scope.
-/

namespace Concierge.Net

/-- An address with a port. -/
inductive SocketAddress where
  | v4 (ip : Ipv4) (port : Nat)
  | v6 (ip : Ipv6) (scope port : Nat)
  deriving DecidableEq, Repr

namespace SocketAddress

/-- Read the port at the end. -/
def port? (cs : List Char) : Option Nat := do
  match ← number? 10 (Width.count 16) none true (← sign? ':' cs) with
  | (port, []) => some port
  | _ => none

/-- Read an address with a port. -/
def ofText? (s : String) : Option SocketAddress :=
  match Ipv4.read? s.toList with
  | some (ip, rest) => (port? rest).map fun port => .v4 ip port
  | none => do
    let (ip, cs) ← Ipv6.read? (← sign? '[' s.toList)
    let (scope, cs) ← match sign? '%' cs with
      | some rest => number? 10 (Width.count 32) none true rest
      | none => some (0, cs)
    return .v6 ip scope (← port? (← sign? ']' cs))

/-- The written form. -/
def toText : SocketAddress → String
  | .v4 ip port => ip.toText ++ ":" ++ toString port
  | .v6 ip scope port =>
    "[" ++ ip.toText ++ (if scope = 0 then "" else "%" ++ toString scope) ++ "]:" ++ toString port

end SocketAddress

end Concierge.Net
