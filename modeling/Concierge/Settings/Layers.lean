import Concierge.Net.SocketAddress
import Concierge.Settings.Environment
import Concierge.Settings.Program
import Concierge.Yaml.Document

/-!
# Layers of settings

Settings come from four places: what is built in, a file, the environment and the command line.
Later places win, setting by setting; a list or a section that is no table is replaced whole.
-/

namespace Concierge

/-- What the command line sets. -/
structure Overrides where
  port : Option Nat
  /-- How often more of the log was asked for. -/
  verbosity : Nat
  deriving DecidableEq, Repr

namespace ProgramSettings

/-- Settings made of layers are read strictly, except that surplus items are ignored. -/
def tolerance : Json.Tolerance := ⟨false, true⟩

/-- The settings of a table. -/
def ofTable? (table : Json) : Option ProgramSettings := (reader tolerance table.tree).toOption

/-- The table of a file, if there is one. -/
def fileLayer? : Option String → Option Json
  | some text => Yaml.settings? text
  | none => some (.object [])

/-- The settings of a file, if there is one, and the environment. -/
def load? (file : Option String) (environment : List (String × String)) :
    Option ProgramSettings := do
  ofTable? ((← fileLayer? file).patch (Environment.layer environment))

/-- The log filter for a verbosity, if it asks for one. -/
def verboseLevel? : Nat → Option String
  | 0 => none
  | 1 => some "info"
  | 2 => some "debug"
  | _ => some "trace"

/-- Settings after those of the command line. -/
def override (s : ProgramSettings) (o : Overrides) : ProgramSettings where
  server := { s.server with port := o.port.getD s.server.port }
  database := s.database
  logging := { s.logging with level := (verboseLevel? o.verbosity).getD s.logging.level }
  service := s.service

/-- The address to listen on. -/
def listenAddress? (s : ProgramSettings) : Option Net.SocketAddress :=
  Net.SocketAddress.ofText? (s.server.bindAddr ++ ":" ++ toString s.server.port)

end ProgramSettings

end Concierge
