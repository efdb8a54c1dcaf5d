import Concierge.CommandLine.Help
import Concierge.CommandLine.LogFilter
import Concierge.Http.Providers
import Concierge.Settings.Range
import Concierge.Text.Utf8

/-!
# The program

What the program does with its arguments, up to the point where it serves.  Everything it finds
around it, the files, the variables, the storage, the means of encryption and the network, is given;
the outcome says what was printed and whether it failed, or with which settings and on which address
it serves.
-/

namespace Concierge.CommandLine

/-- What the program finds around it. -/
structure Surroundings where
  /-- The content of a file; none if there is no file at a path. -/
  file? : String → Option (List UInt8)
  /-- The variables of the environment. -/
  environment : List (String × String)
  /-- Whether the storage can be reached. -/
  connects : DatabaseSettings → Bool
  /-- The storage's words for why its tables cannot be made ready; none if they can. -/
  migrationFault? : DatabaseSettings → Option String := fun _ => none
  /-- Why there is no client for outgoing requests; none if there is one. -/
  clientFault? : Option String := none
  /-- Whether an address can be listened on. -/
  binds : Net.SocketAddress → Bool

/-- Why the program fails. -/
inductive Failure where
  | noFile (path : String)
  /-- The layers hold no settings. -/
  | unsuitable
  | outOfRange (path : String) (fault : RangeFault)
  | logFilter (fault : LogFilter.Fault)
  | listenAddress
  | storage
  | migration (reason : String)
  | provider (address : ProviderSettings.InvalidAddress)
  | client (reason : String)
  | bind (address : Net.SocketAddress)
  deriving DecidableEq, Repr

/-- The wording of a failure. -/
def Failure.message : Failure → String
  | .noFile path => "config file does not exist: " ++ path
  | .unsuitable => "unsuitable configuration"
  | .outOfRange path fault => fault.message path
  | .logFilter fault => fault.message
  | .listenAddress => "invalid socket address syntax"
  | .storage => "failed to connect to database"
  | .migration reason => reason
  | .provider address => address.message
  | .client reason => reason
  | .bind address => "failed to bind " ++ address.toText

/-- How the program ends, or that it serves. -/
inductive Outcome where
  /-- The program did what was asked and printed a text. -/
  | done (output : String)
  /-- The arguments cannot be understood. -/
  | misused
  | failed (failure : Failure)
  | serving (settings : ProgramSettings) (address : Net.SocketAddress)
  deriving DecidableEq, Repr

namespace Outcome

/-- The exit code; serving ends well. -/
def code : Outcome → Nat
  | .done _ | .serving _ _ => 0
  | .failed _ => 1
  | .misused => 2

/-- What was printed. -/
def output : Outcome → String
  | .done output => output
  | _ => ""

/-- The line in which a failure or misuse is reported. -/
def complaint? : Outcome → Option String
  | .misused => some "error: unexpected arguments; for more information, try '--help'."
  | .failed failure => some ("Error: " ++ failure.message)
  | _ => none

end Outcome

namespace Program

/-- The variable that sets the log filter over the configured one. -/
def filterVariable : String := "RUST_LOG"

/-- The settings file that is named by the arguments, if one is. -/
def fileText (around : Surroundings) : Option String → Except Failure (Option String)
  | none => .ok none
  | some path =>
    match around.file? path with
    | none => .error (.noFile path)
    | some content =>
      match Utf8.decode? content with
      | some text => .ok (some text)
      | none => .error .unsuitable

/-- The settings of the file and the environment. -/
def settings (around : Surroundings) (path : Option String) : Except Failure ProgramSettings := do
  let text ← fileText around path
  match ProgramSettings.load? text around.environment with
  | some s => return s
  | none =>
    match (ProgramSettings.fileLayer? text).bind fun file =>
        RangeFault.ofLayers? file (Environment.layer around.environment) with
    | some fault => throw (.outOfRange (path.getD "") fault)
    | none => throw .unsuitable

/-- The filter of the log can be read: that of the environment, or else the configured one. -/
def checkFilter (around : Surroundings) (s : ProgramSettings) : Except Failure Unit :=
  match (around.environment.lookup filterVariable).map LogFilter.fault? with
  | some none => .ok ()
  | _ =>
    match LogFilter.fault? s.logging.level with
    | none => .ok ()
    | some fault => .error (.logFilter fault)

/-- The address to listen on. -/
def listenAddress (s : ProgramSettings) : Except Failure Net.SocketAddress :=
  match s.listenAddress? with
  | some address => .ok address
  | none => .error .listenAddress

/-- Everything that is made ready before the program serves, in order. -/
def start (around : Surroundings) (s : ProgramSettings) : Except Failure Net.SocketAddress := do
  if ! around.connects s.database then throw .storage
  if let some reason := around.migrationFault? s.database then throw (.migration reason)
  if let some address := s.service.providers.invalidAddress? then throw (.provider address)
  if let some reason := around.clientFault? then throw (.client reason)
  let address ← listenAddress s
  if around.binds address then return address else throw (.bind address)

/-- Do what the arguments ask for. -/
def perform (around : Surroundings) (a : Arguments) : Except Failure Outcome := do
  let s := (← settings around a.config).override ⟨a.port, a.verbosity⟩
  if a.printConfig then
    return .done ("Effective configuration:\n" ++ s.toJson.indented ++ "\n")
  checkFilter around s
  match a.command.getD .run with
  | .check =>
    let _ ← listenAddress s
    return .done ("Configuration is valid\n" ++ s.toJson.indented ++ "\n")
  | .run => return .serving s (← start around s)

/-- Run the program. -/
def run (around : Surroundings) (args : List String) : Outcome :=
  match Arguments.read args with
  | .error .misuse => .misused
  | .error (.help topic) => .done (Help.text topic)
  | .error .version => .done Help.version
  | .ok a =>
    match perform around a with
    | .ok outcome => outcome
    | .error failure => .failed failure

end Program

end Concierge.CommandLine
