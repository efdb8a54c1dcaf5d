import Concierge.CommandLine.Program

/-!
# The executable

Collects what is around the program, runs it and prints the outcome.  The store is kept in memory
and no address is listened on, so the program ends where it would start to serve.
-/

namespace Concierge

/-- The content of a file, if it can be read. -/
def readFile? (path : String) : IO (Option (List UInt8)) := do
  try return some (← IO.FS.readBinFile path).toList
  catch _ => return none

/-- The variables of the environment, as the process was given them. -/
def processEnvironment : IO (List (String × String)) := do
  let content := Utf8.decodeLossy ((← readFile? "/proc/self/environ").getD [])
  return (content.toList.splitOn '\x00').filterMap fun entry =>
    match entry.dropWhile (· != '=') with
    | _ :: value => some (String.ofList (entry.takeWhile (· != '=')), String.ofList value)
    | [] => none

/-- The path of the settings file that the arguments name. -/
def configPath? (args : List String) : Option String :=
  match CommandLine.Arguments.read args with
  | .ok a => a.config
  | .error _ => none

/-- What is around the program. -/
def surroundings (args : List String) : IO CommandLine.Surroundings := do
  let content ← match configPath? args with
    | some path => readFile? path
    | none => pure none
  return {
    file? := fun _ => content
    environment := ← processEnvironment
    connects := fun storage => storage.dsn == "sqlite::memory:"
    binds := fun _ => false }

end Concierge

/-- Run the program and report its outcome. -/
def main (args : List String) : IO UInt32 := do
  let outcome := Concierge.CommandLine.Program.run (← Concierge.surroundings args) args
  IO.print outcome.output
  if let some line := outcome.complaint? then IO.eprintln line
  return UInt32.ofNat outcome.code
