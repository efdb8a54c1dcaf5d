import Concierge.Text.Digit
import Concierge.Width

/-!
# Arguments of the command line

Options come before the command.  They are written out, with a value after `=` or in the next
argument, or as single letters, several of which may share one hyphen.  Except for the verbosity
each option is given once.  A value in an argument of its own is looked at when the next option
comes or nothing follows, so help on a command is given even after a bad value.
-/

namespace Concierge.CommandLine

/-- What the program is asked to do. -/
inductive Command where
  /-- Start the server. -/
  | run
  /-- Look at the settings and end. -/
  | check
  deriving DecidableEq, Repr

namespace Command

/-- The name of a command. -/
def name : Command → String
  | .run => "run"
  | .check => "check"

/-- The commands by name. -/
def names : List (String × Command) := [Command.run, .check].map fun c => (c.name, c)

end Command

/-- The arguments. -/
structure Arguments where
  /-- The path of the settings file. -/
  config : Option String
  port : Option Nat
  /-- Only print the settings. -/
  printConfig : Bool
  /-- How often more of the log was asked for. -/
  verbosity : Nat
  command : Option Command
  deriving DecidableEq, Repr

/-- No arguments. -/
def Arguments.none : Arguments := ⟨.none, .none, false, 0, .none⟩

/-- What help may be about. -/
inductive Topic where
  | program
  | command (command : Command)
  | help
  deriving DecidableEq, Repr

/-- Why reading ends before the arguments do. -/
inductive Halt where
  | misuse
  | help (topic : Topic)
  | version
  deriving DecidableEq, Repr

/-- An option with a value. -/
inductive Setting where
  | config
  | port
  deriving DecidableEq, Repr

/-- An option. -/
inductive Switch where
  | setting (setting : Setting)
  | printConfig
  | verbose
  | help
  | version
  deriving DecidableEq, Repr

namespace Switch

/-- The options as they are written out. -/
def words : List (String × Switch) :=
  [("config", .setting .config), ("port", .setting .port), ("print-config", .printConfig),
    ("verbose", .verbose), ("help", .help), ("version", .version)]

/-- The options of one letter. -/
def letters : List (Char × Switch) :=
  [('c', .setting .config), ('p', .setting .port), ('v', .verbose), ('h', .help), ('V', .version)]

end Switch

/-- The arguments as far as they were read. -/
structure Draft where
  arguments : Arguments
  /-- A value that was not looked at yet. -/
  waiting : Option (Setting × String)
  deriving DecidableEq, Repr

namespace Draft

/-- Nothing was read. -/
def empty : Draft := ⟨.none, none⟩

/-- A port: a decimal number, with or without a plus sign. -/
def port? (value : String) : Option Nat :=
  let digits := match value.toList with
    | '+' :: digits => digits
    | digits => digits
  if ! digits.isEmpty && digits.all Char.isDigit && Digit.natOf digits < Width.count 16 then
    some (Digit.natOf digits)
  else if value.startsWith "-" && 1 < value.length && (value.toList.drop 1).all (· == '0') then
    some 0
  else none

/-- Take the value of an option. -/
def assign (a : Arguments) (setting : Setting) (value : String) : Except Halt Arguments :=
  match setting with
  | .config =>
    if a.config.isSome || value.isEmpty then .error .misuse
    else .ok { a with config := some value }
  | .port =>
    if a.port.isSome then .error .misuse
    else match port? value with
      | some port => .ok { a with port := some port }
      | none => .error .misuse

/-- Take the value that was waiting. -/
def settle (d : Draft) : Except Halt Arguments :=
  match d.waiting with
  | some (setting, value) => assign d.arguments setting value
  | none => .ok d.arguments

/-- An option without a value. -/
def turn (a : Arguments) : Switch → Except Halt Arguments
  | .printConfig => if a.printConfig then .error .misuse else .ok { a with printConfig := true }
  | .verbose => .ok { a with verbosity := a.verbosity + 1 }
  | .help => .error (.help .program)
  | .version => .error .version
  | .setting _ => .error .misuse

/-- A written-out option, perhaps with a value; an option whose value is still to come is the second
result. -/
def word (a : Arguments) (text : List Char) : Except Halt (Arguments × Option Setting) :=
  let value := match text.dropWhile (· != '=') with
    | _ :: value => some (String.ofList value)
    | [] => none
  match Switch.words.lookup (String.ofList (text.takeWhile (· != '='))), value with
  | some (.setting s), some value => (assign a s value).map fun a => (a, none)
  | some (.setting s), none => .ok (a, some s)
  | some switch, none => (turn a switch).map fun a => (a, none)
  | _, _ => .error .misuse

/-- The rest of a cluster as the value of an option. -/
def attached? : List Char → Option String
  | [] => none
  | '=' :: value => some (String.ofList value)
  | value => some (String.ofList value)

/-- Options of one letter; the rest after one with a value is its value. -/
def cluster (a : Arguments) : List Char → Except Halt (Arguments × Option Setting)
  | [] => .ok (a, none)
  | c :: rest =>
    match Switch.letters.lookup c with
    | some (.setting s) =>
      match attached? rest with
      | some value => (assign a s value).map fun a => (a, none)
      | none => .ok (a, some s)
    | some switch =>
      match turn a switch with
      | .ok a => cluster a rest
      | .error halt => .error halt
    | none => .error .misuse

/-- An argument that may be the value of the option before it. -/
def isValue (s : String) : Bool := ! s.startsWith "-" || s == "-"

/-- The arguments after a command: none but a request for help. -/
def afterCommand (d : Draft) (command : Command) : List String → Except Halt Arguments
  | [] => d.settle.map fun a => { a with command := some command }
  | next :: rest =>
    if next == "--help" || next.startsWith "-h" then .error (.help (.command command))
    else if next == "--" && rest.isEmpty then
      d.settle.map fun a => { a with command := some command }
    else .error .misuse

/-- The arguments after the word `help`. -/
def afterHelp : List String → Halt
  | [] => .help .program
  | [topic] =>
    if topic == "help" then .help .help
    else match Command.names.lookup topic with
      | some command => .help (.command command)
      | none => .misuse
  | _ => .misuse

/-- Read arguments. -/
def scan (d : Draft) : List String → Except Halt Arguments
  | [] => d.settle
  | argument :: rest =>
    match Command.names.lookup argument with
    | some command => afterCommand d command rest
    | none =>
      if argument == "help" then .error (afterHelp rest)
      else if argument == "--" then if rest.isEmpty then d.settle else .error .misuse
      else
        let step := d.settle.bind fun a => match argument.toList with
          | '-' :: '-' :: text => word a text
          | '-' :: c :: letters => cluster a (c :: letters)
          | _ => .error .misuse
        match step with
        | .error halt => .error halt
        | .ok (a, none) => scan ⟨a, none⟩ rest
        | .ok (a, some setting) =>
          match rest with
          | value :: rest =>
            if isValue value then scan ⟨a, some (setting, value)⟩ rest else .error .misuse
          | [] => .error .misuse

end Draft

/-- Read the arguments of the command line. -/
def Arguments.read (args : List String) : Except Halt Arguments := Draft.empty.scan args

end Concierge.CommandLine
