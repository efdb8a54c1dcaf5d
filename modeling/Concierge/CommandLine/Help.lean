import Concierge.CommandLine.Arguments

/-!
# Help

What is printed when somebody asks how the program is used.  Names stand in a column that is as
wide as its widest entry, with two spaces before it and two after it.
-/

namespace Concierge.CommandLine.Help

/-- A name and what it stands for. -/
structure Entry where
  name : String
  purpose : String
  deriving DecidableEq, Repr

/-- The lines of a section. -/
def listing (title : String) (entries : List Entry) : List String :=
  let width := (entries.map (·.name.length)).foldl max 0
  (title ++ ":") :: entries.map fun e =>
    "  " ++ e.name ++ "".pushn ' ' (width - e.name.length) ++ "  " ++ e.purpose

/-- A page: what it is about, the usage and the sections. -/
def page (about usage : String) (sections : List (List String)) : String :=
  "\n\n".intercalate
    (about :: ("Usage: " ++ usage) :: sections.map "\n".intercalate) ++ "\n"

/-- The name of the program. -/
def program : String := "doorbot-server"

/-- What a command does. -/
def purpose : Command → String
  | .run => "Start the server"
  | .check => "Validate configuration and exit"

/-- What the word `help` does. -/
def helpPurpose : String := "Print this message or the help of the given subcommand(s)"

/-- The option that asks for help. -/
def helpOption : Entry := ⟨"-h, --help", "Print help"⟩

/-- The options of the program. -/
def options : List Entry :=
  [⟨"-c, --config <CONFIG>", "Path to configuration file"⟩,
    ⟨"-p, --port <PORT>", "Port override for HTTP server (overrides config)"⟩,
    ⟨"    --print-config", "Print effective configuration and exit"⟩,
    ⟨"-v, --verbose...", "Log verbosity level (-v info, -vv debug, -vvv trace)"⟩,
    helpOption,
    ⟨"-V, --version", "Print version"⟩]

/-- The commands of the program. -/
def commands : List Entry :=
  [Command.run, .check].map (fun c => ⟨c.name, purpose c⟩) ++ [⟨"help", helpPurpose⟩]

/-- The text of a topic. -/
def text : Topic → String
  | .program =>
    page "Doorbot Server - knock notifications and directory sync"
      (program ++ " [OPTIONS] [COMMAND]")
      [listing "Commands" commands, listing "Options" options]
  | .command c =>
    page (purpose c) (program ++ " " ++ c.name) [listing "Options" [helpOption]]
  | .help =>
    page helpPurpose (program ++ " help [COMMAND]...")
      [listing "Arguments" [⟨"[COMMAND]...", "Print help for the subcommand(s)"⟩]]

/-- The version of the program. -/
def version : String := program ++ " 0.1.0\n"

end Concierge.CommandLine.Help
