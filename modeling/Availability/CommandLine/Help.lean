import Availability.CommandLine.Arguments

/-!
# Help

The texts that the program shows on request: its version, and help about itself and its commands.
A help text is a line of description, the usage, and sections of two columns.
-/

namespace Availability.CommandLine

/-- The name of the program. -/
def programName : String := "statuser"

/-- What the program says of its version. -/
def versionText : String := programName ++ " 0.1.0\n"

/-- Two columns, the left one as wide as its longest entry. -/
def columns (rows : List (String × String)) : String :=
  let width := (rows.map fun r => r.1.length).foldl max 0
  String.join (rows.map fun r =>
    "  " ++ r.1 ++ String.ofList (List.replicate (width - r.1.length) ' ') ++ "  " ++ r.2 ++ "\n")

/-- A section of a help text. -/
def section_ (title : String) (rows : List (String × String)) : String :=
  "\n" ++ title ++ ":\n" ++ columns rows

/-- What each command does. -/
def about : Topic → String
  | .program => "Cloud source availability checker"
  | .run => "Consume availability requests and publish source status"
  | .config => "Print the effective configuration as JSON"
  | .help => "Print this message or the help of the given subcommand(s)"

/-- How each command is used. -/
def usage : Topic → String
  | .program => programName ++ " <COMMAND>"
  | .run => programName ++ " run [OPTIONS]"
  | .config => programName ++ " config"
  | .help => programName ++ " help [COMMAND]..."

/-- What help says of the option that asks for it. -/
def helpRow : String × String := ("-h, --help", "Print help")

/-- What help says of an option of `run`: its value in the environment is shown. -/
def optionRow (environment : List (String × String)) (opt : RunOption) (value text : String) :
    String × String :=
  let present := (environment.lookup opt.variableName).getD ""
  ("    " ++ opt.flag ++ " <" ++ value ++ ">",
    text ++ " [env: " ++ opt.variableName ++ "=" ++ present ++ "]")

/-- The sections of a help text. -/
def sections (environment : List (String × String)) : Topic → String
  | .program =>
    section_ "Commands"
        [("run", about .run), ("config", about .config), ("help", about .help)]
      ++ section_ "Options" [helpRow, ("-V, --version", "Print version")]
  | .run =>
    section_ "Options"
      [optionRow environment .input "INPUT" "Read requests from this file instead of stdin",
        optionRow environment .output "OUTPUT"
          "Append status messages to this file instead of stdout",
        helpRow]
  | .config => section_ "Options" [helpRow]
  | .help => section_ "Arguments" [("[COMMAND]...", "Print help for the subcommand(s)")]

/-- The help about a topic. -/
def helpText (environment : List (String × String)) (t : Topic) : String :=
  about t ++ "\n\nUsage: " ++ usage t ++ "\n" ++ sections environment t

/-- What the program says of wrong arguments: all of its help if there are none, else what is
wrong. -/
def complaint (environment : List (String × String)) : UsageFault → String
  | .noCommand => helpText environment .program
  | fault =>
    "error: " ++ fault.message ++ "\n\nUsage: " ++ usage .program
      ++ "\n\nFor more information, try \x27--help\x27.\n"

end Availability.CommandLine
