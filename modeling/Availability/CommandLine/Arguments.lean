/-!
# Arguments

What the arguments of the program ask for: one of its commands, help, or its version. Options of
`run` that are not given are taken from the environment.

* `read_run_nil`: without options, `run` goes by the environment alone.
* `read_nil`: a command has to be given.
-/

namespace Availability.CommandLine

/-- What the program can be told to do. -/
inductive Command where
  /-- To consume requests, from a file and into a file if these are given. -/
  | run (input output : Option String)
  /-- To print the settings. -/
  | config
  deriving DecidableEq, Repr, Inhabited

/-- What help there is about. -/
inductive Topic where
  | program
  | run
  | config
  | help
  deriving DecidableEq, Repr, Inhabited

/-- What is wrong with the arguments. -/
inductive UsageFault where
  | noCommand
  | unknownCommand (argument : String)
  | unknownArgument (argument : String)
  | missingValue (option : String)
  | unneededValue (option : String)
  | repeated (option : String)
  deriving DecidableEq, Repr, Inhabited

/-- The wording of a fault. -/
def UsageFault.message : UsageFault → String
  | .noCommand => "a command is required"
  | .unknownCommand argument => s!"unrecognized subcommand \x27{argument}\x27"
  | .unknownArgument argument => s!"unexpected argument \x27{argument}\x27 found"
  | .missingValue option => s!"a value is required for \x27{option}\x27 but none was supplied"
  | .unneededValue option => s!"unexpected value for \x27{option}\x27 found; no more were expected"
  | .repeated option => s!"the argument \x27{option}\x27 cannot be used multiple times"

/-- What the arguments ask for. -/
inductive Request where
  | command (c : Command)
  | help (t : Topic)
  | version
  | wrong (fault : UsageFault)
  deriving DecidableEq, Repr, Inhabited

/-- What an argument looks like. -/
inductive Form where
  /-- The end of the options. -/
  | escape
  /-- An option by its name, perhaps with a value. -/
  | long (name : String) (value : Option String)
  /-- An option by its letter, perhaps with others after it. -/
  | short (letter : Char)
  /-- Anything else. -/
  | value
  deriving DecidableEq, Repr, Inhabited

/-- What an argument looks like. A single hyphen is a value. -/
def Form.of (argument : String) : Form :=
  match argument.toList with
  | ['-', '-'] => .escape
  | '-' :: '-' :: r =>
    let name := r.takeWhile (· != '=')
    .long (String.ofList name)
      (match r.drop name.length with
        | _ :: attached => some (String.ofList attached)
        | [] => none)
  | '-' :: c :: _ => .short c
  | _ => .value

/-- The options of `run`. -/
structure RunOptions where
  input : Option String
  output : Option String
  deriving DecidableEq, Repr, Inhabited

/-- One of the options of `run`. -/
inductive RunOption where
  | input
  | output
  deriving DecidableEq, Repr, Inhabited

namespace RunOption

/-- The option of a name. -/
def ofName? : String → Option RunOption
  | "input" => some .input
  | "output" => some .output
  | _ => none

/-- How an option is given. -/
def flag : RunOption → String
  | .input => "--input"
  | .output => "--output"

/-- The variable of the environment that stands in for an option. -/
def variableName : RunOption → String
  | .input => "STATUSER_INPUT"
  | .output => "STATUSER_OUTPUT"

end RunOption

namespace RunOptions

/-- No options. -/
def empty : RunOptions := ⟨none, none⟩

/-- The value of an option, if it is given. -/
def get (o : RunOptions) : RunOption → Option String
  | .input => o.input
  | .output => o.output

/-- Sets an option. -/
def set (o : RunOptions) (opt : RunOption) (value : String) : RunOptions :=
  match opt with
  | .input => { o with input := some value }
  | .output => { o with output := some value }

/-- Gives an option a value, which may not be empty, for the first time. -/
def give (o : RunOptions) (opt : RunOption) (value : String) : Except UsageFault RunOptions :=
  if (o.get opt).isSome then .error (.repeated opt.flag)
  else if value = "" then .error (.missingValue opt.flag)
  else .ok (o.set opt value)

/-- Takes an option from the environment if it is not given. -/
def complete (o : RunOptions) (environment : List (String × String)) (opt : RunOption) :
    Except UsageFault RunOptions :=
  match o.get opt, environment.lookup opt.variableName with
  | none, some value => o.give opt value
  | _, _ => .ok o

end RunOptions

/-- Ends the options of `run`. -/
def endRun (environment : List (String × String)) (o : RunOptions) : Request :=
  match (o.complete environment .input).bind fun o => o.complete environment .output with
  | .ok o => .command (.run o.input o.output)
  | .error fault => .wrong fault

/-- Reads the options of `run`. What looks like an option is no value of one. -/
def readRun (environment : List (String × String)) : RunOptions → List String → Request
  | o, [] => endRun environment o
  | o, a :: r =>
    match Form.of a with
    | .escape =>
      match r with
      | [] => endRun environment o
      | x :: _ => .wrong (.unknownArgument x)
    | .long "help" none => .help .run
    | .long "help" (some _) => .wrong (.unneededValue "--help")
    | .long name attached =>
      match RunOption.ofName? name, attached with
      | none, _ => .wrong (.unknownArgument a)
      | some opt, some value =>
        match o.give opt value with
        | .ok o => readRun environment o r
        | .error fault => .wrong fault
      | some opt, none =>
        match r with
        | [] => .wrong (.missingValue opt.flag)
        | value :: r =>
          match Form.of value with
          | .value =>
            match o.give opt value with
            | .ok o => readRun environment o r
            | .error fault => .wrong fault
          | _ => .wrong (.missingValue opt.flag)
    | .short 'h' => .help .run
    | _ => .wrong (.unknownArgument a)

/-- Reads what follows `config`. -/
def readConfig : List String → Request
  | [] => .command .config
  | a :: r =>
    match Form.of a with
    | .escape =>
      match r with
      | [] => .command .config
      | x :: _ => .wrong (.unknownArgument x)
    | .long "help" none => .help .config
    | .long "help" (some _) => .wrong (.unneededValue "--help")
    | .short 'h' => .help .config
    | _ => .wrong (.unknownArgument a)

/-- Reads what follows `help`: the command that help is wanted for. -/
def readHelp : List String → Request
  | [] => .help .program
  | ["run"] => .help .run
  | ["config"] => .help .config
  | ["help"] => .help .help
  | "run" :: x :: _ => .wrong (.unknownCommand x)
  | "config" :: x :: _ => .wrong (.unknownCommand x)
  | "help" :: x :: _ => .wrong (.unknownCommand x)
  | x :: _ => .wrong (.unknownCommand x)

/-- Reads the arguments. -/
def read (arguments : List String) (environment : List (String × String)) : Request :=
  match arguments with
  | [] => .wrong .noCommand
  | "run" :: r => readRun environment .empty r
  | "config" :: r => readConfig r
  | "help" :: r => readHelp r
  | a :: r =>
    match Form.of a with
    | .escape =>
      match r with
      | [] => .wrong .noCommand
      | x :: _ => .wrong (.unknownArgument x)
    | .long "help" none => .help .program
    | .long "version" none => .version
    | .long "help" (some _) => .wrong (.unneededValue "--help")
    | .long "version" (some _) => .wrong (.unneededValue "--version")
    | .short 'h' => .help .program
    | .short 'V' => .version
    | .value => .wrong (.unknownCommand a)
    | _ => .wrong (.unknownArgument a)

theorem read_nil (environment : List (String × String)) :
    read [] environment = .wrong .noCommand := rfl

theorem read_run_nil (environment : List (String × String)) :
    read ["run"] environment = endRun environment .empty := rfl

end Availability.CommandLine
