import Availability.CommandLine.Help
import Availability.Log.Filter
import Availability.Rehearsal.Service
import Availability.Settings.Load

/-!
# The program

The whole program, from its arguments to what it leaves behind: it reads its arguments, loads the
settings, and then prints these or runs the service with them.

* `run_wrong`: wrong arguments end the program before it looks at anything else.
* `overridden_idem`: options given twice count as much as given once.
-/

namespace Availability.Program

open CommandLine (Command)
open Settings (Config)
open Rehearsal (World Ending)

/-- How the program ends. -/
inductive ExitCode where
  | success
  | failure
  | usage
  | crash
  deriving DecidableEq, Repr, Inhabited

/-- The number of an exit code. -/
def ExitCode.number : ExitCode → Nat
  | .success => 0
  | .failure => 1
  | .usage => 2
  | .crash => 101

/-- What surrounds the program. -/
structure Surroundings where
  arguments : List String
  environment : List (String × String)
  /-- The file with the settings, if it is there. -/
  settingsFile : Option Bytes
  /-- Whether a port can be listened on. -/
  isFree : Nat → Bool
  world : World

/-- What the program leaves behind: how it ended, what it wrote to standard output, what it
appended to which file, and what it told its log in which format. -/
structure Outcome where
  exit : ExitCode
  output : Bytes
  appended : Option (String × Bytes)
  format : Settings.LogFormat
  log : List Log.Event

namespace Outcome

/-- The program ended without a word to its log. -/
def silent (exit : ExitCode) (output : Bytes) : Outcome := ⟨exit, output, none, .pretty, []⟩

end Outcome

/-- The variable of the environment that holds a log filter. -/
def filterVariable : String := "RUST_LOG"

/-- Settings with the options of a command over them. -/
def overridden (c : Config) (input output : Option String) : Config :=
  { c with
    transport :=
      { c.transport with
        input := input <|> c.transport.input
        output := output <|> c.transport.output } }

theorem overridden_idem (c : Config) (input output : Option String) :
    overridden (overridden c input output) input output = overridden c input output := by
  cases input <;> cases output <;> rfl

/-- What settings print as. -/
def printed (c : Config) : String := Json.writePretty c.toJson ++ "\n"

/-- The filter of the log. -/
def filter (c : Config) (environment : List (String × String)) : Log.Filter :=
  Log.Filter.choose (environment.lookup filterVariable) c.telemetry.logLevel

/-- What the program tells its log before the service begins. -/
def opening (c : Config) (isFree : Nat → Bool) : List Log.Event :=
  let port := c.telemetry.metricsPort
  let metrics : List Log.Event :=
    if !c.telemetry.metricsEnabled then []
    else if isFree port then [.metricsServed port]
    else [.metricsUnavailable port]
  metrics ++ [.starting c.pipeline.batchSize c.pipeline.tickIntervalMs]

/-- What the program tells its log after the service has ended. -/
def closing : Ending → List Log.Event
  | .reported r => Log.Event.closing r
  | .failed e => [.fatal e]
  | .crashed _ => []
  | .unfinished => []

/-- How the program ends when the service has ended. -/
def exitCode : Ending → ExitCode
  | .reported _ => .success
  | .failed _ => .failure
  | .crashed _ => .crash
  | .unfinished => .failure

/-- Runs the service. -/
def serve (c : Config) (s : Surroundings) : Outcome :=
  let p := Rehearsal.Service.perform c s.world
  let events := opening c s.isFree ++ p.events ++ closing p.ending
  { exit := exitCode p.ending
    output := if c.transport.output.isSome then [] else p.written
    appended := c.transport.output.map fun path => (path, p.written)
    format := c.telemetry.logFormat
    log := events.filter (filter c s.environment).passes }

/-- Carries a command out. -/
def execute (command : Command) (s : Surroundings) : Outcome :=
  match Config.load s.settingsFile s.environment with
  | .error _ => .silent .failure []
  | .ok c =>
    match command with
    | .config => .silent .success (Utf8.encode (printed c))
    | .run input output => serve (overridden c input output) s

/-- The program. -/
def run (s : Surroundings) : Outcome :=
  match CommandLine.read s.arguments s.environment with
  | .command c => execute c s
  | .help t => .silent .success (Utf8.encode (CommandLine.helpText s.environment t))
  | .version => .silent .success (Utf8.encode CommandLine.versionText)
  | .wrong _ => .silent .usage []

theorem run_wrong {s : Surroundings} {fault : CommandLine.UsageFault}
    (h : CommandLine.read s.arguments s.environment = .wrong fault) :
    run s = .silent .usage [] := by
  simp [run, h]

end Availability.Program
