import ResolutionLog.CommandLine.Arguments
import ResolutionLog.CommandLine.Files
import ResolutionLog.Fixture.Module
import ResolutionLog.Fixture.Resolution
import ResolutionLog.Settings

/-! # Runs of the program

A run reads the settings and the fixture that its command line names, and prints a report. What goes
wrong is reported as an error, and the exit code says how the run ended. -/

namespace ResolutionLog

/-- How a run ends. -/
structure RunResult where
  exitCode : UInt8
  /-- What is printed. -/
  output : String
  /-- The errors that are reported. -/
  errors : List String
deriving DecidableEq, Repr

/-- How the program is used. -/
def usage : String :=
  joinLines
    ["Replays described resolution outcomes through the binary result store and its cache.", "",
      "Usage: resgraph [OPTIONS] <COMMAND>", "", "Commands:",
      "  replay <FIXTURE>               Record, seal and materialize a result fixture",
      "  configuration <MODULE> <NAME>  Show one configuration of a module fixture", "",
      "Options:", "  -c, --config <CONFIG>          TOML configuration file with a [store] table",
      "      --spill-threshold <BYTES>  Buffered bytes before the result store spills to disk",
      "      --json                     Output in JSON format", "  -h, --help                     Print help",
      "  -V, --version                  Print version"]

/-- The name and version of the program. -/
def versionLine : String := "resgraph 0.3.1\n"

/-- The text of a report, for programs or for a terminal. -/
def showReport (json : Bool) (forPrograms : JsonValue) (forTerminal : String) : String :=
  if json then forPrograms.print ++ "\n" else forTerminal

namespace Invocation

/-- The paths of the files that a run may read. -/
def paths (i : Invocation) : List String :=
  let fixture := match i.command with
    | .replay path => path
    | .configuration path _ => path
  i.config?.toList ++ [fixture]

/-- The settings that count for a run. -/
def settings (i : Invocation) (s : Surroundings) : Except FixtureError Settings := do
  let settings ← match i.config? with
    | some path => do Settings.parse (← s.readText path)
    | none => pure Settings.default
  return settings.withThreshold i.threshold?

/-- An empty store for a run. -/
def store (settings : Settings) (s : Surroundings) : Store :=
  .start settings.store (settings.store.spillDirectory.bind s.spillFault?)

/-- What a run prints. -/
def run (i : Invocation) (s : Surroundings) : Except FixtureError String := do
  let settings ← i.settings s
  match i.command with
  | .replay path =>
    let fixture ← ResultFixture.parse (← s.readText path)
    let report ← fixture.replay (store settings s)
    return showReport i.json report.json report.render
  | .configuration path name =>
    let fixture ← ModuleFixture.parse (← s.readText path)
    let report ← fixture.inspect name
    return showReport i.json report.json report.render

end Invocation

/-- Run a command line. -/
def runArguments (words : List String) (s : Surroundings) : RunResult :=
  match Invocation.ofArguments words with
  | .error .misuse => ⟨2, "", []⟩
  | .error .version => ⟨0, versionLine, []⟩
  | .error .help => ⟨0, usage, []⟩
  | .ok invocation =>
    match invocation.run s with
    | .ok output => ⟨0, output, []⟩
    | .error e => ⟨1, "", [s!"Error: {e.message}"]⟩

end ResolutionLog
