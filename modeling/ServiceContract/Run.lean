import ServiceContract.Logging.Filter
import ServiceContract.Run.Codes
import ServiceContract.Run.Settings
import ServiceContract.Run.Validate

/-!
# Runs

A run finds its settings, sets up logging and carries out its command. Without usable settings it
ends there. A log level that cannot be used is reported and does not end it.
-/

namespace ServiceContract

/-- What was found wrong when logging was set up. -/
structure LogReport where
  fault : Option SettingsFault
  warnings : List LogWarning
  deriving DecidableEq, Repr

/-- What a run leaves behind. -/
structure Outcome where
  output : String
  failure : Option Failure
  /-- None where logging was not set up. -/
  logging : Option LogReport
  tree : FileTree
  /-- Whether the failure is shown in colour. -/
  color : Bool
  deriving DecidableEq, Repr

namespace Outcome

def exitCode (outcome : Outcome) : Nat := outcome.failure.elim 0 Failure.exitCode

end Outcome

/-- Sets up logging. -/
def LogReport.of (invocation : Invocation) (settings : Settings) (environment : LogVariables) :
    LogReport :=
  let (logging, warnings) :=
    Logging.resolve invocation.verbose invocation.quiet settings.logging environment
  match LogFilter.check logging.level with
  | .ok () => ⟨none, warnings⟩
  | .error fault => ⟨some (.invalidLogLevel logging.level fault.message), warnings⟩

/-- Carries out a command. Scripts for completions are not written here. -/
def Command.run (command : Command) (settings : Settings) (format : OutputFormat)
    (named : Option Path) (world : World) : Deed :=
  match command with
  | .validate arguments =>
    let (steps, failure) := arguments.run settings.validation world
    ⟨steps, failure, world.tree⟩
  | .codes => .told world.tree (ErrorCode.steps format)
  | .settings action => action.run settings named world
  | .completions _ => .told world.tree []

namespace Invocation

/-- The format of a run: the one on the command line, or else the configured one. -/
def format (invocation : Invocation) (settings : Settings) : Except SettingsFault OutputFormat :=
  match invocation.output.or (OutputFormat.ofSetting? settings.output.format) with
  | some format => .ok format
  | none => .error (.unknownFormat settings.output.format)

/-- Whether the command line allows colours. -/
def color (invocation : Invocation) (terminal : Bool) : Bool := terminal && !invocation.noColor

/-- The settings of a run. -/
def settings (invocation : Invocation) (world : World) : Except Failure Settings :=
  Settings.effective world.tree world.settingsDirectory invocation.config

/-- Runs a command with the settings found for it. `terminal` says whether there may be colours. -/
def runWith (invocation : Invocation) (settings : Settings) (terminal : Bool) (world : World) :
    Outcome :=
  let logging := some (LogReport.of invocation settings world.logVariables)
  let color := invocation.color terminal && settings.output.color
  match invocation.format settings with
  | .error fault => ⟨"", some (.settings fault), logging, world.tree, color⟩
  | .ok format =>
    let deed := invocation.command.run settings format invocation.config world
    let output := Console.renderAll ⟨format, color, invocation.quiet⟩ deed.steps
    ⟨output, deed.failure, logging, deed.tree, color⟩

/-- A whole run. -/
def run (invocation : Invocation) (terminal : Bool) (world : World) : Outcome :=
  match invocation.settings world with
  | .error failure => ⟨"", some failure, none, world.tree, invocation.color terminal⟩
  | .ok settings => invocation.runWith settings terminal world

end Invocation

/-- The paths that a command names. -/
def Command.paths : Command → List Path
  | .validate arguments => arguments.files
  | .settings (.init path _) => [path]
  | .settings (.show _) | .settings (.get _) | .settings .path | .codes | .completions _ => []

/-- The paths that a run may look at. -/
def Invocation.paths (invocation : Invocation) (settingsDirectory : Option Path) : List Path :=
  invocation.config.elim (Settings.defaultPaths settingsDirectory) ([·]) ++ invocation.command.paths

/-- A run from its words on. -/
def World.run (world : World) (terminal : Bool) (words : List String) :
    Except CommandLine.Stop Outcome := do
  let invocation ← Invocation.read world.settingsFile words
  return invocation.run terminal world

end ServiceContract
