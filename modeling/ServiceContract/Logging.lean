import ServiceContract.Settings

/-!
# What is logged

The level and the form of log messages start from the verbosity of the command line. A settings
file may then change them, and after it the environment. A file changes the level only if the
command line asks for no verbosity. A form that is not known changes nothing and gives a warning.
-/

namespace ServiceContract

/-- The form of log messages. -/
inductive LogFormat where
  | compact
  | full
  | json
  deriving DecidableEq, Repr

/-- What is logged and how. -/
structure Logging where
  level : String
  format : LogFormat
  console : Bool
  threadIds : Bool
  sourceLocation : Bool
  spanEvents : Bool
  deriving DecidableEq, Repr

/-- The variables that matter for logging, where they are set. -/
structure LogVariables where
  level : Option String
  format : Option String
  deriving DecidableEq, Repr

namespace LogFormat

def name : LogFormat → String
  | compact => "Compact"
  | full => "Full"
  | json => "Json"

/-- The form that a setting names, in any case. -/
def ofSetting? (text : String) : Option LogFormat :=
  match String.ofList (text.toList.map Char.toLower) with
  | "compact" => some compact
  | "full" => some full
  | "json" => some json
  | _ => none

end LogFormat

/-- A form that is not known, and where it was given. -/
inductive LogWarning where
  | file (format : String)
  | environment (format : String)
  deriving DecidableEq, Repr

namespace LogWarning

def message : LogWarning → String
  | file format => "Warning: invalid log format '" ++ format ++ "' in config, ignoring"
  | environment format => "Warning: invalid WC_CONNECT_LOG_FORMAT '" ++ format ++ "', ignoring"

/-- The warnings as they appear, one a line. -/
def text (warnings : List LogWarning) : String :=
  String.join (warnings.map fun warning => warning.message ++ "\n")

end LogWarning

namespace Logging

/-- What a number of `-v` asks for. -/
def ofVerbosity (verbosity : Nat) : Logging :=
  match verbosity with
  | 0 => ⟨"warn", .compact, true, false, false, false⟩
  | 1 => ⟨"info", .compact, true, false, false, false⟩
  | 2 => ⟨"debug", .compact, true, false, true, false⟩
  | _ => ⟨"trace", .full, true, true, true, true⟩

/-- Takes over a form that is given by name. -/
def withFormat (logging : Logging) (warning : String → LogWarning) (format : Option String) :
    Logging × List LogWarning :=
  match format with
  | none => (logging, [])
  | some name =>
    match LogFormat.ofSetting? name with
    | some format => ({ logging with format }, [])
    | none => (logging, [warning name])

/-- Applies a settings file. -/
def applyFile (logging : Logging) (file : LogSettings) (verbosity : Nat) :
    Logging × List LogWarning :=
  let level := if verbosity = 0 then file.level.getD logging.level else logging.level
  { logging with level }.withFormat .file file.format

/-- Applies the environment. -/
def applyVariables (logging : Logging) (environment : LogVariables) :
    Logging × List LogWarning :=
  { logging with level := environment.level.getD logging.level }.withFormat .environment
    environment.format

/-- A quiet run logs errors only. -/
def silenced (logging : Logging) : Logging := { logging with level := "error", console := false }

/-- What a run logs: its verbosity counts only if it is not quiet. -/
def resolve (verbose : Nat) (quiet : Bool) (file : LogSettings) (environment : LogVariables) :
    Logging × List LogWarning :=
  let verbosity := if quiet then 0 else verbose
  let (logging, fileWarnings) := (ofVerbosity verbosity).applyFile file verbosity
  let (logging, variableWarnings) := logging.applyVariables environment
  (if quiet then logging.silenced else logging, fileWarnings ++ variableWarnings)

end Logging

end ServiceContract
