import ServiceContract.Json.Error
import ServiceContract.Path
import ServiceContract.Text.Style

/-!
# Failures

What can end a run without success. Every cause has an exit code and a message; only a wrong
combination of arguments calls for a hint at the usage.
-/

namespace ServiceContract

/-- What is wrong with settings. -/
inductive SettingsFault where
  /-- The text of a file is not what its notation asks for. -/
  | unparsable (path : Path) (detail : Option String)
  | unknownFormat (name : String)
  | noGroups
  | unknownKey (key : String)
  /-- A new file would replace one that is there. -/
  | alreadyThere (path : Path)
  | invalidLogLevel (level reason : String)
  | other (text : String)
  deriving DecidableEq, Repr

namespace SettingsFault

def message : SettingsFault → String
  | unparsable path detail =>
    "Failed to parse " ++ path.text ++ detail.elim "" fun text => ": " ++ text
  | unknownFormat name => "Unknown output format '" ++ name ++ "'"
  | noGroups => "validation.groups is empty; list at least one group or set all_groups"
  | unknownKey key => "Unknown configuration key: " ++ key
  | alreadyThere path => path.text ++ " already exists (use --force to overwrite)"
  | invalidLogLevel level reason => "Invalid log level '" ++ level ++ "': " ++ reason
  | other text => text

end SettingsFault

/-- Why a run failed. -/
inductive Failure where
  /-- The operating system refused an operation. -/
  | io (text : String)
  | validation (failed total : Nat)
  | fileNotFound (path : Path)
  | invalidFormat (path : Path) (expected reason : String)
  | settings (fault : SettingsFault)
  | invalidArguments (text : String)
  | json (error : Json.ReadError)
  | yaml
  | other (text : String)
  deriving DecidableEq, Repr

namespace Failure

def message : Failure → String
  | io text => "IO error: " ++ text
  | validation failed total =>
    "Validation failed for " ++ toString failed ++ " of " ++ toString total ++ " document(s)"
  | fileNotFound path => "File not found: " ++ path.text
  | invalidFormat path expected reason =>
    "Invalid file format for " ++ path.text ++ ": expected " ++ expected ++ " (" ++ reason ++ ")"
  | settings fault => "Configuration error: " ++ fault.message
  | invalidArguments text => "Invalid arguments: " ++ text
  | json error => "JSON error: " ++ error.message
  | yaml => "YAML error"
  | other text => text

def exitCode : Failure → Nat
  | io _ => 1
  | validation .. => 2
  | fileNotFound _ => 3
  | invalidFormat .. => 4
  | settings _ => 5
  | invalidArguments _ => 6
  | json _ => 12
  | yaml => 13
  | other _ => 99

/-- Whether a hint at the usage follows the message. -/
def showsHelp : Failure → Bool
  | invalidArguments _ => true
  | _ => false

/-- The failure as it is shown at the end of a run. -/
def report (failure : Failure) (color : Bool) : String :=
  (if color then Text.Style.boldRed.apply "Error:" else "Error:") ++ " " ++ failure.message

end Failure

end ServiceContract
