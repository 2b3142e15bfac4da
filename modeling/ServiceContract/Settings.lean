import ServiceContract.Failure
import ServiceContract.OutputFormat

/-!
# Settings

What a settings file holds: the scope of checks, how output is written, and what is logged. Every
field has a default, and a file may leave out any field or section.
-/

namespace ServiceContract

/-- How output is written. -/
structure OutputSettings where
  format : String
  color : Bool
  progress : Bool
  deriving DecidableEq, Repr

/-- What is logged and how, where a file says so. -/
structure LogSettings where
  level : Option String
  format : Option String
  deriving DecidableEq, Repr

/-- The settings of a run. -/
structure Settings where
  validation : Scope
  output : OutputSettings
  logging : LogSettings
  deriving DecidableEq, Repr

namespace OutputSettings

def default : OutputSettings := ⟨"human", true, true⟩

def form : Form OutputSettings :=
  .record "OutputConfig" true
    (.cons "format" .text (some default.format) (.cons "color" .flag (some default.color)
      (.cons "progress" .flag (some default.progress) .nil)))
    (fun (format, color, progress, _) => ⟨format, color, progress⟩)
    (fun s => (s.format, s.color, s.progress, ()))

end OutputSettings

namespace LogSettings

def default : LogSettings := ⟨none, none⟩

def form : Form LogSettings :=
  .record "LoggingConfig" true
    (.cons "level" (.option .text) (some none) (.cons "format" (.option .text) (some none) .nil))
    (fun (level, format, _) => ⟨level, format⟩)
    (fun s => (s.level, s.format, ()))

end LogSettings

namespace Settings

def default : Settings := ⟨.default, .default, .default⟩

def form : Form Settings :=
  .record "Config" true
    (.cons "validation" Scope.form (some default.validation)
      (.cons "output" OutputSettings.form (some default.output)
        (.cons "logging" LogSettings.form (some default.logging) .nil)))
    (fun (validation, output, logging, _) => ⟨validation, output, logging⟩)
    (fun s => (s.validation, s.output, s.logging, ()))

/-- Rejects settings that could not be used. -/
def validate (s : Settings) : Except SettingsFault Unit :=
  if (OutputFormat.ofSetting? s.output.format).isNone then .error (.unknownFormat s.output.format)
  else if !s.validation.allGroups && s.validation.groups.isEmpty then .error .noGroups
  else .ok ()

def flagText (b : Bool) : String := if b then "true" else "false"

/-- The value under a dotted key, as text. -/
def get? (s : Settings) (key : String) : Option String :=
  match key with
  | "validation.groups" => some (String.intercalate "," s.validation.groups)
  | "validation.all_groups" => some (flagText s.validation.allGroups)
  | "output.format" => some s.output.format
  | "output.color" => some (flagText s.output.color)
  | "output.progress" => some (flagText s.output.progress)
  | "logging.level" => some (s.logging.level.getD "")
  | "logging.format" => some (s.logging.format.getD "")
  | _ => none

end Settings

end ServiceContract
