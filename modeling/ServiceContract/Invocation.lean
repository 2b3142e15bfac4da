import ServiceContract.CommandLine.Reading

/-!
# Invocations

What a command line asks for: a command with its arguments, and what holds for every command. A
common flag may stand at any level. Of the values given for it at several levels the innermost one
counts, and the environment only where there is none; a count is that of the innermost level that
has any.
-/

namespace ServiceContract

open CommandLine

/-- What to validate, and how. -/
structure ValidateArguments where
  files : List Path
  allGroups : Bool
  groups : List String
  failFast : Bool
  detailed : Bool
  deriving DecidableEq, Repr

/-- What to do with the settings. -/
inductive SettingsAction where
  | init (path : Path) (force : Bool)
  | show (format : FileFormat)
  | get (key : String)
  | path
  deriving DecidableEq, Repr

inductive Command where
  | validate (arguments : ValidateArguments)
  | codes
  | settings (action : SettingsAction)
  | completions (shell : Shell)
  deriving DecidableEq, Repr

/-- A command and what holds for every command. -/
structure Invocation where
  verbose : Nat
  quiet : Bool
  config : Option Path
  output : Option OutputFormat
  noColor : Bool
  command : Command
  deriving DecidableEq, Repr

/-- Counts go up to here. -/
def Invocation.countLimit : Nat := 255

namespace Command

/-- The file that `config init` writes when none is named. -/
def initPath : Path := ⟨".wc-connect.toml"⟩

/-- The command that the innermost level stands for. -/
def ofReading (level : Level) (r : Reading) : Except Stop Command :=
  match level with
  | .top | .config => .error .missingSubcommand
  | .validate =>
    .ok (.validate
      { files := r.operands.map Path.mk
        allGroups := r.has .allGroups
        groups := r.values .group
        failFast := r.has .failFast
        detailed := r.has .detailed })
  | .codes => .ok .codes
  | .configInit =>
    .ok (.settings (.init (((r.values .path).head?.map Path.mk).getD initPath) (r.has .force)))
  | .configShow =>
    .ok (.settings (.show (((r.values .format).head?.bind FileFormat.ofName?).getD .toml)))
  | .configGet =>
    match r.operands with
    | [] => .error .missingOperand
    | key :: _ => .ok (.settings (.get key))
  | .configPath => .ok (.settings .path)
  | .completions =>
    match r.operands with
    | [] => .error .missingOperand
    | name :: _ =>
      match Shell.ofOption? name with
      | some shell => .ok (.completions shell)
      | none => .error .badValue

end Command

namespace Invocation

/-- The value of a flag at the innermost level that has one. -/
def innermostValue? (levels : List (Level × Reading)) (flag : Flag) : Option String :=
  (levels.reverse.flatMap fun level => level.2.values flag).head?

/-- How often a flag stands at the innermost level that has it. -/
def innermostCount (levels : List (Level × Reading)) (flag : Flag) : Nat :=
  ((levels.reverse.map fun level => min (level.2.count flag) countLimit).find? (0 < ·)).getD 0

/-- Whether a flag stands at some level. -/
def given (levels : List (Level × Reading)) (flag : Flag) : Bool :=
  levels.any fun level => level.2.has flag

/-- The invocation that the levels of a command line ask for, the outermost level first. -/
def ofLevels (environment : Option String) (levels : List (Level × Reading)) :
    Except Stop Invocation :=
  match levels.getLast? with
  | none => .error .missingSubcommand
  | some (level, r) => do
    let command ← Command.ofReading level r
    return {
      verbose := innermostCount levels .verbose
      quiet := given levels .quiet
      config := ((innermostValue? levels .config).or environment).map Path.mk
      output := (innermostValue? levels .output).bind OutputFormat.ofName?
      noColor := given levels .noColor
      command }

/-- Reads a command line. The environment may name the settings file. -/
def read (environment : Option String) (texts : List String) : Except Stop Invocation := do
  let levels ← CommandLine.read environment texts
  ofLevels environment levels

/-- How much is to be logged. -/
def verbosity (invocation : Invocation) : Nat :=
  if invocation.quiet then 0 else invocation.verbose

end Invocation

end ServiceContract
