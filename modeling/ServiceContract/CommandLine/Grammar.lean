import ServiceContract.OutputFormat
import ServiceContract.Settings.File

/-!
# The grammar of the command line

A command line is read level by level: the top level, then the subcommand it names, then that
one's subcommand. Every level takes the common flags and some of its own, and either has
subcommands or may take operands, the words that are no flags.
-/

namespace ServiceContract.CommandLine

/-- The shells that completions can be asked for. -/
inductive Shell where
  | bash
  | zsh
  | fish
  | powerShell
  | elvish
  deriving DecidableEq, Repr

/-- The name of a shell on the command line. -/
def Shell.option : Shell → String
  | bash => "bash"
  | zsh => "zsh"
  | fish => "fish"
  | powerShell => "power-shell"
  | elvish => "elvish"

def Shell.all : List Shell := [bash, zsh, fish, powerShell, elvish]

def Shell.ofOption? (text : String) : Option Shell := all.find? fun shell => shell.option == text

/-- What a word must be to serve as a value. -/
inductive ValueKind where
  | text
  | path
  /-- One of the listed names, in exactly that spelling. -/
  | choice (names : List String)
  deriving DecidableEq, Repr

/-- Whether a word may be a value. -/
def ValueKind.accepts : ValueKind → String → Bool
  | text, _ => true
  | path, word => word ≠ ""
  | choice names, word => names.contains word

/-- What a flag does. -/
inductive Effect where
  /-- Is counted. -/
  | count
  /-- Is there or not; it may be given once. -/
  | mark
  /-- Takes a value; it may be given once. -/
  | value (kind : ValueKind)
  /-- Takes a value each time it is given. -/
  | values (kind : ValueKind)
  | showHelp
  | showVersion
  deriving DecidableEq, Repr

def Effect.takesValue : Effect → Bool
  | value _ | values _ => true
  | count | mark | showHelp | showVersion => false

/-- The flags of all levels. -/
inductive Flag where
  | verbose
  | quiet
  | config
  | output
  | noColor
  | help
  | version
  | allGroups
  | group
  | failFast
  | detailed
  | path
  | force
  | format
  deriving DecidableEq, Repr

namespace Flag

/-- The name after two dashes. -/
def long : Flag → String
  | verbose => "verbose"
  | quiet => "quiet"
  | config => "config"
  | output => "output"
  | noColor => "no-color"
  | help => "help"
  | version => "version"
  | allGroups => "all-groups"
  | group => "group"
  | failFast => "fail-fast"
  | detailed => "detailed"
  | path => "path"
  | force => "force"
  | format => "format"

/-- The letter after one dash, for the flags that have one. -/
def short? : Flag → Option Char
  | verbose => some 'v'
  | quiet => some 'q'
  | config => some 'c'
  | output => some 'o'
  | help => some 'h'
  | version => some 'V'
  | group => some 'g'
  | format => some 'f'
  | noColor | allGroups | failFast | detailed | path | force => none

def effect : Flag → Effect
  | verbose => .count
  | config | path => .value .path
  | output => .value (.choice (OutputFormat.all.map OutputFormat.name))
  | format => .value (.choice (FileFormat.all.map FileFormat.name))
  | group => .values .text
  | help => .showHelp
  | version => .showVersion
  | quiet | noColor | allGroups | failFast | detailed | force => .mark

def takesValue (flag : Flag) : Bool := flag.effect.takesValue

/-- The flags of every level. -/
def common : List Flag := [verbose, quiet, config, output, noColor, help, version]

/-- The pairs of flags that one level may not be given together. -/
def conflicts : List (Flag × Flag) := [(quiet, verbose), (allGroups, group)]

end Flag

/-- The words without a flag that a level takes; at least one is needed. -/
structure Operand where
  kind : ValueKind
  many : Bool
  deriving DecidableEq, Repr

/-- The levels of the command line. -/
inductive Level where
  | top
  | validate
  | codes
  | config
  | configInit
  | configShow
  | configGet
  | configPath
  | completions
  deriving DecidableEq, Repr

namespace Level

/-- The subcommands of a level. -/
def subcommands : Level → List (String × Level)
  | top =>
    [("validate", validate), ("codes", codes), ("config", config), ("completions", completions)]
  | config =>
    [("init", configInit), ("show", configShow), ("get", configGet), ("path", configPath)]
  | validate | codes | configInit | configShow | configGet | configPath | completions => []

/-- Whether a level is left by a subcommand. Such a level also knows the word `help`. -/
def branches (level : Level) : Bool := !level.subcommands.isEmpty

def subcommand? (level : Level) (word : String) : Option Level := level.subcommands.lookup word

/-- The flags of a level. -/
def flags : Level → List Flag
  | validate => Flag.common ++ [.allGroups, .group, .failFast, .detailed]
  | configInit => Flag.common ++ [.path, .force]
  | configShow => Flag.common ++ [.format]
  | top | codes | config | configGet | configPath | completions => Flag.common

def long? (level : Level) (name : String) : Option Flag :=
  level.flags.find? fun flag => flag.long == name

def short? (level : Level) (letter : Char) : Option Flag :=
  level.flags.find? fun flag => flag.short? == some letter

def operand? : Level → Option Operand
  | validate => some ⟨.path, true⟩
  | configGet => some ⟨.text, false⟩
  | completions => some ⟨.choice (Shell.all.map Shell.option), false⟩
  | top | codes | config | configInit | configShow | configPath => none

end Level

end ServiceContract.CommandLine
