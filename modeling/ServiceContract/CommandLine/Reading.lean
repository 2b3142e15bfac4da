import ServiceContract.CommandLine.Grammar
import ServiceContract.CommandLine.Word

/-!
# Reading a command line

A level reads words until one names a subcommand, and the rest is read by that one's level. A flag
that takes a value takes the next plain word if none is attached to it. After the word `--` only
operands follow.

The flag or the operands read last stay open until something else comes: only then are they
checked. So a word that no level knows is reported before a bad value in front of it. When the
words of a level are at an end, the level as a whole is checked; an inner level is checked before
the one around it.
-/

namespace ServiceContract.CommandLine

/-- Why a command line names no run. -/
inductive Stop where
  | help
  | version
  /-- Nothing at all is said where a subcommand is needed. -/
  | nothingSaid
  | missingSubcommand
  | missingOperand
  | unknownFlag
  | unknownSubcommand
  | badValue
  /-- A value is attached to a flag that takes none. -/
  | needlessValue
  /-- Flags exclude each other, or one that may be given once is given again. -/
  | conflict
  deriving DecidableEq, Repr

/-- Asking for help or for the version is no error. -/
def Stop.exitCode : Stop → Nat
  | help | version => 0
  | nothingSaid | missingSubcommand | missingOperand | unknownFlag | unknownSubcommand | badValue
  | needlessValue | conflict => 2

/-- A flag that was given, with its value if it takes one. -/
structure Occurrence where
  flag : Flag
  value : Option String
  deriving DecidableEq, Repr

/-- What has been read last and is not checked yet. -/
inductive Pending where
  | nothing
  | flag (flag : Flag) (value : Option String)
  | operands (words : List String)
  deriving DecidableEq, Repr

/-- What a level has read so far. -/
structure Reading where
  given : List Occurrence
  operands : List String
  pending : Pending
  /-- Whether only operands follow. -/
  literal : Bool
  deriving DecidableEq, Repr

namespace Reading

def empty : Reading := ⟨[], [], .nothing, false⟩

def has (r : Reading) (flag : Flag) : Bool := r.given.any (·.flag == flag)

/-- How often a flag was given. -/
def count (r : Reading) (flag : Flag) : Nat := r.given.countP (·.flag == flag)

/-- The values of a flag, in order. -/
def values (r : Reading) (flag : Flag) : List String :=
  (r.given.filter (·.flag == flag)).filterMap (·.value)

/-- The flag whose value is to come. -/
def awaiting? (r : Reading) : Option Flag :=
  match r.pending with
  | .flag flag none => if r.literal then none else some flag
  | .flag _ (some _) => none
  | .nothing => none
  | .operands _ => none

def push (r : Reading) (flag : Flag) (value : Option String) : Reading :=
  { r with given := r.given ++ [⟨flag, value⟩] }

/-- Checks a flag that may be given once. -/
def pushOnce (r : Reading) (flag : Flag) (value : Option String) : Except Stop Reading :=
  if r.has flag then .error .conflict else .ok (r.push flag value)

/-- Checks a value. -/
def checked (kind : ValueKind) (word : String) : Except Stop Unit :=
  if kind.accepts word then .ok () else .error .badValue

/-- Checks a flag and keeps it. -/
def record (r : Reading) (flag : Flag) (value : Option String) : Except Stop Reading :=
  match flag.effect, value with
  | .count, _ => .ok (r.push flag none)
  | .mark, _ => r.pushOnce flag none
  | .value _, none => .error .badValue
  | .value kind, some word => do
    let r ← r.pushOnce flag (some word)
    checked kind word
    return r
  | .values _, none => .error .badValue
  | .values kind, some word => do
    checked kind word
    return r.push flag (some word)
  | .showHelp, _ => .error .help
  | .showVersion, _ => .error .version

/-- Checks what is pending and keeps it. -/
def settle (level : Level) (r : Reading) : Except Stop Reading :=
  match r.pending with
  | .nothing => .ok r
  | .flag flag value => { r with pending := .nothing }.record flag value
  | .operands words =>
    if words.all fun word => level.operand?.all (·.kind.accepts word) then
      .ok { r with operands := r.operands ++ words, pending := .nothing }
    else .error .badValue

/-- Reads a flag that stands complete. -/
def complete (level : Level) (r : Reading) (flag : Flag) (value : Option String) :
    Except Stop Reading := do
  (← r.settle level).record flag value

/-- Reads a flag whose value is to come. -/
def await (level : Level) (r : Reading) (flag : Flag) : Except Stop Reading := do
  let r ← r.settle level
  return { r with pending := .flag flag none }

/-- Reads a long flag. -/
def long (level : Level) (r : Reading) (name : String) (value : Option String) :
    Except Stop Reading :=
  match level.long? name with
  | none => .error .unknownFlag
  | some flag =>
    match flag.takesValue, value with
    | true, none => r.await level flag
    | true, some word => r.complete level flag (some word)
    | false, none => r.complete level flag none
    | false, some _ => .error .needlessValue

/-- Reads a cluster of short flags. What follows the letter of a flag that takes a value is that
value. -/
def cluster (level : Level) : Reading → List Char → Except Stop Reading
  | r, [] => .ok r
  | r, letter :: letters =>
    match level.short? letter with
    | none => .error .unknownFlag
    | some flag =>
      if flag.takesValue then
        match Word.attached letters with
        | none => r.await level flag
        | some value => r.complete level flag (some value)
      else do
        let r ← r.complete level flag none
        cluster level r letters

/-- Why a level does not take a word. -/
def refusal (level : Level) (r : Reading) (word : String) : Stop :=
  if !level.branches then .unknownFlag
  else if r.literal && (word == "help" || (level.subcommand? word).isSome) then .unknownFlag
  else .unknownSubcommand

/-- Whether operands have been read. -/
def hasOperands (r : Reading) : Bool :=
  !r.operands.isEmpty ||
    match r.pending with
    | .operands _ => true
    | .flag _ _ => false
    | .nothing => false

/-- Reads an operand. -/
def operand (level : Level) (r : Reading) (word : String) : Except Stop Reading :=
  match level.operand? with
  | none => .error (r.refusal level word)
  | some form =>
    if r.hasOperands && !form.many then .error (r.refusal level word)
    else
      match r.pending with
      | .operands words => .ok { r with pending := .operands (words ++ [word]) }
      | .nothing => .ok { r with pending := .operands [word] }
      | .flag _ _ => do
        let r ← r.settle level
        return { r with pending := .operands [word] }

/-- Reads a word that names no subcommand. -/
def word (level : Level) (r : Reading) (text : String) : Except Stop Reading :=
  if r.literal then r.operand level text
  else
    match Word.ofText text with
    | .escape => .ok { r with literal := true }
    | .long name value => r.long level name value
    | .short letters => r.cluster level letters
    | .plain =>
      match r.awaiting? with
      | some flag => .ok { r with pending := .flag flag (some text) }
      | none => r.operand level text

/-- Whether a level was given flags that exclude each other. -/
def conflicting (r : Reading) : Bool :=
  Flag.conflicts.any fun (flag, other) => r.has flag && r.has other

/-- Checks a level whose words are at an end. The environment may name the settings file where the
level does not. -/
def finish (environment : Option String) (level : Level) (r : Reading) (entered : Bool) :
    Except Stop Reading := do
  let r ← r.settle level
  if environment = some "" && !r.has .config then throw .badValue
  if level.branches && !entered then
    throw (if r.given.isEmpty && environment.isNone then .nothingSaid else .missingSubcommand)
  if r.conflicting then throw .conflict
  if level.operand?.isSome && r.operands.isEmpty then throw .missingOperand
  return r

end Reading

/-- What asking for help on the subcommands named by some words leads to. -/
def helpOn : Level → List String → Stop
  | _, [] => .help
  | level, word :: words =>
    if level.branches && word == "help" then
      if words.isEmpty then .help else .unknownSubcommand
    else
      match level.subcommand? word with
      | some inner => helpOn inner words
      | none => .unknownSubcommand

/-- Reads the rest of a command line. The readings are those of the current level and of the levels
inside it. -/
def readFrom (environment : Option String) :
    Level → Reading → List String → Except Stop (List (Level × Reading))
  | level, r, [] => do
    let r ← r.finish environment level false
    return [(level, r)]
  | level, r, text :: texts =>
    if !r.literal && r.awaiting?.isNone && level.branches && text == "help" then
      .error (helpOn level texts)
    else
      match if !r.literal && r.awaiting?.isNone then level.subcommand? text else none with
      | some inner => do
        let readings ← readFrom environment inner .empty texts
        let r ← r.finish environment level true
        return (level, r) :: readings
      | none => do
        let r ← r.word level text
        readFrom environment level r texts

/-- Reads a command line. -/
def read (environment : Option String) (texts : List String) :
    Except Stop (List (Level × Reading)) :=
  readFrom environment .top .empty texts

end ServiceContract.CommandLine
