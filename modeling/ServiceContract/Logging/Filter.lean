import ServiceContract.Text.Alphanumeric
import ServiceContract.Text.Blank

/-!
# Log filters

The level of log messages is given as a list of directives between commas. A directive is a level,
a target, or `target[span{fields}]=level` with most parts left out. Levels are words in any case,
or the numbers from 0 to 5. A directive that is only a word is never wrong: it is a level or else
a target.

Blanks around a directive do not count for its form. What follows the equals sign is taken from the
directive with its blanks, though, at the distance from the start that it has without them.
-/

namespace ServiceContract.LogFilter

/-- What is wrong with a filter. -/
inductive Fault where
  | badLevel
  | badDirective
  deriving DecidableEq, Repr

def Fault.message : Fault → String
  | badLevel =>
    "error parsing level filter: expected one of \"off\", \"error\", \"warn\", \"info\", "
      ++ "\"debug\", \"trace\", or a number 0-5"
  | badDirective => "invalid filter directive"

/-- How far a directive has been read. -/
inductive State where
  | start
  | word
  | span
  /-- In the fields of a span; says whether the current field has no characters so far. -/
  | field (empty : Bool)
  | fields
  | target
  /-- After the equals sign, at a number of bytes from the start. -/
  | level (offset : Nat)
  deriving DecidableEq, Repr

/-- The state after one more character, which ends at a number of bytes from the start. -/
def State.next (state : State) (c : Char) (offset : Nat) : Except Fault State :=
  match state with
  | .start =>
    if c = '[' then .ok .span
    else if c = '-' || c = ':' || c = '_' || Text.isAlphanumeric c then .ok .word
    else .error .badDirective
  | .word => if c = '=' then .ok (.level offset) else if c = '[' then .ok .span else .ok .word
  | .span => if c = ']' then .ok .target else if c = '\x7b' then .ok (.field true) else .ok .span
  | .field empty =>
    if c = '\x7d' then (if empty then .error .badDirective else .ok .fields)
    else .ok (.field false)
  | .fields => if c = ']' then .ok .target else .error .badDirective
  | .target => if c = '=' then .ok (.level offset) else .error .badDirective
  | .level origin => .ok (.level origin)

/-- The state after some characters. -/
def State.run : State → (offset : Nat) → List Char → Except Fault State
  | state, _, [] => .ok state
  | state, offset, c :: rest =>
    (state.next c (offset + c.utf8Size)).bind fun state =>
      state.run (offset + c.utf8Size) rest

/-- The characters from a number of bytes on. -/
def dropBytes : (bytes : Nat) → List Char → List Char
  | 0, cs => cs
  | _, [] => []
  | bytes + 1, c :: rest => dropBytes (bytes + 1 - c.utf8Size) rest
termination_by structural _ cs => cs

/-- The digits of a number after an optional plus. -/
def digits (cs : List Char) : List Char :=
  match cs with
  | '+' :: rest => rest
  | cs => cs

/-- Whether a text is a level: nothing, a word, or a number up to 5. -/
def isLevel (cs : List Char) : Bool :=
  let word := String.ofList (cs.map Char.toLower)
  ["", "off", "error", "warn", "info", "debug", "trace"].contains word
    || (!(digits cs).isEmpty && (digits cs).all Char.isDigit
      && (digits cs).foldl (fun n c => n * 10 + (c.toNat - 48)) 0 ≤ 5)

/-- Checks one directive. -/
def checkDirective (directive : List Char) : Except Fault Unit := do
  let trimmed := Text.dropBlankEnd (directive.dropWhile Text.isBlank)
  match ← State.start.run 0 trimmed with
  | .word => .ok ()
  | .target => .ok ()
  | .level offset => if isLevel (dropBytes offset directive) then .ok () else .error .badLevel
  | _ => .error .badDirective

/-- The parts of a list between commas. -/
def splitCommas : List Char → List Char → List (List Char)
  | [], reversed => [reversed.reverse]
  | c :: rest, reversed =>
    if c = ',' then reversed.reverse :: splitCommas rest [] else splitCommas rest (c :: reversed)

/-- Checks a filter; empty parts between commas do not count. -/
def check (filter : String) : Except Fault Unit :=
  ((splitCommas filter.toList []).filter fun part => !part.isEmpty).forM checkDirective

end ServiceContract.LogFilter
