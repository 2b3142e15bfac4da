import ServiceContract.Json.Cursor
import ServiceContract.Json.Printer
import ServiceContract.Text.Quoted

/-!
# Why a JSON text cannot be read

A fault is of one of three classes: the text ends too early, it is not JSON, or it is JSON of
another form than the one asked for. A message names the fault and where it was noticed.
-/

namespace ServiceContract.Json

/-- What was found in place of the expected form. -/
inductive Found where
  | null
  | bool (b : Bool)
  | number (n : Number)
  | string (s : String)
  | sequence
  | map
  deriving DecidableEq, Repr

/-- What is wrong with a text. -/
inductive Fault where
  | endInList
  | endInObject
  | endInString
  | endInValue
  | expectedColon
  | expectedListCommaOrEnd
  | expectedObjectCommaOrEnd
  | expectedWord
  | expectedValue
  | invalidEscape
  | invalidNumber
  | numberOutOfRange
  | loneSurrogate
  | endOfHexEscape
  | controlCharacter
  | keyMustBeString
  | trailingComma
  | trailingCharacters
  | tooDeep
  | mismatch (found : Found) (expected : String)
  | badCount (n : Int)
  | unknownVariant (name : String) (known : List String)
  | missingField (name : String)
  | duplicateField (name : String)
  | badLength (length : Nat) (expected : String)
  deriving DecidableEq, Repr

/-- The classes of faults. -/
inductive FaultClass where
  | syntactic
  | data
  | endOfText
  deriving DecidableEq, Repr

/-- A fault and the position where it was noticed. -/
structure ReadError where
  fault : Fault
  position : Position
  deriving DecidableEq, Repr

namespace Found

def describe : Found → String
  | null => "null"
  | bool b => "boolean `" ++ (if b then "true" else "false") ++ "`"
  | number (.whole n) => "integer `" ++ String.ofList (intChars n) ++ "`"
  | number (.float x) =>
    "floating point `" ++ String.ofList (FloatStyle.signedExponent.chars x) ++ "`"
  | string s => "string " ++ Text.quote s
  | sequence => "sequence"
  | map => "map"

end Found

/-- Names in backticks; from three on separated by commas, two joined by "or". -/
def listNames : List String → String
  | [] => ""
  | [a] => "`" ++ a ++ "`"
  | [a, b] => "`" ++ a ++ "` or `" ++ b ++ "`"
  | names => "one of " ++ String.intercalate ", " (names.map fun name => "`" ++ name ++ "`")

namespace Fault

def faultClass : Fault → FaultClass
  | endInList | endInObject | endInString | endInValue => .endOfText
  | mismatch .. | badCount _ | unknownVariant .. | missingField _ | duplicateField _
  | badLength .. => .data
  | _ => .syntactic

def describe : Fault → String
  | endInList => "EOF while parsing a list"
  | endInObject => "EOF while parsing an object"
  | endInString => "EOF while parsing a string"
  | endInValue => "EOF while parsing a value"
  | expectedColon => "expected `:`"
  | expectedListCommaOrEnd => "expected `,` or `]`"
  | expectedObjectCommaOrEnd => "expected `,` or `\x7d`"
  | expectedWord => "expected ident"
  | expectedValue => "expected value"
  | invalidEscape => "invalid escape"
  | invalidNumber => "invalid number"
  | numberOutOfRange => "number out of range"
  | loneSurrogate => "lone leading surrogate in hex escape"
  | endOfHexEscape => "unexpected end of hex escape"
  | controlCharacter => "control character (\\u0000-\\u001F) found while parsing a string"
  | keyMustBeString => "key must be a string"
  | trailingComma => "trailing comma"
  | trailingCharacters => "trailing characters"
  | tooDeep => "recursion limit exceeded"
  | mismatch found expected => "invalid type: " ++ found.describe ++ ", expected " ++ expected
  | badCount n => "invalid value: integer `" ++ String.ofList (intChars n) ++ "`, expected usize"
  | unknownVariant name known =>
    "unknown variant `" ++ name ++ "`, expected " ++ listNames known
  | missingField name => "missing field `" ++ name ++ "`"
  | duplicateField name => "duplicate field `" ++ name ++ "`"
  | badLength length expected =>
    "invalid length " ++ toString length ++ ", expected " ++ expected

end Fault

namespace ReadError

def message (error : ReadError) : String :=
  error.fault.describe ++ " at line " ++ toString error.position.line
    ++ " column " ++ toString error.position.column

end ReadError

end ServiceContract.Json
