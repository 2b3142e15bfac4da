/-!
# Words of the command line

Two dashes alone end the flags. A word that starts with two dashes is a long flag, with a value
after the first equals sign; one dash with letters after it is a cluster of short flags. A dash
alone is a plain word.
-/

namespace ServiceContract.CommandLine

/-- A word by its form. -/
inductive Word where
  | escape
  | long (name : String) (value : Option String)
  | short (letters : List Char)
  | plain
  deriving DecidableEq, Repr

namespace Word

/-- A long flag from what follows the dashes. -/
def ofLong (text : List Char) : Word :=
  .long (String.ofList (text.takeWhile (· ≠ '=')))
    (match text.dropWhile (· ≠ '=') with
    | [] => none
    | _ :: value => some (String.ofList value))

/-- The form of a word. -/
def ofText (text : String) : Word :=
  match text.toList with
  | ['-', '-'] => .escape
  | '-' :: '-' :: text => ofLong text
  | '-' :: letter :: letters => .short (letter :: letters)
  | _ => .plain

/-- The value that stands in a cluster after the letter of its flag, which an equals sign may
precede. -/
def attached : List Char → Option String
  | [] => none
  | '=' :: value => some (String.ofList value)
  | value => some (String.ofList value)

end Word

end ServiceContract.CommandLine
