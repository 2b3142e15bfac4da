/-!
# Coloured text

A style is a list of codes of the terminal. Styled text starts with the codes and ends with a reset;
a reset inside the text would end the style early, so the codes are written again after it.
-/

namespace ServiceContract.Text

/-- The styles that messages use. -/
inductive Style where
  | blue
  | green
  | yellow
  | brightBlue
  | bold
  | boldRed
  deriving DecidableEq, Repr

namespace Style

def code : Style → String
  | blue => "34"
  | green => "32"
  | yellow => "33"
  | brightBlue => "94"
  | bold => "1"
  | boldRed => "1;31"

/-- The characters that start the style. -/
def start (style : Style) : String := "\x1b[" ++ style.code ++ "m"

/-- The characters that end any style. -/
def reset : String := "\x1b[0m"

/-- Repeats the start of the style after every reset inside the characters. -/
def resume (start : List Char) : List Char → List Char
  | '\x1b' :: '[' :: '0' :: 'm' :: rest => reset.toList ++ start ++ resume start rest
  | c :: rest => c :: resume start rest
  | [] => []

/-- A text in the style. -/
def apply (style : Style) (text : String) : String :=
  style.start ++ String.ofList (resume style.start.toList text.toList) ++ reset

end Style

end ServiceContract.Text
