import ServiceContract.Json.Printer

/-!
# TOML text

A table is written as its plain members, one a line, followed by a section for each member that is a
table, with a blank line before the section. An array of two or more items has a line for each.

A text is written in the first of these styles that its characters allow: one line in double quotes
without escapes, one line in single quotes, several lines in triple double quotes without escapes,
several lines in triple single quotes. Otherwise it is escaped between double quotes, triple ones if
it has several lines.
-/

namespace ServiceContract.Toml

/-- What matters about a text for the choice of its style. -/
structure Traits where
  /-- Control characters that only an escape can write. -/
  controls : Bool
  backslash : Bool
  lineFeed : Bool
  /-- The longest run of single quotes. -/
  singleQuotes : Nat
  /-- The longest run of double quotes. -/
  doubleQuotes : Nat

/-- The length of the longest run of a character, given the length of the run so far. -/
def longestRun (c : Char) : (run : Nat) → List Char → Nat
  | run, [] => run
  | run, d :: rest => if d = c then longestRun c (run + 1) rest else max run (longestRun c 0 rest)

/-- Control characters other than the tabulator and the line feed. -/
def isControl (c : Char) : Bool :=
  (c.toNat < 32 && c ≠ '\t' && c ≠ '\n') || c.toNat == 127

def Traits.of (cs : List Char) : Traits :=
  ⟨cs.any isControl, cs.contains '\\', cs.contains '\n', longestRun '\'' 0 cs, longestRun '"' 0 cs⟩

inductive Style where
  | basic
  | literal
  | basicLines
  | literalLines
  deriving DecidableEq, Repr

def Style.of (t : Traits) : Style :=
  if !t.controls && !t.backslash && t.doubleQuotes == 0 && !t.lineFeed then .basic
  else if !t.controls && t.singleQuotes == 0 && !t.lineFeed then .literal
  else if !t.controls && !t.backslash && t.doubleQuotes ≤ 2 then .basicLines
  else if !t.controls && t.singleQuotes ≤ 2 then .literalLines
  else if t.lineFeed then .basicLines
  else .basic

/-- An upper-case hexadecimal number of four digits. -/
def hex4 (n : Nat) : List Char :=
  let digits := (Nat.toDigits 16 n).map Char.toUpper
  List.replicate (4 - digits.length) '0' ++ digits

/-- One character other than a double quote between double quotes. -/
def escapeChar (lines : Bool) (c : Char) : List Char :=
  match c with
  | '\x08' => ['\\', 'b']
  | '\t' => ['\\', 't']
  | '\n' => if lines then ['\n'] else ['\\', 'n']
  | '\x0c' => ['\\', 'f']
  | '\r' => ['\\', 'r']
  | '\\' => ['\\', '\\']
  | c => if isControl c then '\\' :: 'u' :: hex4 c.toNat else [c]

/-- Text between double quotes; of a run of quotes all beyond the allowed number are escaped, and an
escaped one starts the count again. -/
def escaped (lines : Bool) (allowed : Nat) : (run : Nat) → List Char → List Char
  | _, [] => []
  | run, c :: rest =>
    if c = '"' then
      if run < allowed then c :: escaped lines allowed (run + 1) rest
      else '\\' :: '"' :: escaped lines allowed 0 rest
    else escapeChar lines c ++ escaped lines allowed 0 rest

def text (s : String) : List Char :=
  let cs := s.toList
  let t := Traits.of cs
  let start := if t.lineFeed then ['\n'] else []
  match Style.of t with
  | .basic => '"' :: escaped false 0 0 cs ++ ['"']
  | .literal => '\'' :: cs ++ ['\'']
  | .basicLines => ['"', '"', '"'] ++ start ++ escaped true 2 0 cs ++ ['"', '"', '"']
  | .literalLines => ['\'', '\'', '\''] ++ start ++ cs ++ ['\'', '\'', '\'']

/-- Whether a key needs no quotes. -/
def isBareKey (key : String) : Bool :=
  !key.isEmpty && key.toList.all fun c => c.isAlphanum || c = '_' || c = '-'

def keyChars (key : String) : List Char := if isBareKey key then key.toList else text key

mutual

/-- A value on the right of a key. -/
def value : Json → List Char
  | .null => []
  | .bool true => ['t', 'r', 'u', 'e']
  | .bool false => ['f', 'a', 'l', 's', 'e']
  | .number n => n.chars
  | .string s => text s
  | .array [] => ['[', ']']
  | .array [item] => '[' :: value item ++ [']']
  | .array items => '[' :: itemLines items ++ ['\n', ']']
  | .object members => '\x7b' :: inlineMembers members ++ [' ', '\x7d']

/-- Items on lines of their own. -/
def itemLines : List Json → List Char
  | [] => []
  | item :: items => ['\n', ' ', ' ', ' ', ' '] ++ value item ++ ',' :: itemLines items

/-- The members of a table within a value. -/
def inlineMembers : List (String × Json) → List Char
  | [] => []
  | [(key, v)] => ' ' :: keyChars key ++ [' ', '=', ' '] ++ value v
  | (key, v) :: members =>
    ' ' :: keyChars key ++ [' ', '=', ' '] ++ value v ++ ',' :: inlineMembers members

end

/-- The plain members of a table, one a line. -/
def plainMembers : List (String × Json) → List Char
  | [] => []
  | (_, .object _) :: members => plainMembers members
  | (key, v) :: members =>
    keyChars key ++ [' ', '=', ' '] ++ value v ++ '\n' :: plainMembers members

/-- The sections of a table, each under its path, with a blank line before each. -/
def sections (path : List Char) : List (String × Json) → List Char
  | [] => []
  | (key, .object inner) :: members =>
    let here := path ++ keyChars key
    '\n' :: '[' :: here ++ ']' :: '\n' :: plainMembers inner ++ sections (here ++ ['.']) inner
      ++ sections path members
  | _ :: members => sections path members

/-- The members of a document. The first line is not blank. -/
def print (members : Members) : String :=
  match plainMembers members with
  | [] => String.ofList ((sections [] members).drop 1)
  | plain => String.ofList (plain ++ sections [] members)

end ServiceContract.Toml
