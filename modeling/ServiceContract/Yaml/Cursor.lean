import ServiceContract.Yaml.Printer

/-!
# Positions in a YAML text

The characters still to read, with the line and the column they start at and the number of
characters before them. A carriage return and a line feed together are one line end; line ends are
read as a line feed, except for the line and paragraph separators, which stand for themselves.
-/

namespace ServiceContract.Yaml

structure Cursor where
  rest : List Char
  index : Nat
  line : Nat
  column : Nat

namespace Cursor

def start (cs : List Char) : Cursor := ⟨cs, 0, 0, 0⟩

def next? (cursor : Cursor) : Option Char := cursor.rest.head?

/-- The character a number of places further on. -/
def ahead? (cursor : Cursor) (n : Nat) : Option Char := cursor.rest[n]?

def nextIs (cursor : Cursor) (c : Char) : Bool := cursor.next? == some c

def isBlank (c : Char) : Bool := c = ' ' || c = '\t'

/-- A blank, a line end or the end of the text comes `n` places further on. -/
def endsAt (cursor : Cursor) (n : Nat) : Bool := (cursor.ahead? n).all isBlankOrEnd

/-- A line end or the end of the text comes next. -/
def atLineEnd (cursor : Cursor) : Bool := cursor.next?.all isBreak

def atBlank (cursor : Cursor) : Bool := cursor.next?.any isBlank

def atBreak (cursor : Cursor) : Bool := cursor.next?.any isBreak

/-- Moves over one character that is no line end. -/
def skip (cursor : Cursor) : Cursor :=
  match cursor.rest with
  | [] => cursor
  | _ :: rest => ⟨rest, cursor.index + 1, cursor.line, cursor.column + 1⟩

def skipMany (cursor : Cursor) : Nat → Cursor
  | 0 => cursor
  | n + 1 => cursor.skip.skipMany n

/-- Reads a line end, if there is one, as the characters it stands for. -/
def lineEnd (cursor : Cursor) : List Char × Cursor :=
  match cursor.rest with
  | '\r' :: '\n' :: rest => (['\n'], ⟨rest, cursor.index + 2, cursor.line + 1, 0⟩)
  | c :: rest =>
    if isBreak c then
      ([if c = '\u2028' || c = '\u2029' then c else '\n'],
        ⟨rest, cursor.index + 1, cursor.line + 1, 0⟩)
    else ([], cursor)
  | [] => ([], cursor)

/-- Moves over the characters of a class that are no line ends. -/
def skipWhile (p : Char → Bool) (cursor : Cursor) : Cursor :=
  let run := cursor.rest.takeWhile p
  ⟨cursor.rest.drop run.length, cursor.index + run.length, cursor.line,
    cursor.column + run.length⟩

/-- Reads the characters of a class that are no line ends. -/
def takeWhile (p : Char → Bool) (cursor : Cursor) : List Char × Cursor :=
  (cursor.rest.takeWhile p, cursor.skipWhile p)

def skipBlanks (cursor : Cursor) : Cursor := cursor.skipWhile isBlank

/-- Moves over a comment, if there is one, up to its line end. -/
def skipComment (cursor : Cursor) : Cursor :=
  if cursor.nextIs '#' then cursor.skipWhile fun c => !isBreak c else cursor

/-- Three hyphens or three dots at the start of a line, with nothing right after them. -/
def atMarker (c : Char) (cursor : Cursor) : Bool :=
  cursor.column == 0 && cursor.rest.take 3 == [c, c, c] && cursor.endsAt 3

def atDocumentMarker (cursor : Cursor) : Bool := cursor.atMarker '-' || cursor.atMarker '.'

end Cursor

end ServiceContract.Yaml
