/-!
# Positions in a JSON text

A position is a line, counted from one, and a column, the number of bytes read on that line. A
fault of what was just read stands *here*; a fault of the byte that comes next stands *beyond* it,
one byte further on.
-/

namespace ServiceContract.Json

/-- A line and a column in bytes. -/
structure Position where
  line : Nat
  column : Nat
  deriving DecidableEq, Repr, Inhabited

/-- The characters still to read and the position they start at. -/
structure Cursor where
  rest : List Char
  line : Nat
  column : Nat

namespace Cursor

/-- The start of a text. -/
def start (text : String) : Cursor := ⟨text.toList, 1, 0⟩

def here (cursor : Cursor) : Position := ⟨cursor.line, cursor.column⟩

/-- Reads one character. -/
def advance (cursor : Cursor) : Cursor :=
  match cursor.rest with
  | [] => cursor
  | '\n' :: rest => ⟨rest, cursor.line + 1, 0⟩
  | c :: rest => ⟨rest, cursor.line, cursor.column + c.utf8Size⟩

/-- Reads a number of characters. -/
def skip (cursor : Cursor) : Nat → Cursor
  | 0 => cursor
  | n + 1 => (cursor.advance).skip n

/-- The position one byte further on, if there is such a byte. -/
def beyond (cursor : Cursor) : Position :=
  match cursor.rest with
  | [] => cursor.here
  | '\n' :: _ => ⟨cursor.line + 1, 0⟩
  | _ :: _ => ⟨cursor.line, cursor.column + 1⟩

/-- The position a number of bytes further on. The bytes may end inside a character. -/
def positionAfter : List Char → (line column bytes : Nat) → Position
  | [], line, column, _ => ⟨line, column⟩
  | c :: rest, line, column, bytes =>
    if bytes = 0 then ⟨line, column⟩
    else if c = '\n' then positionAfter rest (line + 1) 0 (bytes - 1)
    else if c.utf8Size ≤ bytes then
      positionAfter rest line (column + c.utf8Size) (bytes - c.utf8Size)
    else ⟨line, column + bytes⟩

/-- The position a number of bytes after the cursor. -/
def after (cursor : Cursor) (bytes : Nat) : Position :=
  positionAfter cursor.rest cursor.line cursor.column bytes

/-- Whether at least a number of bytes is still to read. -/
def hasBytes : List Char → Nat → Bool
  | _, 0 => true
  | [], _ + 1 => false
  | c :: rest, n => hasBytes rest (n - c.utf8Size)

/-- The position at the end of the text. -/
def finish (cursor : Cursor) : Position :=
  cursor.rest.foldl
    (fun at_ c => if c = '\n' then ⟨at_.line + 1, 0⟩ else ⟨at_.line, at_.column + c.utf8Size⟩)
    cursor.here

/-- White space between tokens. -/
def isSpace (c : Char) : Bool := c = ' ' || c = '\n' || c = '\t' || c = '\r'

/-- Moves over white space. -/
def skipSpaceFrom : List Char → Nat → Nat → Cursor
  | [], line, column => ⟨[], line, column⟩
  | c :: rest, line, column =>
    if isSpace c then
      if c = '\n' then skipSpaceFrom rest (line + 1) 0 else skipSpaceFrom rest line (column + 1)
    else ⟨c :: rest, line, column⟩

def skipSpace (cursor : Cursor) : Cursor :=
  skipSpaceFrom cursor.rest cursor.line cursor.column

/-- The next character. -/
def next? (cursor : Cursor) : Option Char := cursor.rest.head?

end Cursor

end ServiceContract.Json
