import ServiceContract.Json.Basic
import ServiceContract.Decimal.Shortest

/-!
# JSON text

One printer with two layouts: everything on one line, or one item a line, indented by two spaces.
Inside quotes the quote, the backslash and the control characters below the space are escaped, the
common ones by a letter and the others by four lower-case hexadecimal digits. All other characters
stand for themselves.
-/

namespace ServiceContract

namespace Json

/-- A lower-case hexadecimal digit. -/
def hexDigit (n : Nat) : Char :=
  if n < 10 then Char.ofNat (n + 48) else Char.ofNat (n + 87)

/-- One character inside quotes. -/
def escapeChar (c : Char) : List Char :=
  if c = '"' then ['\\', '"']
  else if c = '\\' then ['\\', '\\']
  else if c = '\x08' then ['\\', 'b']
  else if c = '\x0c' then ['\\', 'f']
  else if c = '\n' then ['\\', 'n']
  else if c = '\r' then ['\\', 'r']
  else if c = '\t' then ['\\', 't']
  else if c.toNat < 32 then
    ['\\', 'u', '0', '0', hexDigit (c.toNat / 16), hexDigit (c.toNat % 16)]
  else [c]

/-- A text in quotes. -/
def quoted (s : String) : List Char := '"' :: s.toList.flatMap escapeChar ++ ['"']

def intChars (n : Int) : List Char :=
  if n < 0 then '-' :: Nat.toDigits 10 n.natAbs else Nat.toDigits 10 n.natAbs

end Json

namespace Number

def chars : Number → List Char
  | whole n => Json.intChars n
  | float x => FloatStyle.signedExponent.chars x

end Number

namespace Json

/-- The white space of a layout: what stands before an item at a depth, and after a colon. -/
structure Spacing where
  lineBreak : Nat → List Char
  afterColon : List Char

namespace Spacing

/-- No white space at all. -/
def compact : Spacing := ⟨fun _ => [], []⟩

/-- A line for each item, two spaces a level. -/
def indented : Spacing := ⟨fun depth => '\n' :: List.replicate (2 * depth) ' ', [' ']⟩

end Spacing

mutual

/-- The text of a value that stands at a depth. -/
def render (spacing : Spacing) (depth : Nat) : Json → List Char
  | null => ['n', 'u', 'l', 'l']
  | bool true => ['t', 'r', 'u', 'e']
  | bool false => ['f', 'a', 'l', 's', 'e']
  | number n => n.chars
  | string s => quoted s
  | array [] => ['[', ']']
  | array (item :: items) =>
    '[' :: spacing.lineBreak (depth + 1) ++ render spacing (depth + 1) item
      ++ renderItems spacing (depth + 1) items ++ spacing.lineBreak depth ++ [']']
  | object [] => ['\x7b', '\x7d']
  | object ((key, value) :: members) =>
    '\x7b' :: spacing.lineBreak (depth + 1) ++ quoted key ++ ':' :: spacing.afterColon
      ++ render spacing (depth + 1) value ++ renderMembers spacing (depth + 1) members
      ++ spacing.lineBreak depth ++ ['\x7d']

/-- The items after the first one. -/
def renderItems (spacing : Spacing) (depth : Nat) : List Json → List Char
  | [] => []
  | item :: items =>
    ',' :: spacing.lineBreak depth ++ render spacing depth item ++ renderItems spacing depth items

/-- The members after the first one. -/
def renderMembers (spacing : Spacing) (depth : Nat) : List (String × Json) → List Char
  | [] => []
  | (key, value) :: members =>
    ',' :: spacing.lineBreak depth ++ quoted key ++ ':' :: spacing.afterColon
      ++ render spacing depth value ++ renderMembers spacing depth members

end

def compact (value : Json) : String := String.ofList (value.render .compact 0)

def pretty (value : Json) : String := String.ofList (value.render .indented 0)

end Json

end ServiceContract
