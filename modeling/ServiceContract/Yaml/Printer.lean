import ServiceContract.Yaml.Scalar
import ServiceContract.Json.Printer

/-!
# YAML text

A tree is written in block style, an empty container as `[]` or `{}`. Lists stand at the indentation
of the mapping that holds them; everything else is indented by two spaces.

A text with a line feed is written as a literal block, a text that would read back as something
else in single quotes, and any other text plainly — if its characters allow that style. The next
stronger style is taken otherwise: single quotes, and where those do not do either, double quotes
with escapes.

A key of more than 128 bytes or several lines is marked by `?`, and its value by `:` on a line of
its own.
-/

namespace ServiceContract.Yaml

/-! ## What the characters of a text allow -/

/-- The characters that end a line. -/
def isBreak (c : Char) : Bool :=
  c = '\n' || c = '\r' || c = '\x85' || c = '\u2028' || c = '\u2029'

/-- A blank, a line end or the null character. -/
def isBlankOrEnd (c : Char) : Bool := c = ' ' || c = '\t' || isBreak c || c = '\x00'

/-- The characters that may stand in a text unescaped. -/
def isPrintable (c : Char) : Bool :=
  let n := c.toNat
  n == 10 || (32 ≤ n && n ≤ 126) || (0xA0 ≤ n && n ≠ 0xFEFF && n ≠ 0xFFFE && n ≠ 0xFFFF)

/-- What matters about a text for the choice of its style. -/
structure Traits where
  /-- Characters that mean something else outside quotes. -/
  indicators : Bool
  /-- Line ends. -/
  multiline : Bool
  /-- A blank or a line end at the start or the end. -/
  openEnds : Bool
  trailingSpace : Bool
  /-- A space after a line end. -/
  breakSpace : Bool
  /-- A space before a line end. -/
  spaceBreak : Bool
  /-- Characters that need an escape. -/
  special : Bool

/-- Whether a character means something else at the start of an unquoted text; `next` follows it. -/
def isLeadingIndicator (c : Char) (next : Option Char) : Bool :=
  if "#,[]\x7b\x7d&*!|>'\"%@`".toList.contains c then true
  else if c = '?' || c = ':' || c = '-' then next.all isBlankOrEnd
  else false

/-- Whether a character means something else inside an unquoted text, given its neighbours. -/
def isInnerIndicator (previous c : Char) (next : Option Char) : Bool :=
  (c = ':' && next.all isBlankOrEnd) || (c = '#' && isBlankOrEnd previous)

/-- Indicators after the first character. -/
def hasInnerIndicator : List Char → Bool
  | previous :: c :: rest =>
    isInnerIndicator previous c rest.head? || hasInnerIndicator (c :: rest)
  | _ => false

/-- Whether two neighbours satisfy a condition somewhere. -/
def hasPair (first second : Char → Bool) : List Char → Bool
  | a :: b :: rest => (first a && second b) || hasPair first second (b :: rest)
  | _ => false

def isSpace (c : Char) : Bool := c = ' '

/-- Three hyphens or three dots, which start or end a document. -/
def startsLikeMarker : List Char → Bool
  | '-' :: '-' :: '-' :: _ => true
  | '.' :: '.' :: '.' :: _ => true
  | _ => false

def Traits.of (cs : List Char) : Traits :=
  { indicators :=
      startsLikeMarker cs || (cs.head?.any fun c => isLeadingIndicator c cs.tail.head?)
        || hasInnerIndicator cs
    multiline := cs.any isBreak
    openEnds :=
      (cs.head?.any fun c => isSpace c || isBreak c)
        || (cs.getLast?.any fun c => isSpace c || isBreak c)
    trailingSpace := cs.getLast?.any isSpace
    breakSpace := hasPair isBreak isSpace cs
    spaceBreak := hasPair isSpace isBreak cs
    special := cs.any fun c => !isPrintable c }

/-! ## Styles -/

inductive Style where
  | plain
  | singleQuoted
  | doubleQuoted
  | literal
  deriving DecidableEq, Repr

/-- The style a text asks for. -/
def Style.wanted (s : String) : Style :=
  if s.toList.contains '\n' then .literal
  else
    match Meaning.ofPlain s with
    | .text => if Meaning.isPaddedDigits s.toList then .singleQuoted else .plain
    | _ => .singleQuoted

/-- The style a text gets, a key on one line being `inKey`. -/
def Style.of (inKey : Bool) (s : String) : Style :=
  let t := Traits.of s.toList
  let strict := t.spaceBreak || t.special
  let single : Style := if strict || t.breakSpace then .doubleQuoted else .singleQuoted
  match Style.wanted s with
  | .plain =>
    if inKey && t.multiline then .doubleQuoted
    else if strict || t.breakSpace || t.openEnds || t.multiline || t.indicators then single
    else .plain
  | .singleQuoted => if inKey && t.multiline then .doubleQuoted else single
  | .doubleQuoted => .doubleQuoted
  | .literal => if inKey || strict || t.trailingSpace then .doubleQuoted else .literal

/-! ## Writing a text in a style -/

def spaces (n : Nat) : List Char := List.replicate n ' '

/-- Characters with line ends, each later line indented; `fresh` says that a line has just begun. -/
def indentLines (indent : Nat) (write : Char → List Char) : (fresh : Bool) → List Char → List Char
  | _, [] => []
  | fresh, c :: rest =>
    if isBreak c then c :: indentLines indent write true rest
    else (if fresh then spaces indent else []) ++ write c ++ indentLines indent write false rest

def writeSingle (c : Char) : List Char := if c = '\'' then ['\'', '\''] else [c]

/-- Single quotes: a quote inside is doubled. -/
def singleQuoted (indent : Nat) (cs : List Char) : List Char :=
  '\'' :: indentLines indent writeSingle false cs
    ++ (if cs.getLast?.any isBreak then spaces indent else []) ++ ['\'']

/-- An upper-case hexadecimal number of a given width. -/
def upperHex (width n : Nat) : List Char :=
  let digits := (Nat.toDigits 16 n).map Char.toUpper
  List.replicate (width - digits.length) '0' ++ digits

/-- One character between double quotes. -/
def writeDouble (c : Char) : List Char :=
  if isPrintable c && !isBreak c && c ≠ '"' && c ≠ '\\' then [c]
  else
    match c with
    | '\x00' => ['\\', '0']
    | '\x07' => ['\\', 'a']
    | '\x08' => ['\\', 'b']
    | '\t' => ['\\', 't']
    | '\n' => ['\\', 'n']
    | '\x0b' => ['\\', 'v']
    | '\x0c' => ['\\', 'f']
    | '\r' => ['\\', 'r']
    | '\x1b' => ['\\', 'e']
    | '"' => ['\\', '"']
    | '\\' => ['\\', '\\']
    | '\x85' => ['\\', 'N']
    | '\u2028' => ['\\', 'L']
    | '\u2029' => ['\\', 'P']
    | c =>
      if c.toNat ≤ 0xFF then '\\' :: 'x' :: upperHex 2 c.toNat
      else if c.toNat ≤ 0xFFFF then '\\' :: 'u' :: upperHex 4 c.toNat
      else '\\' :: 'U' :: upperHex 8 c.toNat

/-- Double quotes: what cannot stand for itself is escaped. -/
def doubleQuoted (cs : List Char) : List Char := '"' :: cs.flatMap writeDouble ++ ['"']

/-- What a literal block says about its line ends: none is kept, one is kept, or all are. -/
def chomping (cs : List Char) : List Char :=
  match cs.reverse with
  | last :: before =>
    if isBreak last then
      match before with
      | [] => ['+']
      | c :: _ => if isBreak c then ['+'] else []
    else ['-']
  | [] => ['-']

/-- A literal block; a blank at its start makes it say its indentation. -/
def literalBlock (indent : Nat) (cs : List Char) : List Char :=
  '|' :: (if cs.head?.any fun c => isSpace c || isBreak c then ['2'] else []) ++ chomping cs
    ++ '\n' :: indentLines indent (fun c => [c]) true cs

/-- A text in its style; lines after the first are indented. -/
def scalar (indent : Nat) (inKey : Bool) (s : String) : List Char :=
  match Style.of inKey s with
  | .plain => s.toList
  | .singleQuoted => singleQuoted indent s.toList
  | .doubleQuoted => doubleQuoted s.toList
  | .literal => literalBlock indent s.toList

/-! ## Trees -/

/-- Ends the line, unless the text has done so. -/
def endLine (cs : List Char) : List Char :=
  if cs.getLast?.any isBreak then cs else cs ++ ['\n']

/-- Whether a key may stand on one line with its value. -/
def isSimpleKey (key : String) : Bool :=
  !key.toList.any isBreak && key.utf8ByteSize ≤ 128

def numberChars : Number → List Char
  | .whole n => Json.intChars n
  | .float x => FloatStyle.plainExponent.chars x

mutual

/-- A value that starts in the middle of a line, with its line ends; further lines of a container
are indented by `indent`, those of a text by two more than its container. -/
def node (indent : Nat) : Json → List Char
  | .null => endLine ['n', 'u', 'l', 'l']
  | .bool true => endLine ['t', 'r', 'u', 'e']
  | .bool false => endLine ['f', 'a', 'l', 's', 'e']
  | .number n => endLine (numberChars n)
  | .string s => endLine (scalar indent false s)
  | .array [] => endLine ['[', ']']
  | .array (item :: items) =>
    '-' :: ' ' :: node (indent + 2) item ++ laterItems indent items
  | .object [] => endLine ['\x7b', '\x7d']
  | .object ((key, value) :: members) =>
    member indent key value ++ laterMembers indent members

/-- The items after the first one. -/
def laterItems (indent : Nat) : List Json → List Char
  | [] => []
  | item :: items =>
    spaces indent ++ '-' :: ' ' :: node (indent + 2) item ++ laterItems indent items

/-- The members after the first one. -/
def laterMembers (indent : Nat) : List (String × Json) → List Char
  | [] => []
  | (key, value) :: members =>
    spaces indent ++ member indent key value ++ laterMembers indent members

/-- A key with its value. -/
def member (indent : Nat) (key : String) (value : Json) : List Char :=
  if isSimpleKey key then
    scalar (indent + 2) true key ++ ':' ::
      (match value with
      | .array (item :: items) =>
        '\n' :: spaces indent ++ '-' :: ' ' :: node (indent + 2) item ++ laterItems indent items
      | .object ((k, v) :: members) =>
        '\n' :: spaces (indent + 2) ++ member (indent + 2) k v ++ laterMembers (indent + 2) members
      | value => ' ' :: node (indent + 2) value)
  else
    '?' :: ' ' :: endLine (scalar (indent + 2) false key) ++ spaces indent ++ ':' :: ' '
      :: node (indent + 2) value

end

/-- A tree as a document. -/
def print (value : Json) : String :=
  match value with
  | .string s => String.ofList (endLine (scalar 2 false s))
  | value => String.ofList (node 0 value)

end ServiceContract.Yaml
