import ServiceContract.Yaml.Text
import ServiceContract.Yaml.Token

/-!
# From YAML text to tokens

Blocks are found by their columns: a greater column opens a block, a smaller one closes those it
leaves. Whether something is a key is only known at its colon, so the place of every token that may
start a key is remembered; at the colon the key's token is put in front of it. Such a key must be on
one line with its colon and at most 1024 characters before it.

`none` stands for a text that has no tokens.
-/

namespace ServiceContract.Yaml

/-- A token that may turn out to start a key. -/
structure KeyStart where
  /-- The number of tokens before it. -/
  position : Nat
  index : Nat
  line : Nat
  column : Nat
  /-- Nothing but a key may stand here. -/
  required : Bool

structure Lexer where
  cursor : Cursor
  /-- The tokens so far, the last one first. -/
  reversed : List Token
  /-- The column of the innermost block, or -1 outside all blocks. -/
  indent : Int
  /-- The columns of the blocks around it. -/
  outer : List Int
  /-- Whether a key may start here. -/
  keyAllowed : Bool
  /-- The possible key of the innermost flow, or of the block outside all flows. -/
  keyStart : Option KeyStart
  /-- Those of the flows around it. -/
  outerKeys : List (Option KeyStart)

namespace Lexer

def start (cs : List Char) : Lexer := ⟨.start cs, [], -1, [], true, none, []⟩

/-- Whether the lexer is inside brackets or braces. -/
def inFlow (lexer : Lexer) : Bool := !lexer.outerKeys.isEmpty

def push (lexer : Lexer) (token : Token) : Lexer :=
  { lexer with reversed := token :: lexer.reversed }

/-- Puts a token in front of those after a position. -/
def insert (lexer : Lexer) (position : Nat) (token : Token) : Lexer :=
  let later := lexer.reversed.length - position
  { lexer with reversed := lexer.reversed.take later ++ token :: lexer.reversed.drop later }

/-- Closes the blocks at greater columns. -/
def closeBlocks (column : Int) : (outer : List Int) → Lexer → Lexer
  | [], lexer => lexer
  | above :: outer, lexer =>
    if column < lexer.indent then
      closeBlocks column outer
        { lexer with indent := above, outer, reversed := .blockEnd :: lexer.reversed }
    else lexer

/-- Closes the blocks at greater columns, unless inside a flow. -/
def unroll (lexer : Lexer) (column : Int) : Lexer :=
  if lexer.inFlow then lexer else closeBlocks column lexer.outer lexer

/-- Opens a block at a greater column, unless inside a flow; its token goes to a position. -/
def roll (lexer : Lexer) (column position : Nat) (token : Token) : Lexer :=
  if !lexer.inFlow && lexer.indent < column then
    { lexer.insert position token with indent := column, outer := lexer.indent :: lexer.outer }
  else lexer

/-- Gives up the possible key; a required one must not be given up. -/
def dropKey? (lexer : Lexer) : Option Lexer :=
  if lexer.keyStart.any (·.required) then none else some { lexer with keyStart := none }

/-- Remembers that a key may start here. -/
def saveKey? (lexer : Lexer) : Option Lexer :=
  if lexer.keyAllowed then do
    let lexer ← lexer.dropKey?
    let c := lexer.cursor
    return { lexer with
      keyStart := some ⟨lexer.reversed.length, c.index, c.line, c.column,
        !lexer.inFlow && lexer.indent == c.column⟩ }
  else some lexer

/-- How far a key may start before its colon. -/
def keyReach : Nat := 1024

/-- A possible key that is too far back or on an earlier line is none, and must not be required. -/
def refresh? (cursor : Cursor) : Option KeyStart → Option (Option KeyStart)
  | none => some none
  | some key =>
    if key.line < cursor.line || key.index + keyReach < cursor.index then
      if key.required then none else some none
    else some (some key)

def refreshKeys? (lexer : Lexer) : Option Lexer := do
  let keyStart ← refresh? lexer.cursor lexer.keyStart
  let outerKeys ← lexer.outerKeys.mapM (refresh? lexer.cursor)
  return { lexer with keyStart, outerKeys }

/-- Moves over blanks, comments and line ends to the next token. Outside flows a new line may
start a key, and a tabulator must not stand where a key may start. -/
def toNextToken : (fuel : Nat) → Lexer → Lexer
  | 0, lexer => lexer
  | fuel + 1, lexer =>
    let cursor := lexer.cursor
    let cursor := if cursor.column == 0 && cursor.nextIs '\uFEFF' then cursor.skip else cursor
    let tabs := lexer.inFlow || !lexer.keyAllowed
    let cursor := (cursor.skipWhile fun c => c = ' ' || (tabs && c = '\t')).skipComment
    if cursor.atBreak then
      toNextToken fuel
        { lexer with cursor := cursor.lineEnd.2, keyAllowed := lexer.keyAllowed || !lexer.inFlow }
    else { lexer with cursor }

/-- The lexer behind a token that starts here and spans some characters. -/
def simple (lexer : Lexer) (length : Nat) (token : Token) (keyAllowed : Bool) : Lexer :=
  { lexer.push token with cursor := lexer.cursor.skipMany length, keyAllowed }

/-! ## Directives and tags -/

def isWordChar (c : Char) : Bool := c.isAlphanum || c = '_' || c = '-'

/-- The characters of a tag; `verbatim` adds those that end one otherwise. -/
def isUriChar (verbatim : Bool) (c : Char) : Bool :=
  isWordChar c || ";/?:@&=+$.!~*'()".toList.contains c || (verbatim && ",[]".toList.contains c)

/-- Reads one byte given by a percent sign and two hexadecimal digits. -/
def escapedByte? : List Char → Option (UInt8 × List Char)
  | '%' :: a :: b :: rest => do
    let high ← Cursor.hexDigit? a
    let low ← Cursor.hexDigit? b
    return ((high * 16 + low).toUInt8, rest)
  | _ => none

/-- The number of bytes of a character that starts with a byte. -/
def characterSize (first : UInt8) : Nat :=
  if first < 0x80 then 1
  else if 0xC0 ≤ first && first < 0xE0 then 2
  else if 0xE0 ≤ first && first < 0xF0 then 3
  else if 0xF0 ≤ first && first < 0xF8 then 4
  else 0

/-- Reads the bytes after the first one of an escaped character. -/
def laterBytes? : (count : Nat) → List Char → Option (List UInt8 × List Char)
  | 0, cs => some ([], cs)
  | count + 1, cs => do
    let (byte, cs) ← escapedByte? cs
    if byte &&& 0xC0 == 0x80 then
      let (bytes, cs) ← laterBytes? count cs
      return (byte :: bytes, cs)
    else none

/-- Reads one escaped character as its bytes. -/
def escapedBytes? (cs : List Char) : Option (List UInt8 × List Char) := do
  let (first, cs) ← escapedByte? cs
  match characterSize first with
  | 0 => none
  | size + 1 =>
    let (bytes, cs) ← laterBytes? size cs
    return (first :: bytes, cs)

/-- Reads the bytes of a tag. -/
def uriBytes? (verbatim : Bool) : (fuel : Nat) → List Char → Option (List UInt8 × List Char)
  | 0, _ => none
  | fuel + 1, cs =>
    match cs with
    | [] => some ([], [])
    | c :: rest =>
      if c = '%' then do
        let (bytes, rest) ← escapedBytes? cs
        let (more, rest) ← uriBytes? verbatim fuel rest
        return (bytes ++ more, rest)
      else if isUriChar verbatim c then do
        let (more, rest) ← uriBytes? verbatim fuel rest
        return (c.toNat.toUInt8 :: more, rest)
      else some ([], cs)

/-- Reads the characters of a tag. -/
def uri? (verbatim : Bool) (cursor : Cursor) : Option (String × Cursor) := do
  let (bytes, rest) ← uriBytes? verbatim (cursor.rest.length + 1) cursor.rest
  let text ← String.fromUTF8? ⟨bytes.toArray⟩
  return (text, cursor.skipMany (cursor.rest.length - rest.length))

/-- Reads the handle of a tag: a word between exclamation marks; the second one may be missing. -/
def handle? (cursor : Cursor) : Option (String × Cursor) :=
  if cursor.nextIs '!' then
    let (word, cursor) := cursor.skip.takeWhile isWordChar
    if cursor.nextIs '!' then some (String.ofList ('!' :: word ++ ['!']), cursor.skip)
    else some (String.ofList ('!' :: word), cursor)
  else none

/-- Reads a number of at most nine digits. -/
def versionNumber? (cursor : Cursor) : Option (Nat × Cursor) :=
  let (digits, cursor) := cursor.takeWhile Char.isDigit
  if digits = [] ∨ 9 < digits.length then none
  else (Meaning.digits? 10 digits).map fun n => (n, cursor)

/-- Reads the rest of a directive after its name. -/
def directiveValue? (name : String) (cursor : Cursor) : Option (Token × Cursor) := do
  let cursor := cursor.skipBlanks
  match name with
  | "YAML" =>
    let (major, cursor) ← versionNumber? cursor
    if !cursor.nextIs '.' then none
    else
      let (minor, cursor) ← versionNumber? cursor.skip
      return (.version major minor, cursor)
  | "TAG" =>
    let (handle, cursor) ← handle? cursor
    if !handle.endsWith "!" then none
    else if !cursor.atBlank then none
    else
      let (expansion, cursor) ← uri? true cursor.skipBlanks
      if expansion.isEmpty || !cursor.endsAt 0 then none
      else return (.tagDirective handle expansion, cursor)
  | _ => none

/-- Reads a directive. -/
def directive? (lexer : Lexer) : Option Lexer := do
  let lexer ← (lexer.unroll (-1)).dropKey?
  let (name, cursor) := lexer.cursor.skip.takeWhile isWordChar
  if name = [] || !cursor.endsAt 0 then none
  else
    let (token, cursor) ← directiveValue? (String.ofList name) cursor
    let cursor := cursor.skipBlanks.skipComment
    if cursor.atLineEnd then
      return { lexer.push token with cursor := cursor.lineEnd.2, keyAllowed := false }
    else none

/-- Reads a tag. -/
def tag? (cursor : Cursor) : Option (Token × Cursor) := do
  if cursor.ahead? 1 = some '<' then
    let (suffix, cursor) ← uri? true (cursor.skipMany 2)
    if suffix.isEmpty || !cursor.nextIs '>' then none
    else return (.tag "" suffix, cursor.skip)
  else
    let (handle, cursor) ← handle? cursor
    if handle.length > 1 && handle.endsWith "!" then
      let (suffix, cursor) ← uri? false cursor
      if suffix.isEmpty then none else return (.tag handle suffix, cursor)
    else
      let (more, cursor) ← uri? false cursor
      let suffix := String.ofList (handle.toList.drop 1) ++ more
      return (if suffix.isEmpty then .tag "" "!" else .tag "!" suffix, cursor)

/-! ## Tokens -/

/-- The three hyphens or dots around a document. -/
def marker? (lexer : Lexer) (token : Token) : Option Lexer := do
  let lexer ← (lexer.unroll (-1)).dropKey?
  return lexer.simple 3 token false

/-- Opens a flow. -/
def openFlow? (lexer : Lexer) (token : Token) : Option Lexer := do
  let lexer ← lexer.saveKey?
  return { lexer.simple 1 token true with
    keyStart := none, outerKeys := lexer.keyStart :: lexer.outerKeys }

/-- Closes a flow. -/
def closeFlow? (lexer : Lexer) (token : Token) : Option Lexer := do
  let lexer ← lexer.dropKey?
  let lexer := lexer.simple 1 token false
  match lexer.outerKeys with
  | [] => return lexer
  | keyStart :: outerKeys => return { lexer with keyStart, outerKeys }

/-- Opens a block for an entry or a key, which must be allowed here. -/
def openBlock? (lexer : Lexer) (token : Token) : Option Lexer :=
  if lexer.inFlow then some lexer
  else if lexer.keyAllowed then
    some (lexer.roll lexer.cursor.column lexer.reversed.length token)
  else none

/-- The hyphen before an entry. -/
def entry? (lexer : Lexer) : Option Lexer := do
  let lexer ← lexer.openBlock? .blockSequenceStart
  let lexer ← lexer.dropKey?
  return lexer.simple 1 .blockEntry true

/-- The question mark before a key. -/
def key? (lexer : Lexer) : Option Lexer := do
  let lexer ← lexer.openBlock? .blockMappingStart
  let lexer ← lexer.dropKey?
  return lexer.simple 1 .key (!lexer.inFlow)

/-- The colon before a value. -/
def value? (lexer : Lexer) : Option Lexer :=
  match lexer.keyStart with
  | some start =>
    let lexer := lexer.insert start.position .key
    let lexer := lexer.roll start.column start.position .blockMappingStart
    some { lexer.simple 1 .value false with keyStart := none }
  | none =>
    (lexer.openBlock? .blockMappingStart).map fun lexer =>
      lexer.simple 1 .value (!lexer.inFlow)

/-- An anchor or an alias. -/
def anchor? (lexer : Lexer) (token : String → Token) : Option Lexer := do
  let lexer ← lexer.saveKey?
  let (name, cursor) := lexer.cursor.skip.takeWhile isWordChar
  if name = [] || !(cursor.endsAt 0 || cursor.next?.any ("?:,]\x7d%@`".toList.contains ·)) then none
  else
    return { lexer.push (token (String.ofList name)) with cursor, keyAllowed := false }

def tagToken? (lexer : Lexer) : Option Lexer := do
  let lexer ← lexer.saveKey?
  let (token, cursor) ← tag? lexer.cursor
  if cursor.endsAt 0 || (lexer.inFlow && cursor.nextIs ',') then
    return { lexer.push token with cursor, keyAllowed := false }
  else none

def block? (lexer : Lexer) (style : ScalarStyle) : Option Lexer := do
  let lexer ← lexer.dropKey?
  let (text, cursor) ← lexer.cursor.skip.blockScalar? (style == .folded) lexer.indent
  return { lexer.push (.scalar style text) with cursor, keyAllowed := true }

def quoted? (lexer : Lexer) (style : ScalarStyle) : Option Lexer := do
  let lexer ← lexer.saveKey?
  let (text, cursor) ← lexer.cursor.skip.quotedScalar? (style == .singleQuoted)
  return { lexer.push (.scalar style text) with cursor, keyAllowed := false }

def plain? (lexer : Lexer) : Option Lexer := do
  let lexer ← lexer.saveKey?
  let (text, broken, cursor) ← lexer.cursor.plainScalar? lexer.inFlow lexer.indent
  return { lexer.push (.scalar .plain text) with cursor, keyAllowed := broken }

/-- Whether an unquoted scalar may start here. -/
def startsPlain (lexer : Lexer) (c : Char) : Bool :=
  let next := lexer.cursor.ahead? 1
  if isBlankOrEnd c then false
  else if c = '-' then !next.any Cursor.isBlank
  else if c = '?' || c = ':' then !lexer.inFlow && !lexer.cursor.endsAt 1
  else !(",[]\x7b\x7d#&*!|>'\"%@`".toList.contains c)

/-- Reads the token that starts with a character. -/
def token? (lexer : Lexer) (c : Char) : Option Lexer :=
  let cursor := lexer.cursor
  let alone := cursor.endsAt 1
  if cursor.column = 0 && c = '%' then lexer.directive?
  else if cursor.atMarker '-' then lexer.marker? .documentStart
  else if cursor.atMarker '.' then lexer.marker? .documentEnd
  else if c = '[' then lexer.openFlow? .flowSequenceStart
  else if c = '\x7b' then lexer.openFlow? .flowMappingStart
  else if c = ']' then lexer.closeFlow? .flowSequenceEnd
  else if c = '\x7d' then lexer.closeFlow? .flowMappingEnd
  else if c = ',' then (lexer.dropKey?).map fun lexer => lexer.simple 1 .flowEntry true
  else if c = '-' && alone then lexer.entry?
  else if c = '?' && (lexer.inFlow || alone) then lexer.key?
  else if c = ':' && (lexer.inFlow || alone) then lexer.value?
  else if c = '*' then lexer.anchor? .alias
  else if c = '&' then lexer.anchor? .anchor
  else if c = '!' then lexer.tagToken?
  else if c = '|' && !lexer.inFlow then lexer.block? .literal
  else if c = '>' && !lexer.inFlow then lexer.block? .folded
  else if c = '\'' then lexer.quoted? .singleQuoted
  else if c = '"' then lexer.quoted? .doubleQuoted
  else if lexer.startsPlain c then lexer.plain?
  else none

/-- Reads tokens to the end of the text, where all blocks are closed. -/
def run? : (fuel : Nat) → Lexer → Option Lexer
  | 0, _ => none
  | fuel + 1, lexer => do
    let lexer := lexer.toNextToken (lexer.cursor.rest.length + 1)
    let lexer ← lexer.refreshKeys?
    let lexer := lexer.unroll lexer.cursor.column
    match lexer.cursor.next? with
    | none => (lexer.unroll (-1)).dropKey?
    | some c => run? fuel (← lexer.token? c)

end Lexer

/-- The characters that a text may hold at all. -/
def isAllowed (c : Char) : Bool :=
  let n := c.toNat
  n == 9 || n == 10 || n == 13 || (32 ≤ n && n ≤ 126) || n == 0x85
    || (0xA0 ≤ n && n ≠ 0xFFFE && n ≠ 0xFFFF)

/-- The tokens of a text. -/
def Token.ofText? (text : String) : Option (List Token) :=
  let cs :=
    match text.toList with
    | '\uFEFF' :: rest => rest
    | cs => cs
  if cs.all isAllowed then
    (Lexer.run? (cs.length + 1) (.start cs)).map fun lexer => lexer.reversed.reverse
  else none

end ServiceContract.Yaml
