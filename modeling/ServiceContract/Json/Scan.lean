import ServiceContract.Json.Error

/-!
# Reading the tokens of a JSON text

Words, quoted text and numbers, and the punctuation of lists and objects. A function reads from a
cursor and gives what it read with the cursor behind it, or the error.

A number without fraction and exponent that fits 64 bits is kept exactly. Any other number becomes a
double: as many leading digits as fit an unsigned 64-bit word are rounded to a double, and that is
multiplied or divided by the double of a power of ten; digits that did not fit count as powers only.
A negative zero is a double, too.
-/

namespace ServiceContract.Json

/-- What reading yields. -/
abbrev Read (α : Type) := Except ReadError (α × Cursor)

def fail {α : Type} (fault : Fault) (position : Position) : Except ReadError α :=
  .error ⟨fault, position⟩

namespace Cursor

/-! ## Words -/

/-- Reads the rest of a word whose first letter has been read. -/
def word {α : Type} (value : α) : List Char → Cursor → Read α
  | [], cursor => .ok (value, cursor)
  | expected :: more, cursor =>
    match cursor.next? with
    | none => fail .endInValue cursor.here
    | some c =>
      if c = expected then word value more cursor.advance else fail .expectedWord cursor.beyond

/-! ## Quoted text -/

def hexValue? (c : Char) : Option Nat :=
  if '0' ≤ c ∧ c ≤ '9' then some (c.toNat - 48)
  else if 'a' ≤ c ∧ c ≤ 'f' then some (c.toNat - 87)
  else if 'A' ≤ c ∧ c ≤ 'F' then some (c.toNat - 55)
  else none

/-- The value of a run of hexadecimal digits. -/
def hexNumber? (cs : List Char) : Option Nat :=
  cs.foldl (fun value c => value.bind fun n => (hexValue? c).map (n * 16 + ·)) (some 0)

/-- Reads the four bytes of a hexadecimal escape. -/
def hexEscape (cursor : Cursor) : Read Nat :=
  if hasBytes cursor.rest 4 then
    match hexNumber? (cursor.rest.take 4) with
    | some n => .ok (n, cursor.skip 4)
    | none => fail .invalidEscape (cursor.after 4)
  else fail .endInString cursor.finish

/-- Reads one given character inside a pair of escapes. -/
def pairChar (expected : Char) (cursor : Cursor) : Except ReadError Cursor :=
  match cursor.next? with
  | none => fail .endInString cursor.here
  | some c => if c = expected then .ok cursor.advance else fail .endOfHexEscape cursor.beyond

def isHighSurrogate (n : Nat) : Bool := 0xD800 ≤ n && n ≤ 0xDBFF

def isLowSurrogate (n : Nat) : Bool := 0xDC00 ≤ n && n ≤ 0xDFFF

/-- Reads the digits of an escape; a high surrogate needs a low one in a second escape. -/
def unicodeEscape (cursor : Cursor) : Except ReadError (Char × Cursor) := do
  let (high, cursor) ← cursor.hexEscape
  if isLowSurrogate high then fail .loneSurrogate cursor.here
  else if isHighSurrogate high then
    let cursor ← cursor.pairChar '\\'
    let cursor ← cursor.pairChar 'u'
    let (low, cursor) ← cursor.hexEscape
    if isLowSurrogate low then
      return (Char.ofNat ((high - 0xD800) * 1024 + (low - 0xDC00) + 0x10000), cursor)
    else fail .loneSurrogate cursor.here
  else return (Char.ofNat high, cursor)

/-- The character that a letter after the backslash stands for. -/
def simpleEscape? (c : Char) : Option Char :=
  match c with
  | '"' => some '"'
  | '\\' => some '\\'
  | '/' => some '/'
  | 'b' => some '\x08'
  | 'f' => some '\x0c'
  | 'n' => some '\n'
  | 'r' => some '\r'
  | 't' => some '\t'
  | _ => none

/-- Reads an escape after its backslash. -/
def escape (cursor : Cursor) : Read Char :=
  match cursor.next? with
  | none => fail .endInString cursor.here
  | some c =>
    if c = 'u' then cursor.advance.unicodeEscape
    else match simpleEscape? c with
      | some meant => .ok (meant, cursor.advance)
      | none => fail .invalidEscape cursor.beyond

/-- Reads quoted text after its opening quote; `read` holds the characters so far in reverse. -/
def quotedFrom : (fuel : Nat) → (read : List Char) → Cursor → Read String
  | 0, _, cursor => fail .endInString cursor.here
  | fuel + 1, read, cursor =>
    match cursor.next? with
    | none => fail .endInString cursor.here
    | some c =>
      if c = '"' then .ok (String.ofList read.reverse, cursor.advance)
      else if c = '\\' then
        match cursor.advance.escape with
        | .ok (meant, cursor) => quotedFrom fuel (meant :: read) cursor
        | .error error => .error error
      else if c.toNat < 32 then fail .controlCharacter cursor.beyond
      else quotedFrom fuel (c :: read) cursor.advance

/-- Reads quoted text after its opening quote. -/
def quoted (cursor : Cursor) : Read String := quotedFrom (cursor.rest.length + 1) [] cursor

/-! ## Numbers -/

def digitValue (c : Char) : Nat := c.toNat - 48

def nextIsDigit (cursor : Cursor) : Bool := cursor.next?.any (·.isDigit)

def nextIsExponent (cursor : Cursor) : Bool := cursor.next?.any fun c => c = 'e' || c = 'E'

/-- Digits read into a word: their value, how many there were, and whether another digit is left
that no longer fits. -/
structure Significand where
  value : Nat
  count : Nat
  full : Bool

/-- Reads digits below a bound. -/
def digitsBelow (bound : Nat) : (value count : Nat) → List Char → (line column : Nat) →
    Significand × Cursor
  | value, count, [], line, column => (⟨value, count, false⟩, ⟨[], line, column⟩)
  | value, count, c :: rest, line, column =>
    if c.isDigit then
      if value * 10 + digitValue c < bound then
        digitsBelow bound (value * 10 + digitValue c) (count + 1) rest line (column + 1)
      else (⟨value, count, true⟩, ⟨c :: rest, line, column⟩)
    else (⟨value, count, false⟩, ⟨c :: rest, line, column⟩)

/-- Moves over digits and counts them. -/
def skipDigitsFrom : (count : Nat) → List Char → (line column : Nat) → Nat × Cursor
  | count, [], line, column => (count, ⟨[], line, column⟩)
  | count, c :: rest, line, column =>
    if c.isDigit then skipDigitsFrom (count + 1) rest line (column + 1)
    else (count, ⟨c :: rest, line, column⟩)

def skipDigits (cursor : Cursor) : Nat × Cursor :=
  skipDigitsFrom 0 cursor.rest cursor.line cursor.column

/-- The largest power of ten that is a finite double. -/
def greatestPower : Nat := 308

/-- Scales a double by a power of ten, in steps of at most `10^308`; `none` when it grows too
large. -/
def scale? : (fuel : Nat) → Binary64 → Int → Option Binary64
  | 0, x, _ => some x
  | fuel + 1, x, power =>
    if power.natAbs ≤ greatestPower then
      (Binary64.ofDecimal? false 1 power.natAbs).bind fun factor =>
        if 0 ≤ power then x.mul? factor else x.div? factor
    else if x.isZero then some x
    else if 0 ≤ power then none
    else
      (Binary64.ofDecimal? false 1 greatestPower).bind fun factor =>
        (x.div? factor).bind fun x => scale? fuel x (power + greatestPower)

/-- The double of a significand and a power of ten. -/
def ofParts (positive : Bool) (significand : Nat) (power : Int) (cursor : Cursor) : Read Number :=
  match (Binary64.ofNat? significand).bind fun x => scale? 4 x power with
  | some x => .ok (.float ⟨!positive, x.mantissa, x.exponent⟩, cursor)
  | none => fail .numberOutOfRange cursor.here

/-- Reads an exponent from its letter on. -/
def exponent (positive : Bool) (significand : Nat) (power : Int) (cursor : Cursor) :
    Read Number :=
  let cursor := cursor.advance
  let (upward, cursor) :=
    match cursor.next? with
    | some '+' => (true, cursor.advance)
    | some '-' => (false, cursor.advance)
    | _ => (true, cursor)
  match cursor.next? with
  | none => fail .endInValue cursor.here
  | some c =>
    if c.isDigit then
      let (digits, cursor) := digitsBelow Word.half32 0 0 cursor.rest cursor.line cursor.column
      if digits.full then
        if significand ≠ 0 && upward then fail .numberOutOfRange cursor.advance.here
        else .ok (.float ⟨!positive, 0, Binary64.minExponent⟩, cursor.skipDigits.2)
      else if upward then ofParts positive significand (power + digits.value) cursor
      else ofParts positive significand (power - digits.value) cursor
    else fail .invalidNumber cursor.beyond

/-- Goes on after the digits of a double: with the exponent, if there is one. -/
def exponentOrEnd (positive : Bool) (significand : Nat) (power : Int) (cursor : Cursor) :
    Read Number :=
  if cursor.nextIsExponent then cursor.exponent positive significand power
  else ofParts positive significand power cursor

/-- Reads a fraction from its point on. -/
def fraction (positive : Bool) (significand : Nat) (power : Int) (cursor : Cursor) : Read Number :=
  let cursor := cursor.advance
  let (digits, cursor) :=
    digitsBelow Word.size64 significand 0 cursor.rest cursor.line cursor.column
  let power := power - digits.count
  if digits.full then exponentOrEnd positive digits.value power cursor.skipDigits.2
  else if digits.count = 0 then
    match cursor.next? with
    | some _ => fail .invalidNumber cursor.beyond
    | none => fail .endInValue cursor.here
  else exponentOrEnd positive digits.value power cursor

/-- Goes on after the digits before the point. -/
def afterDigits (positive : Bool) (significand : Nat) (cursor : Cursor) : Read Number :=
  match cursor.next? with
  | some '.' => cursor.fraction positive significand 0
  | _ =>
    if cursor.nextIsExponent then cursor.exponent positive significand 0
    else if positive then .ok (.whole significand, cursor)
    else if significand = 0 || Word.half64 < significand then ofParts false significand 0 cursor
    else .ok (.whole (-significand), cursor)

/-- Reads a number after its sign. -/
def number (positive : Bool) (cursor : Cursor) : Read Number :=
  match cursor.next? with
  | none => fail .endInValue cursor.here
  | some c =>
    if c = '0' then
      let cursor := cursor.advance
      if cursor.nextIsDigit then fail .invalidNumber cursor.beyond
      else cursor.afterDigits positive 0
    else if c.isDigit then
      let (digits, cursor) := digitsBelow Word.size64 0 0 cursor.rest cursor.line cursor.column
      if digits.full then
        let (more, cursor) := cursor.skipDigits
        match cursor.next? with
        | some '.' => cursor.fraction positive digits.value more
        | _ => exponentOrEnd positive digits.value more cursor
      else cursor.afterDigits positive digits.value
    else fail .invalidNumber cursor.beyond

/-! ## Punctuation -/

/-- Moves to the next item of a list: `true` with the cursor at the item, or `false` with the cursor
at the closing bracket. -/
def nextItem (first : Bool) (cursor : Cursor) : Read Bool :=
  let cursor := cursor.skipSpace
  match cursor.next? with
  | none => fail .endInList cursor.here
  | some c =>
    if c = ']' then .ok (false, cursor)
    else if first then .ok (true, cursor)
    else if c = ',' then
      let cursor := cursor.advance.skipSpace
      match cursor.next? with
      | none => fail .endInValue cursor.here
      | some c => if c = ']' then fail .trailingComma cursor.beyond else .ok (true, cursor)
    else fail .expectedListCommaOrEnd cursor.beyond

/-- Moves to the next key of an object: `true` with the cursor at its quote, or `false` with the
cursor at the closing brace. -/
def nextKey (first : Bool) (cursor : Cursor) : Read Bool :=
  let cursor := cursor.skipSpace
  match cursor.next? with
  | none => fail .endInObject cursor.here
  | some c =>
    if c = '\x7d' then .ok (false, cursor)
    else if first then
      if c = '"' then .ok (true, cursor) else fail .keyMustBeString cursor.beyond
    else if c = ',' then
      let cursor := cursor.advance.skipSpace
      match cursor.next? with
      | none => fail .endInValue cursor.here
      | some c =>
        if c = '"' then .ok (true, cursor)
        else if c = '\x7d' then fail .trailingComma cursor.beyond
        else fail .keyMustBeString cursor.beyond
    else fail .expectedObjectCommaOrEnd cursor.beyond

/-- Reads the colon after a key. -/
def colon (cursor : Cursor) : Except ReadError Cursor :=
  let cursor := cursor.skipSpace
  match cursor.next? with
  | none => fail .endInObject cursor.here
  | some c => if c = ':' then .ok cursor.advance else fail .expectedColon cursor.beyond

/-- Reads the closing bracket of a list. -/
def endList (cursor : Cursor) : Except ReadError Cursor :=
  let cursor := cursor.skipSpace
  match cursor.next? with
  | none => fail .endInList cursor.here
  | some c =>
    if c = ']' then .ok cursor.advance
    else if c = ',' then
      let cursor := cursor.advance.skipSpace
      if cursor.next? = some ']' then fail .trailingComma cursor.beyond
      else fail .trailingCharacters cursor.beyond
    else fail .trailingCharacters cursor.beyond

/-- Where the attempt to close a list ends, whether it succeeds or not. -/
def afterList (cursor : Cursor) : Position :=
  let cursor := cursor.skipSpace
  match cursor.next? with
  | some ']' => cursor.advance.here
  | some ',' => cursor.advance.skipSpace.here
  | _ => cursor.here

/-- Reads the closing brace of an object. -/
def endObject (cursor : Cursor) : Except ReadError Cursor :=
  let cursor := cursor.skipSpace
  match cursor.next? with
  | none => fail .endInObject cursor.here
  | some c =>
    if c = '\x7d' then .ok cursor.advance
    else if c = ',' then fail .trailingComma cursor.beyond
    else fail .trailingCharacters cursor.beyond

/-- Where the attempt to close an object ends, whether it succeeds or not. -/
def afterObject (cursor : Cursor) : Position :=
  let cursor := cursor.skipSpace
  match cursor.next? with
  | some '\x7d' => cursor.advance.here
  | _ => cursor.here

/-- Nothing but white space may follow a complete text. -/
def endText (cursor : Cursor) : Except ReadError Unit :=
  let cursor := cursor.skipSpace
  match cursor.next? with
  | none => .ok ()
  | some _ => fail .trailingCharacters cursor.beyond

/-- Reads the items of a list after its opening bracket, each by `item`. -/
def items {α : Type} (item : Cursor → Read α) : (fuel : Nat) → (first : Bool) →
    (read : List α) → Cursor → Read (List α)
  | 0, _, _, cursor => fail .endInList cursor.here
  | fuel + 1, first, read, cursor =>
    match cursor.nextItem first with
    | .error error => .error error
    | .ok (false, cursor) => .ok (read.reverse, cursor)
    | .ok (true, cursor) =>
      match item cursor with
      | .error error => .error error
      | .ok (a, cursor) => items item fuel false (a :: read) cursor

/-- Reads the members of an object after its opening brace, each value by `value`. -/
def members {α : Type} (value : Cursor → Read α) : (fuel : Nat) → (first : Bool) →
    (read : List (String × α)) → Cursor → Read (List (String × α))
  | 0, _, _, cursor => fail .endInObject cursor.here
  | fuel + 1, first, read, cursor =>
    match cursor.nextKey first with
    | .error error => .error error
    | .ok (false, cursor) => .ok (read.reverse, cursor)
    | .ok (true, cursor) =>
      match cursor.advance.quoted with
      | .error error => .error error
      | .ok (key, cursor) =>
        match cursor.colon.bind value with
        | .error error => .error error
        | .ok (a, cursor) => members value fuel false ((key, a) :: read) cursor

end Cursor

end ServiceContract.Json
