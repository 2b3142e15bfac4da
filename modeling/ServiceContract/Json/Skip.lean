import ServiceContract.Json.Scan

/-!
# Passing over a JSON value

The value of a key that a record does not know is passed over. Its text must be well formed, but
it may nest to any depth, its numbers may have any size, and its escapes need not pair surrogates.
-/

namespace ServiceContract.Json.Cursor

/-- Passes over an escape after its backslash. -/
def skipEscape (cursor : Cursor) : Except ReadError Cursor :=
  match cursor.next? with
  | none => fail .endInString cursor.here
  | some c =>
    if c = 'u' then cursor.advance.hexEscape.map (·.2)
    else match simpleEscape? c with
      | some _ => .ok cursor.advance
      | none => fail .invalidEscape cursor.beyond

/-- Passes over quoted text after its opening quote. -/
def skipQuoted : (fuel : Nat) → Cursor → Except ReadError Cursor
  | 0, cursor => fail .endInString cursor.here
  | fuel + 1, cursor =>
    match cursor.next? with
    | none => fail .endInString cursor.here
    | some c =>
      if c = '"' then .ok cursor.advance
      else if c = '\\' then
        match cursor.advance.skipEscape with
        | .ok cursor => skipQuoted fuel cursor
        | .error error => .error error
      else if c.toNat < 32 then fail .controlCharacter cursor.here
      else skipQuoted fuel cursor.advance

/-- Passes over an exponent from its letter on. -/
def skipExponent (cursor : Cursor) : Except ReadError Cursor :=
  let cursor := cursor.advance
  let cursor :=
    match cursor.next? with
    | some '+' | some '-' => cursor.advance
    | _ => cursor
  if cursor.nextIsDigit then .ok cursor.skipDigits.2 else fail .invalidNumber cursor.beyond

/-- Passes over a number after its sign. -/
def skipNumber (cursor : Cursor) : Except ReadError Cursor :=
  match cursor.next? with
  | none => fail .invalidNumber cursor.here
  | some c =>
    if c = '0' && cursor.advance.nextIsDigit then fail .invalidNumber cursor.advance.beyond
    else if c.isDigit then
      let cursor := cursor.skipDigits.2
      match cursor.next? with
      | some '.' =>
        let (count, cursor) := cursor.advance.skipDigits
        if count = 0 then fail .invalidNumber cursor.beyond
        else if cursor.nextIsExponent then cursor.skipExponent
        else .ok cursor
      | _ => if cursor.nextIsExponent then cursor.skipExponent else .ok cursor
    else fail .invalidNumber cursor.beyond

/-- What follows an item: `true` with the cursor behind a comma, or `false` behind the closing
bracket `close`. -/
def skipSeparator (close : Char) (cursor : Cursor) : Read Bool :=
  let cursor := cursor.skipSpace
  match cursor.next? with
  | none => fail (if close = ']' then .endInList else .endInObject) cursor.here
  | some c =>
    if c = close then .ok (false, cursor.advance)
    else if c = ',' then .ok (true, cursor.advance)
    else
      fail (if close = ']' then .expectedListCommaOrEnd else .expectedObjectCommaOrEnd)
        cursor.beyond

/-- Passes over a key and its colon. -/
def skipKey (cursor : Cursor) : Except ReadError Cursor :=
  let cursor := cursor.skipSpace
  match cursor.next? with
  | none => fail .endInObject cursor.here
  | some c =>
    if c = '"' then (skipQuoted (cursor.rest.length + 1) cursor.advance).bind colon
    else fail .keyMustBeString cursor.beyond

/-- Passes over the items of a list, or the members of an object, up to the closing bracket. -/
def skipItems (item : Cursor → Except ReadError Cursor) (close : Char) :
    (fuel : Nat) → Cursor → Except ReadError Cursor
  | 0, cursor => fail .endInList cursor.here
  | fuel + 1, cursor =>
    match item cursor with
    | .error error => .error error
    | .ok cursor =>
      match cursor.skipSeparator close with
      | .error error => .error error
      | .ok (false, cursor) => .ok cursor
      | .ok (true, cursor) => skipItems item close fuel cursor

/-- Passes over a container after its opening bracket. -/
def skipContainer (item : Cursor → Except ReadError Cursor) (close : Char) (fuel : Nat)
    (cursor : Cursor) : Except ReadError Cursor :=
  let inside := cursor.skipSpace
  match inside.next? with
  | none => fail (if close = ']' then .endInList else .endInObject) inside.here
  | some c => if c = close then .ok inside.advance else skipItems item close fuel inside

/-- Passes over a value. -/
def skipValue : (fuel : Nat) → Cursor → Except ReadError Cursor
  | 0, cursor => fail .endInValue cursor.here
  | fuel + 1, cursor =>
    let cursor := cursor.skipSpace
    match cursor.next? with
    | none => fail .endInValue cursor.here
    | some c =>
      if c = 'n' then (cursor.advance.word () ['u', 'l', 'l']).map (·.2)
      else if c = 't' then (cursor.advance.word () ['r', 'u', 'e']).map (·.2)
      else if c = 'f' then (cursor.advance.word () ['a', 'l', 's', 'e']).map (·.2)
      else if c = '-' then cursor.advance.skipNumber
      else if c.isDigit then cursor.skipNumber
      else if c = '"' then skipQuoted (cursor.rest.length + 1) cursor.advance
      else if c = '[' then skipContainer (skipValue fuel) ']' fuel cursor.advance
      else if c = '\x7b' then
        skipContainer (fun cursor => cursor.skipKey.bind (skipValue fuel)) '\x7d' fuel
          cursor.advance
      else fail .expectedValue cursor.beyond

end ServiceContract.Json.Cursor
