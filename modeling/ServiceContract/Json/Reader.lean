import ServiceContract.Json.Scan

/-!
# Reading any JSON value

At most 127 lists and objects may be open at once. A key that an object repeats keeps its first
place and takes its last value.
-/

namespace ServiceContract.Json

/-- How many containers may be open, counting one too many. -/
def depthLimit : Nat := 128

namespace Cursor

/-- Reads a value. `depth` says how many more containers may open, counting one too many. -/
def value : (fuel depth : Nat) → Cursor → Except ReadError (Json × Cursor)
  | 0, _, cursor => fail .endInValue cursor.here
  | fuel + 1, depth, cursor =>
    let cursor := cursor.skipSpace
    match cursor.next? with
    | none => fail .endInValue cursor.here
    | some c =>
      if c = 'n' then cursor.advance.word .null ['u', 'l', 'l']
      else if c = 't' then cursor.advance.word (.bool true) ['r', 'u', 'e']
      else if c = 'f' then cursor.advance.word (.bool false) ['a', 'l', 's', 'e']
      else if c = '-' then do
        let (n, cursor) ← cursor.advance.number false
        return (.number n, cursor)
      else if c.isDigit then do
        let (n, cursor) ← cursor.number true
        return (.number n, cursor)
      else if c = '"' then do
        let (s, cursor) ← cursor.advance.quoted
        return (.string s, cursor)
      else if c = '[' then
        if depth ≤ 1 then fail .tooDeep cursor.beyond
        else do
          let (read, cursor) ← items (value fuel (depth - 1)) fuel true [] cursor.advance
          let cursor ← cursor.endList
          return (.array read, cursor)
      else if c = '\x7b' then
        if depth ≤ 1 then fail .tooDeep cursor.beyond
        else do
          let (read, cursor) ← members (value fuel (depth - 1)) fuel true [] cursor.advance
          let cursor ← cursor.endObject
          return (.object (Members.ofPairs read), cursor)
      else fail .expectedValue cursor.beyond

end Cursor

/-- Reads a whole text as one value. -/
def read (text : String) : Except ReadError Json := do
  let start := Cursor.start text
  let (value, cursor) ← start.value (start.rest.length + 1) depthLimit
  cursor.endText
  return value

end ServiceContract.Json
