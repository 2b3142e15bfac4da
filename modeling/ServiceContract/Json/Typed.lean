import ServiceContract.Form
import ServiceContract.Json.Skip

/-!
# Reading a form from a JSON text

The text is read in one pass, and the form decides what may come next. A value of another kind is
read, too, so that the error can show it; its error stands behind it. Errors about a whole record
— a field that is missing or repeated, a list that is too short — are noticed when the record
ends.
-/

namespace ServiceContract.Json

namespace Cursor

/-- The error of a value of another kind than the expected one. -/
def mismatch {α : Type} (expected : String) (cursor : Cursor) : Except ReadError α :=
  match cursor.next? with
  | none => fail .expectedValue cursor.here
  | some c =>
    if c = 'n' then do
      let (_, after) ← cursor.advance.word () ['u', 'l', 'l']
      fail (.mismatch .null expected) after.here
    else if c = 't' then do
      let (_, after) ← cursor.advance.word () ['r', 'u', 'e']
      fail (.mismatch (.bool true) expected) after.here
    else if c = 'f' then do
      let (_, after) ← cursor.advance.word () ['a', 'l', 's', 'e']
      fail (.mismatch (.bool false) expected) after.here
    else if c = '-' then do
      let (n, after) ← cursor.advance.number false
      fail (.mismatch (.number n) expected) after.here
    else if c.isDigit then do
      let (n, after) ← cursor.number true
      fail (.mismatch (.number n) expected) after.here
    else if c = '"' then do
      let (s, after) ← cursor.advance.quoted
      fail (.mismatch (.string s) expected) after.here
    else if c = '[' then fail (.mismatch .sequence expected) cursor.here
    else if c = '\x7b' then fail (.mismatch .map expected) cursor.here
    else fail .expectedValue cursor.beyond

/-- Reads a text. -/
def text (expected : String) (cursor : Cursor) : Read String :=
  let cursor := cursor.skipSpace
  match cursor.next? with
  | none => fail .endInValue cursor.here
  | some c => if c = '"' then cursor.advance.quoted else cursor.mismatch expected

/-- Reads a flag. -/
def flag (cursor : Cursor) : Read Bool :=
  let cursor := cursor.skipSpace
  match cursor.next? with
  | none => fail .endInValue cursor.here
  | some c =>
    if c = 't' then cursor.advance.word true ['r', 'u', 'e']
    else if c = 'f' then cursor.advance.word false ['a', 'l', 's', 'e']
    else cursor.mismatch "a boolean"

/-- Reads a count. -/
def count (cursor : Cursor) : Except ReadError (Nat × Cursor) :=
  let cursor := cursor.skipSpace
  match cursor.next? with
  | none => fail .endInValue cursor.here
  | some c =>
    if c = '-' || c.isDigit then do
      let (n, cursor) ← if c = '-' then cursor.advance.number false else cursor.number true
      match n with
      | .whole n =>
        if 0 ≤ n then return (n.toNat, cursor) else fail (.badCount n) cursor.here
      | .float x => fail (.mismatch (.number (.float x)) "usize") cursor.here
    else cursor.mismatch "usize"

/-- Reads null. -/
def nothing (cursor : Cursor) : Read Unit :=
  let cursor := cursor.skipSpace
  match cursor.next? with
  | none => fail .endInValue cursor.here
  | some c =>
    if c = 'n' then cursor.advance.word () ['u', 'l', 'l'] else cursor.mismatch "unit"

/-- Reads the name of a variant. -/
def variant {α : Type} (variants : List (String × α)) (cursor : Cursor) :
    Except ReadError (α × Cursor) := do
  let (name, cursor) ← cursor.text "variant identifier"
  match variants.lookup name with
  | some a => return (a, cursor)
  | none => fail (.unknownVariant name (variants.map (·.1))) cursor.here

/-- Reads a choice: the name of a variant, or an object with that name as its key and null under
it. -/
def choice {α : Type} (variants : List (String × α)) (cursor : Cursor) :
    Except ReadError (α × Cursor) :=
  let cursor := cursor.skipSpace
  match cursor.next? with
  | none => fail .endInValue cursor.here
  | some c =>
    if c = '"' then cursor.variant variants
    else if c = '\x7b' then do
      let (a, cursor) ← cursor.advance.variant variants
      let cursor ← cursor.colon
      let (_, cursor) ← cursor.nothing
      let cursor := cursor.skipSpace
      match cursor.next? with
      | none => fail .endInObject cursor.here
      | some c =>
        if c = '\x7d' then return (a, cursor.advance) else fail .expectedValue cursor.here
    else fail .expectedValue cursor.beyond

end Cursor

/-- How a value of any form is read; the parts of a record and of a list are read by it. -/
abbrev FormReader := {α : Type} → Form α → Cursor → Except ReadError (α × Cursor)

end ServiceContract.Json

namespace ServiceContract.Fields

open Json

/-- Reads the value of a named field into its slot. -/
def readField (read : FormReader) :
    {β σ : Type} → Fields β σ → σ → String → Cursor → Except ReadError (σ × Cursor)
  | _, _, .nil, _, _, cursor => .ok ((), cursor)
  | _, _, .cons name form _ rest, (value, values), key, cursor =>
    if name = key then
      (read form cursor).map fun (a, cursor) => ((some a, values), cursor)
    else
      (rest.readField read values key cursor).map fun (values, cursor) =>
        ((value, values), cursor)

/-- Reads the fields from the items of a list, after its opening bracket. -/
def readItems (read : FormReader) (mayEndEarly : Bool) (expected : String) :
    {β σ : Type} → Fields β σ → (index : Nat) → Cursor → Except ReadError (β × Cursor)
  | _, _, .nil, _, cursor => .ok ((), cursor)
  | _, _, .cons _ form fallback rest, index, cursor => do
    let (more, cursor) ← cursor.nextItem (index = 0)
    let (a, cursor) ←
      if more then read form cursor
      else match (if mayEndEarly then fallback else none) with
        | some a => .ok (a, cursor)
        | none => fail (.badLength index expected) cursor.afterList
    let (b, cursor) ← rest.readItems read mayEndEarly expected (index + 1) cursor
    return ((a, b), cursor)

/-- Reads the fields from the members of an object, after its opening brace. -/
def readMembers (read : FormReader) {β σ : Type} (fields : Fields β σ) :
    (fuel : Nat) → (first : Bool) → σ → Cursor → Except ReadError (σ × Cursor)
  | 0, _, _, cursor => fail .endInObject cursor.here
  | fuel + 1, first, slots, cursor => do
    let (more, cursor) ← cursor.nextKey first
    if more then
      let (key, cursor) ← cursor.advance.quoted
      match fields.filled? slots key with
      | none =>
        let cursor ← cursor.colon
        let cursor ← cursor.skipValue (cursor.rest.length + 1)
        readMembers read fields fuel false slots cursor
      | some true => fail (.duplicateField key) cursor.afterObject
      | some false =>
        let cursor ← cursor.colon
        let (slots, cursor) ← fields.readField read slots key cursor
        readMembers read fields fuel false slots cursor
    else return (slots, cursor)

end ServiceContract.Fields

namespace ServiceContract.Json

namespace Cursor

/-- What a record expects of a list. -/
def lengthText (name : String) (size : Nat) : String :=
  "struct " ++ name ++ " with " ++ toString size ++ if size = 1 then " element" else " elements"

/-- Reads a record from an object or a list. -/
def record (read : FormReader) (fuel : Nat) (name : String) (mayEndEarly : Bool) {β σ : Type}
    (fields : Fields β σ) (cursor : Cursor) : Except ReadError (β × Cursor) :=
  let cursor := cursor.skipSpace
  match cursor.next? with
  | none => fail .endInValue cursor.here
  | some c =>
    if c = '[' then do
      let (b, cursor) ←
        fields.readItems read mayEndEarly (lengthText name fields.size) 0 cursor.advance
      return (b, ← cursor.endList)
    else if c = '\x7b' then do
      let (slots, cursor) ← fields.readMembers read fuel true fields.empty cursor.advance
      match fields.complete slots with
      | .ok b => return (b, ← cursor.endObject)
      | .error missing => fail (.missingField missing) cursor.afterObject
    else cursor.mismatch ("struct " ++ name)

/-- Reads a value of a form. -/
def form : (fuel : Nat) → {α : Type} → Form α → Cursor → Except ReadError (α × Cursor)
  | 0, _, _, cursor => fail .endInValue cursor.here
  | _ + 1, _, .text, cursor => cursor.text "a string"
  | _ + 1, _, .flag, cursor => cursor.flag
  | _ + 1, _, .count, cursor => cursor.count
  | _ + 1, _, .choice variants _, cursor => cursor.choice variants
  | fuel + 1, _, .list item, cursor =>
    let cursor := cursor.skipSpace
    match cursor.next? with
    | none => fail .endInValue cursor.here
    | some c =>
      if c = '[' then do
        let (read, cursor) ← items (form fuel item) fuel true [] cursor.advance
        return (read, ← cursor.endList)
      else cursor.mismatch "a sequence"
  | fuel + 1, _, .option item, cursor => do
    let cursor := cursor.skipSpace
    if cursor.next? = some 'n' then
      let (_, cursor) ← cursor.advance.word () ['u', 'l', 'l']
      return (none, cursor)
    else
      let (a, cursor) ← form fuel item cursor
      return (some a, cursor)
  | fuel + 1, _, .record name mayEndEarly fields build _, cursor =>
    (record (fun inner cursor => form fuel inner cursor) fuel name mayEndEarly fields cursor).map
      fun (b, cursor) => (build b, cursor)

end Cursor

/-- Reads a whole text as one value of a form. -/
def readAs {α : Type} (form : Form α) (text : String) : Except ReadError α := do
  let start := Cursor.start text
  let (a, cursor) ← start.form (start.rest.length + 1) form
  cursor.endText
  return a

end ServiceContract.Json
