import ServiceContract.Toml.Document
import ServiceContract.Toml.Scalar

/-!
# Reading TOML

A document is a sequence of lines: blank ones, comments, headers and assignments. Arrays may run
over several lines, tables within a value may not. Values nest to a depth of 79, and a path has at
most 79 keys.
-/

namespace ServiceContract.Toml

/-- How deep values nest and how long paths are, counting one too many. -/
def depthLimit : Nat := 80

/-- Reads a comment, if there is one, up to the end of its line. -/
def comment? : List Char → Option (List Char)
  | '#' :: rest =>
    let rest := rest.dropWhile isPlain
    match rest with
    | [] => some []
    | _ => (lineEnd? rest).map fun _ => rest
  | cs => some cs

/-- Reads the rest of a line: blanks and a comment. -/
def endLine? (cs : List Char) : Option (List Char) := do
  let rest ← comment? (skipBlanks cs)
  if rest.isEmpty then some [] else lineEnd? rest

/-- Moves over blanks, line ends and comments. -/
def skipGap? : (fuel : Nat) → List Char → Option (List Char)
  | 0, _ => none
  | fuel + 1, cs =>
    match skipBlankLines cs with
    | '#' :: rest => (comment? ('#' :: rest)).bind (skipGap? fuel)
    | rest => some rest

def isBareChar (c : Char) : Bool := c.isAlphanum || c = '_' || c = '-'

/-- Reads one key. -/
def key? (cs : List Char) : Option (String × List Char) :=
  match lineText? cs with
  | some found => some found
  | none =>
    let run := cs.takeWhile isBareChar
    if run.isEmpty then none else some (String.ofList run, cs.drop run.length)

/-- Reads keys separated by points, with blanks around them. -/
def path? : (fuel : Nat) → List Char → Option (List String × List Char)
  | 0, _ => none
  | fuel + 1, cs => do
    let (key, rest) ← key? (skipBlanks cs)
    match skipBlanks rest with
    | '.' :: rest => (path? fuel rest).map fun (keys, rest) => (key :: keys, rest)
    | rest => some ([key], rest)

/-- Reads a path as its keys before the last one, and the last one. -/
def keyPath? (cs : List Char) : Option (List String × String × List Char) := do
  let (keys, rest) ← path? (cs.length + 1) cs
  let key ← keys.getLast?
  if keys.length < depthLimit then some (keys.dropLast, key, rest) else none

/-- Reads the items of an array after its bracket or a comma. -/
def items? (value : List Char → Read Json) : (fuel : Nat) → List Char → Read (List Json)
  | 0, _ => none
  | fuel + 1, cs =>
    match skipGap? (cs.length + 1) cs with
    | none => none
    | some (']' :: rest) => some ([], rest)
    | some cs =>
      match value cs with
      | none => none
      | some (item, rest) =>
        match skipGap? (rest.length + 1) rest with
        | some (',' :: rest) =>
          (items? value fuel rest).map fun (items, rest) => (item :: items, rest)
        | some (']' :: rest) => some ([item], rest)
        | _ => none

/-- Reads the assignments of a table within a value, from one assignment on. -/
def assignments? (value : List Char → Read Json) :
    (fuel : Nat) → Entries → List Char → Read Entries
  | 0, _, _ => none
  | fuel + 1, entries, cs =>
    match keyPath? cs with
    | some (path, key, '=' :: rest) =>
      match value (skipBlanks rest) with
      | none => none
      | some (v, rest) =>
        match entries.assign path key v with
        | none => none
        | some entries =>
          match skipBlanks rest with
          | ',' :: rest => assignments? value fuel entries rest
          | '\x7d' :: rest => some (entries, rest)
          | _ => none
    | _ => none

/-- Reads a value. -/
def value? : (fuel depth : Nat) → List Char → Read Json
  | 0, _, _ => none
  | _, _, [] => none
  | fuel + 1, depth, c :: rest =>
    if c = '[' then
      if depth ≤ 1 then none
      else (items? (value? fuel (depth - 1)) fuel rest).map fun (items, rest) =>
        (.array items, rest)
    else if c = '\x7b' then
      if depth ≤ 1 then none
      else
        match skipBlanks rest with
        | '\x7d' :: rest => some (.object [], rest)
        | rest =>
          (assignments? (value? fuel (depth - 1)) fuel [] rest).map fun (entries, rest) =>
            (.object (entriesToMembers entries), rest)
    else scalar? (c :: rest)

/-- Reads a header after its first bracket. -/
def header? (cs : List Char) : Read Statement :=
  match cs with
  | '[' :: rest =>
    match keyPath? rest with
    | some (path, key, ']' :: ']' :: rest) =>
      (endLine? rest).map fun rest => (.listedTable path key, rest)
    | _ => none
  | cs =>
    match keyPath? cs with
    | some (path, key, ']' :: rest) => (endLine? rest).map fun rest => (.table path key, rest)
    | _ => none

/-- Reads an assignment. -/
def assignment? (cs : List Char) : Option (Statement × List Char) :=
  match keyPath? cs with
  | some (path, key, '=' :: rest) => do
    let rest := skipBlanks rest
    let (v, rest) ← value? (rest.length + 1) depthLimit rest
    let rest ← endLine? rest
    return (.assignment path key v, rest)
  | _ => none

/-- Reads statements to the end. -/
def statements? : (fuel : Nat) → List Char → Option (List Statement)
  | 0, _ => none
  | fuel + 1, cs =>
    match skipGap? (cs.length + 1) cs with
    | none => none
    | some [] => some []
    | some ('[' :: rest) => do
      let (statement, rest) ← header? rest
      return statement :: (← statements? fuel rest)
    | some rest => do
      let (statement, rest) ← assignment? rest
      return statement :: (← statements? fuel rest)

/-- A text without the byte order mark at its start. -/
def dropByteOrderMark : List Char → List Char
  | '\uFEFF' :: rest => rest
  | cs => cs

/-- The tree of a document. -/
def read? (text : String) : Option Json :=
  let cs := dropByteOrderMark text.toList
  ((statements? (cs.length + 1) cs).bind Document.ofStatements?).map .object

end ServiceContract.Toml
