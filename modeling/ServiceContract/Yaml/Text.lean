import ServiceContract.Yaml.Cursor

/-!
# Reading YAML scalars

Block scalars, quoted scalars and plain scalars. Lines are folded in all but literal blocks: a
single line end becomes a space, and of several the first one is dropped.
-/

namespace ServiceContract.Yaml

/-- What reading yields. -/
abbrev Read (α : Type) := Option (α × Cursor)

namespace Cursor

/-! ## Folding -/

/-- Blanks and line ends between two words: the blanks before the first line end, that line end, and
the later ones. -/
structure Gap where
  blanks : List Char
  first : List Char
  later : List Char
  /-- Whether there is a line end, or an escaped one. -/
  broken : Bool

/-- What a gap stands for in a folded text. -/
def Gap.fold (gap : Gap) : List Char :=
  if gap.broken then
    if gap.first = ['\n'] then (if gap.later = [] then [' '] else gap.later)
    else gap.first ++ gap.later
  else gap.blanks

/-- Reads blanks and line ends. A tabulator in front of column `tabLimit` of a later line is
refused. -/
def gap? (tabLimit : Nat) : (fuel : Nat) → Gap → Cursor → Read Gap
  | 0, _, _ => none
  | fuel + 1, gap, cursor =>
    match cursor.next? with
    | some ' ' =>
      gap? tabLimit fuel (if gap.broken then gap else { gap with blanks := gap.blanks ++ [' '] })
        cursor.skip
    | some '\t' =>
      if gap.broken && cursor.column < tabLimit then none
      else
        gap? tabLimit fuel
          (if gap.broken then gap else { gap with blanks := gap.blanks ++ ['\t'] }) cursor.skip
    | some c =>
      if isBreak c then
        let (ending, cursor) := cursor.lineEnd
        gap? tabLimit fuel
          (if gap.broken then { gap with later := gap.later ++ ending }
          else { gap with first := ending, blanks := [], broken := true }) cursor
      else some (gap, cursor)
    | none => some (gap, cursor)

/-! ## Block scalars -/

/-- What happens to the line ends at the end of a block. -/
inductive Chomping where
  | strip
  | clip
  | keep
  deriving DecidableEq

/-- The number of an indentation mark; zero is none. -/
def indentMark? (cursor : Cursor) : Read Nat :=
  match cursor.next? with
  | some c =>
    if c = '0' then none
    else if c.isDigit then some (c.toNat - 48, cursor.skip)
    else some (0, cursor)
  | none => some (0, cursor)

def chompingMark (cursor : Cursor) : Chomping × Cursor :=
  match cursor.next? with
  | some '+' => (.keep, cursor.skip)
  | some '-' => (.strip, cursor.skip)
  | _ => (.clip, cursor)

/-- Reads the marks after the indicator of a block, in either order. -/
def blockMarks? (cursor : Cursor) : Option (Chomping × Nat × Cursor) :=
  match cursor.chompingMark with
  | (.clip, cursor) =>
    match cursor.indentMark? with
    | some (0, cursor) => some (.clip, 0, cursor)
    | some (increment, cursor) =>
      let (chomping, cursor) := cursor.chompingMark
      some (chomping, increment, cursor)
    | none => none
  | (chomping, cursor) => (cursor.indentMark?).map fun (n, cursor) => (chomping, n, cursor)

/-- Moves over the indentation of a line, up to `indent` if that is known. -/
def skipIndent (indent : Nat) : (fuel : Nat) → Cursor → Cursor
  | 0, cursor => cursor
  | fuel + 1, cursor =>
    if (indent == 0 || cursor.column < indent) && cursor.nextIs ' ' then
      skipIndent indent fuel cursor.skip
    else cursor

/-- Reads the empty lines before a line of a block: the line ends and the greatest column that was
reached. -/
def emptyLines? (indent : Nat) : (fuel widest : Nat) → List Char → Cursor →
    Option (Nat × List Char × Cursor)
  | 0, _, _, _ => none
  | fuel + 1, widest, endings, cursor =>
    let cursor := cursor.skipIndent indent (cursor.rest.length + 1)
    let widest := max widest cursor.column
    if (indent == 0 || cursor.column < indent) && cursor.nextIs '\t' then none
    else if cursor.atBreak then
      let (ending, cursor) := cursor.lineEnd
      emptyLines? indent fuel widest (endings ++ ending) cursor
    else some (widest, endings, cursor)

/-- The lines of a block so far: its text, the last line end, the empty lines after it, and whether
the last line began with a blank. -/
structure BlockText where
  text : List Char
  ending : List Char
  empty : List Char
  blankStart : Bool

/-- Reads the lines of a block. -/
def blockLines? (folded : Bool) (indent : Nat) : (fuel : Nat) → BlockText → Cursor →
    Read BlockText
  | 0, _, _ => none
  | fuel + 1, read, cursor =>
    if cursor.column == indent && cursor.next?.isSome then
      let blank := cursor.atBlank
      let joint :=
        if folded && read.ending = ['\n'] && !read.blankStart && !blank then
          if read.empty = [] then [' '] else []
        else read.ending
      let (line, cursor) := cursor.takeWhile fun c => !isBreak c
      let (ending, cursor) := cursor.lineEnd
      match cursor.emptyLines? indent (cursor.rest.length + 1) 0 [] with
      | none => none
      | some (_, empty, cursor) =>
        blockLines? folded indent fuel
          ⟨read.text ++ joint ++ read.empty ++ line, ending, empty, blank⟩ cursor
    else some (read, cursor)

/-- Reads a block scalar after its indicator; `parent` is the indentation around it. -/
def blockScalar? (folded : Bool) (parent : Int) (cursor : Cursor) :
    Option (String × Cursor) := do
  let (chomping, increment, cursor) ← cursor.blockMarks?
  let cursor := cursor.skipBlanks.skipComment
  if !cursor.atLineEnd then none
  else
    let cursor := cursor.lineEnd.2
    let given := if increment = 0 then 0 else (max parent 0).toNat + increment
    let (widest, empty, cursor) ← cursor.emptyLines? given (cursor.rest.length + 1) 0 []
    let indent := if given = 0 then max (max widest (parent + 1).toNat) 1 else given
    let (read, cursor) ←
      cursor.blockLines? folded indent (cursor.rest.length + 1) ⟨[], [], empty, false⟩
    let tail :=
      match chomping with
      | .strip => []
      | .clip => read.ending
      | .keep => read.ending ++ read.empty
    return (String.ofList (read.text ++ tail), cursor)

/-! ## Quoted scalars -/

def hexDigit? (c : Char) : Option Nat := Meaning.digit? 16 c

/-- Reads a character given by a number of hexadecimal digits. -/
def hexChar? (width : Nat) (cursor : Cursor) : Option (List Char × Cursor) := do
  let run := cursor.rest.take width
  if run.length < width then none
  else
    let n ← Meaning.digits? 16 run
    if n.isValidChar then some ([Char.ofNat n], cursor.skipMany width) else none

/-- Reads an escape after its backslash. -/
def escape? (cursor : Cursor) : Read (List Char) :=
  let simple (c : Char) : Read (List Char) := some ([c], cursor.skip)
  match cursor.next? with
  | some '0' => simple '\x00'
  | some 'a' => simple '\x07'
  | some 'b' => simple '\x08'
  | some 't' | some '\t' => simple '\t'
  | some 'n' => simple '\n'
  | some 'v' => simple '\x0b'
  | some 'f' => simple '\x0c'
  | some 'r' => simple '\r'
  | some 'e' => simple '\x1b'
  | some ' ' => simple ' '
  | some '"' => simple '"'
  | some '/' => simple '/'
  | some '\\' => simple '\\'
  | some 'N' => simple '\x85'
  | some '_' => simple '\u00A0'
  | some 'L' => simple '\u2028'
  | some 'P' => simple '\u2029'
  | some 'x' => cursor.skip.hexChar? 2
  | some 'u' => cursor.skip.hexChar? 4
  | some 'U' => cursor.skip.hexChar? 8
  | _ => none

/-- Reads a quoted scalar after its opening quote. -/
def quotedFrom? (single : Bool) : (fuel : Nat) → Cursor → Option (List Char × Cursor)
  | 0, _ => none
  | fuel + 1, cursor => do
    if cursor.atDocumentMarker then none
    else
      match cursor.next? with
      | none => none
      | some c =>
        if single && c = '\'' then
          if cursor.ahead? 1 = some '\'' then
            let (cs, cursor) ← quotedFrom? single fuel (cursor.skipMany 2)
            return ('\'' :: cs, cursor)
          else return ([], cursor.skip)
        else if !single && c = '"' then return ([], cursor.skip)
        else if !single && c = '\\' then
          if (cursor.ahead? 1).any isBreak then
            let cursor := cursor.skip.lineEnd.2
            let (gap, cursor) ← cursor.gap? 0 (cursor.rest.length + 1) ⟨[], [], [], true⟩
            let (cs, cursor) ← quotedFrom? single fuel cursor
            return (gap.fold ++ cs, cursor)
          else
            let (meant, cursor) ← cursor.skip.escape?
            let (cs, cursor) ← quotedFrom? single fuel cursor
            return (meant ++ cs, cursor)
        else if isBlankOrEnd c then
          let (gap, cursor) ← cursor.gap? 0 (cursor.rest.length + 1) ⟨[], [], [], false⟩
          let (cs, cursor) ← quotedFrom? single fuel cursor
          return (gap.fold ++ cs, cursor)
        else
          let (cs, cursor) ← quotedFrom? single fuel cursor.skip
          return (c :: cs, cursor)

/-- Reads a quoted scalar after its opening quote. -/
def quotedScalar? (single : Bool) (cursor : Cursor) : Read String :=
  (cursor.quotedFrom? single (cursor.rest.length + 1)).map fun (cs, cursor) =>
    (String.ofList cs, cursor)

/-! ## Plain scalars -/

def isFlowIndicator (c : Char) : Bool := ",[]\x7b\x7d".toList.contains c

/-- Reads a word of a plain scalar. In a flow, a colon right before an indicator is refused. -/
def word? (flow : Bool) : (fuel : Nat) → Cursor → Read (List Char)
  | 0, _ => none
  | fuel + 1, cursor =>
    match cursor.next? with
    | none => some ([], cursor)
    | some c =>
      if isBlankOrEnd c then some ([], cursor)
      else if flow && c = ':' && (cursor.ahead? 1).any fun d => d = '?' || isFlowIndicator d then
        none
      else if (c = ':' && cursor.endsAt 1) || (flow && isFlowIndicator c) then some ([], cursor)
      else (word? flow fuel cursor.skip).map fun (cs, cursor) => (c :: cs, cursor)

/-- Reads the words of a plain scalar, given the gap before the next one; later lines are indented
by at least `indent`. Also says whether the scalar ends with a line end. -/
def plainFrom? (flow : Bool) (indent : Nat) : (fuel : Nat) → Gap → Cursor →
    Option (List Char × Bool × Cursor)
  | 0, _, _ => none
  | fuel + 1, gap, cursor =>
    if cursor.atDocumentMarker || cursor.nextIs '#' then some ([], gap.broken, cursor)
    else
      match cursor.word? flow (cursor.rest.length + 1) with
      | none => none
      | some (word, after) =>
        let before := if word = [] then [] else gap.fold
        let gap : Gap := if word = [] then gap else ⟨[], [], [], false⟩
        if after.next?.any fun c => Cursor.isBlank c || isBreak c then
          match after.gap? indent (after.rest.length + 1) gap with
          | none => none
          | some (gap, cursor) =>
            if !flow && cursor.column < indent then some (before ++ word, gap.broken, cursor)
            else
              match plainFrom? flow indent fuel gap cursor with
              | none => none
              | some (cs, broken, cursor) => some (before ++ word ++ cs, broken, cursor)
        else some (before ++ word, gap.broken, after)

/-- Reads a plain scalar; `parent` is the indentation around it. -/
def plainScalar? (flow : Bool) (parent : Int) (cursor : Cursor) :
    Option (String × Bool × Cursor) :=
  (cursor.plainFrom? flow (parent + 1).toNat (cursor.rest.length + 1) ⟨[], [], [], false⟩).map
    fun (cs, broken, cursor) => (String.ofList cs, broken, cursor)

end Cursor

end ServiceContract.Yaml
