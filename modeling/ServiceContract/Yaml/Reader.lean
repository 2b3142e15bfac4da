import ServiceContract.Form
import ServiceContract.Yaml.Node

/-!
# Reading YAML as data

A document becomes a tree: plain scalars mean what they look like, quoted ones are texts. A tag of
the core schema decides the type of its scalar, any other global tag leaves a text; local tags
have no meaning in a tree. Keys are the texts of scalars, and a repeated key keeps its first place
and takes its last value.

A form reads more freely: a text is the text of any scalar, a list or a record may be left out, and
tags matter little. A record must not repeat a key.

An alias is read as the node it stands for. There may be a hundred times as many such steps as the
document has parts, and 128 containers may be open at once.
-/

namespace ServiceContract.Yaml

/-- A document that is being read. -/
structure Source where
  /-- The nodes that aliases stand for; of two with one number the later one counts. -/
  anchors : List (Nat × Node)

/-- What reading yields, with the number of aliases that may still be followed. -/
abbrev Reading (α : Type) := Option (α × Nat)

namespace Source

def of (node : Node) : Source := ⟨node.anchored.reverse⟩

/-- The node that is meant. -/
def resolve? (source : Source) (jumps : Nat) : Node → Option (Node × Nat)
  | .alias number =>
    match jumps with
    | 0 => none
    | jumps + 1 => (source.anchors.lookup number).map fun node => (node, jumps)
  | node => some (node, jumps)

/-- The text of a scalar. -/
def text? (source : Source) (jumps : Nat) (node : Node) : Option (String × Nat) :=
  (source.resolve? jumps node).bind fun
    | (.scalar _ _ _ text, jumps) => some (text, jumps)
    | _ => none

end Source

/-- How many aliases may be followed for each part of a document. -/
def jumpsPerPart : Nat := 100

/-- How many containers may be open at once. -/
def depthLimit : Nat := 128

/-- Reads a list of nodes one after the other. -/
def readItems {α : Type} (read : Nat → Node → Option (α × Nat)) :
    (jumps : Nat) → List Node → Option (List α × Nat)
  | jumps, [] => some ([], jumps)
  | jumps, item :: items => do
    let (a, jumps) ← read jumps item
    let (as, jumps) ← readItems read jumps items
    return (a :: as, jumps)

/-! ## Trees -/

/-- A tag that only its own document knows. -/
def isLocalTag (tag : String) : Bool := tag.startsWith "!"

/-- The name of a tag of the core schema. -/
def coreTag (name : String) : String := "tag:yaml.org,2002:" ++ name

/-- The tree of a plain scalar. A whole number must fit 64 bits, and a float that is not finite
has no tree but null. -/
def plainJson? (text : String) : Option Json :=
  match Meaning.ofPlain text with
  | .null => some .null
  | .bool b => some (.bool b)
  | .whole n => if Word.is64 n then some (.number (.whole n)) else none
  | .float x => some (.number (.float x))
  | .notFinite => some .null
  | .text => some (.string text)

/-- The tree of a scalar whose tag names its type. -/
def taggedJson? (tag text : String) : Option Json :=
  if tag = coreTag "bool" then
    if Meaning.trueWords.contains text then some (.bool true)
    else if Meaning.falseWords.contains text then some (.bool false)
    else none
  else if tag = coreTag "int" then
    (Meaning.whole? text.toList).bind fun n =>
      if Word.is64 n then some (.number (.whole n)) else none
  else if tag = coreTag "float" then
    if Meaning.isNotFinite text then some .null
    else
      ((Meaning.unsignedText? text.toList).bind Meaning.float?).map fun x => .number (.float x)
  else if tag = coreTag "null" then
    if Meaning.nullWords.contains text then some .null else none
  else if isLocalTag tag then none
  else some (.string text)

/-- The tree of a scalar. -/
def scalarJson? (tag : Option String) (style : ScalarStyle) (text : String) : Option Json :=
  match tag with
  | some tag => taggedJson? tag text
  | none => if style = .plain then plainJson? text else some (.string text)

/-- Reads a node as a tree. `depth` says how many more containers may open. -/
def readTree (source : Source) : (depth jumps : Nat) → Node → Option (Json × Nat)
  | 0, jumps, node =>
    (source.resolve? jumps node).bind fun
      | (.scalar _ tag style text, jumps) => (scalarJson? tag style text).map fun j => (j, jumps)
      | _ => none
  | depth + 1, jumps, node =>
    (source.resolve? jumps node).bind fun
      | (.scalar _ tag style text, jumps) => (scalarJson? tag style text).map fun j => (j, jumps)
      | (.sequence _ tag items, jumps) =>
        if tag.any isLocalTag then none
        else
          (readItems (readTree source depth) jumps items).map fun (items, jumps) =>
            (.array items, jumps)
      | (.mapping _ tag pairs, jumps) =>
        if tag.any isLocalTag then none
        else (readPairs (readTree source depth) jumps pairs).map fun (pairs, jumps) =>
          (.object (Members.ofPairs pairs), jumps)
      | _ => none
where
  /-- Reads the pairs of a mapping one after the other. -/
  readPairs (read : Nat → Node → Option (Json × Nat)) :
      (jumps : Nat) → List (Node × Node) → Option (List (String × Json) × Nat)
    | jumps, [] => some ([], jumps)
    | jumps, (key, value) :: pairs => do
      let (key, jumps) ← source.text? jumps key
      let (value, jumps) ← read jumps value
      let (pairs, jumps) ← readPairs read jumps pairs
      return ((key, value) :: pairs, jumps)

/-- Reads a text as a tree. -/
def read? (text : String) : Option Json := do
  let node ← Node.ofText? text
  let (value, _) ← readTree (.of node) depthLimit (jumpsPerPart * node.size) node
  return value

/-! ## Forms -/

/-- Whether a scalar was written plainly, or as a literal block with a tag. -/
def isPlainOr (tag : String) (style : ScalarStyle) (given : Option String) : Bool :=
  style = .plain || (style = .literal && given = some tag)

/-- The flag that a scalar spells. -/
def flag? : Node → Option Bool
  | .scalar _ tag style text =>
    if !isPlainOr (coreTag "bool") style tag then none
    else if Meaning.trueWords.contains text then some true
    else if Meaning.falseWords.contains text then some false
    else none
  | _ => none

/-- The count that a scalar spells. -/
def count? : Node → Option Nat
  | .scalar _ tag style text =>
    if !isPlainOr (coreTag "int") style tag then none
    else
      match Meaning.whole? text.toList with
      | some n => if Word.isUnsigned64 n then some n.toNat else none
      | none => none
  | _ => none

/-- A node that was left out, or is written as nothing. -/
def isEmpty : Node → Bool
  | .scalar _ _ .plain "" => true
  | _ => false

/-- Whether a node is null where a value may be absent; `none` if its tag says so wrongly. -/
def isAbsent? : Node → Option Bool
  | .scalar _ tag .plain text =>
    match tag with
    | none => some (text.isEmpty || Meaning.nullWords.contains text)
    | some tag =>
      if tag = coreTag "null" then
        if Meaning.nullWords.contains text then some true else none
      else some false
  | _ => some false

end ServiceContract.Yaml

namespace ServiceContract

open Yaml

mutual

/-- Reads a value from a node of its form. -/
def Form.ofNode? (source : Source) :
    {α : Type} → Form α → (jumps : Nat) → Node → Option (α × Nat)
  | _, .text, jumps, node => source.text? jumps node
  | _, .flag, jumps, node =>
    (source.resolve? jumps node).bind fun (node, jumps) => (flag? node).map fun b => (b, jumps)
  | _, .count, jumps, node =>
    (source.resolve? jumps node).bind fun (node, jumps) => (count? node).map fun n => (n, jumps)
  | _, .choice variants _, jumps, node =>
    (source.text? jumps node).bind fun (name, jumps) =>
      (variants.lookup name).map fun a => (a, jumps)
  | _, .list item, jumps, node =>
    (source.resolve? jumps node).bind fun (node, jumps) =>
      match node with
      | .sequence _ _ items =>
        Yaml.readItems (fun jumps node => item.ofNode? source jumps node) jumps items
      | node => if isEmpty node then some ([], jumps) else none
  | _, .option item, jumps, node =>
    (source.resolve? jumps node).bind fun (node, jumps) =>
      match isAbsent? node with
      | none => none
      | some true => some (none, jumps)
      | some false => (item.ofNode? source jumps node).map fun (a, jumps) => (some a, jumps)
  | _, .record _ _ fields build _, jumps, node =>
    (source.resolve? jumps node).bind fun (node, jumps) =>
      let pairs? : Option (List (Node × Node)) :=
        match node with
        | .mapping _ _ pairs => some pairs
        | node => if isEmpty node then some [] else none
      pairs?.bind fun pairs =>
        (pairs.foldlM
          (fun (slots, jumps) (key, value) =>
            (source.text? jumps key).bind fun (key, jumps) =>
              match fields.filled? slots key with
              | none => some (slots, jumps)
              | some true => none
              | some false => fields.fillFrom? source slots key jumps value)
          (fields.empty, jumps)).bind fun (slots, jumps) =>
            match fields.complete slots with
            | .ok b => some (build b, jumps)
            | .error _ => none

/-- Reads the value of a named field into its slot. -/
def Fields.fillFrom? (source : Source) :
    {β σ : Type} → Fields β σ → σ → String → (jumps : Nat) → Node → Option (σ × Nat)
  | _, _, .nil, _, _, jumps, _ => some ((), jumps)
  | _, _, .cons name form _ rest, (value, values), key, jumps, node =>
    if name = key then
      (form.ofNode? source jumps node).map fun (a, jumps) => ((some a, values), jumps)
    else
      (rest.fillFrom? source values key jumps node).map fun (values, jumps) =>
        ((value, values), jumps)

end

/-- Reads a text as one value of a form. -/
def Yaml.readAs? {α : Type} (form : Form α) (text : String) : Option α := do
  let node ← Node.ofText? text
  let (a, _) ← form.ofNode? (.of node) (jumpsPerPart * node.size) node
  return a

end ServiceContract
