import ServiceContract.Yaml.Lexer

/-!
# YAML documents

A document is a tree of scalars, sequences and mappings; an alias stands for a node that was given
an anchor. Nodes that were left out are empty plain scalars.

Anchors are numbered: the number of an anchor is the number of different names before it. A name
that is used again therefore may share its number with another name; the node that starts last
keeps it.
-/

namespace ServiceContract.Yaml

inductive Node where
  | scalar (anchor : Option Nat) (tag : Option String) (style : ScalarStyle) (text : String)
  | sequence (anchor : Option Nat) (tag : Option String) (items : List Node)
  | mapping (anchor : Option Nat) (tag : Option String) (pairs : List (Node × Node))
  | alias (number : Nat)

namespace Node

/-- A node that was left out. -/
def omitted : Node := .scalar none none .plain ""

/-- What precedes the content of a node. -/
structure Properties where
  anchor : Option Nat
  tag : Option String

def Properties.none : Properties := ⟨.none, .none⟩

/-- The node without content that has these properties. -/
def bare (properties : Properties) : Node := .scalar properties.anchor properties.tag .plain ""

/-- The tokens still to read, and what names stand for. -/
structure Parser where
  tokens : List Token
  /-- The numbers of anchors. -/
  anchors : List (String × Nat)
  /-- The expansions of tag handles. -/
  handles : List (String × String)

namespace Parser

def next? (parser : Parser) : Option Token := parser.tokens.head?

def skip (parser : Parser) : Parser := { parser with tokens := parser.tokens.tail }

def nextIs (parser : Parser) (token : Token) : Bool := parser.next? == some token

/-- Whether one of the tokens comes next. -/
def nextIn (parser : Parser) (tokens : List Token) : Bool := parser.next?.any tokens.contains

/-- Gives a name its number. -/
def define (parser : Parser) (name : String) : Nat × Parser :=
  let number := parser.anchors.length
  let others := parser.anchors.filter fun anchor => anchor.1 ≠ name
  (number, { parser with anchors := (name, number) :: others })

/-- The full tag of a handle and a suffix. -/
def expand? (parser : Parser) (handle suffix : String) : Option String :=
  if handle.isEmpty then some suffix
  else (parser.handles.lookup handle).map (· ++ suffix)

/-- Reads an anchor and a tag in either order, each at most once. -/
def properties? (parser : Parser) : Option (Properties × Parser) :=
  match parser.next? with
  | some (.anchor name) =>
    let (number, parser) := parser.skip.define name
    match parser.next? with
    | some (.tag handle suffix) =>
      (parser.expand? handle suffix).map fun tag => (⟨some number, some tag⟩, parser.skip)
    | _ => some (⟨some number, none⟩, parser)
  | some (.tag handle suffix) =>
    (parser.expand? handle suffix).map fun tag =>
      match parser.skip.next? with
      | some (.anchor name) =>
        let (number, parser) := parser.skip.skip.define name
        (⟨some number, some tag⟩, parser)
      | _ => (⟨none, some tag⟩, parser.skip)
  | _ => some (.none, parser)

end Parser

/-- What reading yields. -/
abbrev Read (α : Type) := Option (α × Parser)

/-- Where a node stands decides which blocks may start there. -/
structure Place where
  /-- Blocks may start here. -/
  block : Bool
  /-- A sequence may start here without indentation. -/
  indentless : Bool

/-- How the parts of a container are read. -/
abbrev NodeReader := Place → Parser → Option (Node × Parser)

/-- Reads a node unless one of the tokens that end it comes first. -/
def orOmitted (read : NodeReader) (place : Place) (ends : List Token) (parser : Parser) :
    Read Node :=
  if parser.nextIn ends then some (omitted, parser) else read place parser

/-- Reads the entries of a block sequence. -/
def blockItems (read : NodeReader) : (fuel : Nat) → Parser → Read (List Node)
  | 0, _ => none
  | fuel + 1, parser =>
    match parser.next? with
    | some .blockEntry =>
      match orOmitted read ⟨true, false⟩ [.blockEntry, .blockEnd] parser.skip with
      | none => none
      | some (item, parser) =>
        (blockItems read fuel parser).map fun (items, parser) => (item :: items, parser)
    | some .blockEnd => some ([], parser.skip)
    | _ => none

/-- Reads the entries of a sequence without indentation. -/
def indentlessItems (read : NodeReader) : (fuel : Nat) → Parser → Read (List Node)
  | 0, _ => none
  | fuel + 1, parser =>
    match parser.next? with
    | some .blockEntry =>
      match orOmitted read ⟨true, false⟩ [.blockEntry, .key, .value, .blockEnd] parser.skip with
      | none => none
      | some (item, parser) =>
        (indentlessItems read fuel parser).map fun (items, parser) => (item :: items, parser)
    | _ => some ([], parser)

/-- Reads the pairs of a block mapping. -/
def blockPairs (read : NodeReader) : (fuel : Nat) → Parser → Read (List (Node × Node))
  | 0, _ => none
  | fuel + 1, parser =>
    match parser.next? with
    | some .key =>
      match orOmitted read ⟨true, true⟩ [.key, .value, .blockEnd] parser.skip with
      | none => none
      | some (key, parser) =>
        let value :=
          if parser.nextIs .value then
            orOmitted read ⟨true, true⟩ [.key, .value, .blockEnd] parser.skip
          else some (omitted, parser)
        match value with
        | none => none
        | some (value, parser) =>
          (blockPairs read fuel parser).map fun (pairs, parser) => ((key, value) :: pairs, parser)
    | some .blockEnd => some ([], parser.skip)
    | _ => none

/-- Reads the value of a pair within a flow. -/
def flowValue (read : NodeReader) (ends : List Token) (parser : Parser) : Read Node :=
  if parser.nextIs .value then orOmitted read ⟨false, false⟩ ends parser.skip
  else some (omitted, parser)

/-- Reads a pair within a flow sequence, after the token of its key. A token that ends the missing
key is dropped. -/
def singlePair (read : NodeReader) (parser : Parser) : Read Node :=
  let ends := [Token.flowEntry, .flowSequenceEnd]
  let key :=
    if parser.nextIn (.value :: ends) then some (omitted, parser.skip)
    else read ⟨false, false⟩ parser
  match key with
  | none => none
  | some (key, parser) =>
    (flowValue read ends parser).map fun (value, parser) =>
      (.mapping none none [(key, value)], parser)

/-- Moves over the comma before a later item of a flow. -/
def flowComma? (first : Bool) (parser : Parser) : Option Parser :=
  if first then some parser else if parser.nextIs .flowEntry then some parser.skip else none

/-- Reads the items of a flow sequence. -/
def flowItems (read : NodeReader) : (fuel : Nat) → (first : Bool) → Parser → Read (List Node)
  | 0, _, _ => none
  | fuel + 1, first, parser =>
    if parser.nextIs .flowSequenceEnd then some ([], parser.skip)
    else
      match flowComma? first parser with
      | none => none
      | some parser =>
        if parser.nextIs .flowSequenceEnd then some ([], parser.skip)
        else
          let item :=
            if parser.nextIs .key then singlePair read parser.skip
            else read ⟨false, false⟩ parser
          match item with
          | none => none
          | some (item, parser) =>
            (flowItems read fuel false parser).map fun (items, parser) => (item :: items, parser)

/-- Reads the pairs of a flow mapping. A node without the token of a key has no value. -/
def flowPairs (read : NodeReader) : (fuel : Nat) → (first : Bool) → Parser →
    Read (List (Node × Node))
  | 0, _, _ => none
  | fuel + 1, first, parser =>
    if parser.nextIs .flowMappingEnd then some ([], parser.skip)
    else
      match flowComma? first parser with
      | none => none
      | some parser =>
        if parser.nextIs .flowMappingEnd then some ([], parser.skip)
        else
          let ends := [Token.flowEntry, .flowMappingEnd]
          let pair :=
            if parser.nextIs .key then
              (orOmitted read ⟨false, false⟩ (.value :: ends) parser.skip).bind
                fun (key, parser) =>
                  (flowValue read ends parser).map fun (value, parser) => ((key, value), parser)
            else (read ⟨false, false⟩ parser).map fun (key, parser) => ((key, omitted), parser)
          match pair with
          | none => none
          | some (pair, parser) =>
            (flowPairs read fuel false parser).map fun (pairs, parser) => (pair :: pairs, parser)

/-- The tag of a scalar; a lone exclamation mark is none. -/
def scalarTag (tag : Option String) : Option String := tag.filter (· ≠ "!")

/-- Reads a node. -/
def read : (fuel : Nat) → Place → Parser → Option (Node × Parser)
  | 0, _, _ => none
  | fuel + 1, place, parser =>
    match parser.next? with
    | some (.alias name) => (parser.anchors.lookup name).map fun n => (.alias n, parser.skip)
    | _ => do
      let (properties, parser) ← parser.properties?
      let ⟨anchor, tag⟩ := properties
      match parser.next? with
      | some (.scalar style text) => return (.scalar anchor (scalarTag tag) style text, parser.skip)
      | some .flowSequenceStart =>
        let (items, parser) ← flowItems (read fuel) fuel true parser.skip
        return (.sequence anchor tag items, parser)
      | some .flowMappingStart =>
        let (pairs, parser) ← flowPairs (read fuel) fuel true parser.skip
        return (.mapping anchor tag pairs, parser)
      | token =>
        if place.indentless && token == some .blockEntry then
          let (items, parser) ← indentlessItems (read fuel) fuel parser
          return (.sequence anchor tag items, parser)
        else if place.block && token == some .blockSequenceStart then
          let (items, parser) ← blockItems (read fuel) fuel parser.skip
          return (.sequence anchor tag items, parser)
        else if place.block && token == some .blockMappingStart then
          let (pairs, parser) ← blockPairs (read fuel) fuel parser.skip
          return (.mapping anchor tag pairs, parser)
        else if anchor.isSome || tag.isSome then return (bare properties, parser)
        else none

/-! ## Documents -/

/-- The handles that need no directive. -/
def defaultHandles : List (String × String) := [("!", "!"), ("!!", "tag:yaml.org,2002:")]

/-- Reads the directives before a document; a version and a handle are given at most once. -/
def directives? : (versioned : Bool) → (handles : List (String × String)) → List Token →
    Option (List (String × String) × List Token)
  | versioned, handles, .version major minor :: tokens =>
    if versioned || major ≠ 1 || (minor ≠ 1 && minor ≠ 2) then none
    else directives? true handles tokens
  | versioned, handles, .tagDirective handle expansion :: tokens =>
    if (handles.lookup handle).isSome then none
    else directives? versioned (handles ++ [(handle, expansion)]) tokens
  | _, handles, tokens => some (handles, tokens)

/-- Reads a document that starts with three hyphens, which may have no content. -/
def explicit? (handles : List (String × String)) (tokens : List Token) : Read Node :=
  let parser : Parser := ⟨tokens, [], handles⟩
  match parser.next? with
  | none | some .documentStart | some .documentEnd | some (.version ..) | some (.tagDirective ..) =>
    some (omitted, parser)
  | _ => read (tokens.length + 1) ⟨true, false⟩ parser

/-- Reads the first document. -/
def document? (tokens : List Token) : Read Node :=
  match directives? false [] tokens with
  | none => none
  | some (handles, .documentStart :: rest) => explicit? (handles ++ defaultHandles) rest
  | some (handles, rest) =>
    if rest.length < tokens.length then none
    else read (rest.length + 1) ⟨true, false⟩ ⟨rest, [], handles ++ defaultHandles⟩

/-- The only document of a text; that of an empty text was left out. -/
def ofText? (text : String) : Option Node := do
  let tokens ← Token.ofText? text
  if tokens.isEmpty then return omitted
  else
    let (node, parser) ← document? tokens
    if (parser.tokens.dropWhile (· == .documentEnd)).isEmpty then return node else none

mutual

/-- The nodes with anchors, in the order in which they start. -/
def anchored : Node → List (Nat × Node)
  | .scalar anchor tag style text =>
    anchor.toList.map fun number => (number, .scalar anchor tag style text)
  | .sequence anchor tag items =>
    (anchor.toList.map fun number => (number, .sequence anchor tag items)) ++ anchoredItems items
  | .mapping anchor tag pairs =>
    (anchor.toList.map fun number => (number, .mapping anchor tag pairs)) ++ anchoredPairs pairs
  | .alias _ => []

def anchoredItems : List Node → List (Nat × Node)
  | [] => []
  | item :: items => item.anchored ++ anchoredItems items

def anchoredPairs : List (Node × Node) → List (Nat × Node)
  | [] => []
  | (key, value) :: pairs => key.anchored ++ value.anchored ++ anchoredPairs pairs

end

mutual

/-- The number of scalars and aliases, each container counting twice. -/
def size : Node → Nat
  | .scalar .. | .alias _ => 1
  | .sequence _ _ items => 2 + itemsSize items
  | .mapping _ _ pairs => 2 + pairsSize pairs

def itemsSize : List Node → Nat
  | [] => 0
  | item :: items => item.size + itemsSize items

def pairsSize : List (Node × Node) → Nat
  | [] => 0
  | (key, value) :: pairs => key.size + value.size + pairsSize pairs

end

end Node

end ServiceContract.Yaml
