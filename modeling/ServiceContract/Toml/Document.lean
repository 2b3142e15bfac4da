import ServiceContract.Json.Basic

/-!
# TOML documents

A document is built from statements: a header opens a table, or one more table of a list of tables;
an assignment gives a value to a path of keys within the open table.

A table may be opened by one header only, but tables on the way to it come into being by themselves
and may be opened later. Assignments by dotted keys make tables, too, which only further assignments
from the same place may extend. A value is never assigned twice.
-/

namespace ServiceContract.Toml

/-- How a table came into being: by its own header, on the way to another header, or by a dotted
key. -/
inductive Origin where
  | header
  | implied
  | dotted
  deriving DecidableEq, Repr

/-- What stands under a key. -/
inductive Item where
  | value (v : Json)
  | table (origin : Origin) (entries : List (String × Item))
  | tables (list : List (List (String × Item)))

/-- The entries of a table. -/
abbrev Entries := List (String × Item)

namespace Entries

/-- Replaces the item under a key that is there. -/
def replace : Entries → String → Item → Entries
  | [], _, _ => []
  | (k, old) :: rest, key, item =>
    if k = key then (k, item) :: rest else (k, old) :: replace rest key item

/-- Changes the table at the end of a path. Tables that are missing are made with origin `made`; a
dotted path must not enter a table that has a header. Of a list of tables the last one is meant. -/
def update (made : Origin) (change : Origin → Entries → Option Entries) :
    (path : List String) → Origin → Entries → Option Entries
  | [], origin, entries => change origin entries
  | key :: path, _, entries =>
    match entries.lookup key with
    | none => do
      let inner ← update made change path made []
      return entries ++ [(key, .table made inner)]
    | some (.value _) => none
    | some (.tables list) => do
      let last ← list.getLast?
      let inner ← update made change path .header last
      return replace entries key (.tables (list.dropLast ++ [inner]))
    | some (.table origin inner) =>
      if made = .dotted ∧ origin = .header then none
      else do
        let inner ← update made change path origin inner
        return replace entries key (.table origin inner)

/-- Opens a table that has no header yet. -/
def openTable (key : String) (entries : Entries) : Option Entries :=
  match entries.lookup key with
  | none => some (entries ++ [(key, .table .header [])])
  | some (.table .implied inner) => some (replace entries key (.table .header inner))
  | some _ => none

/-- Opens one more table of a list. -/
def openListed (key : String) (entries : Entries) : Option Entries :=
  match entries.lookup key with
  | none => some (entries ++ [(key, .tables [[]])])
  | some (.tables list) => some (replace entries key (.tables (list ++ [[]])))
  | some _ => none

/-- Gives a value to a key of the table that a path of keys led to: a table that has only ever been
named by dotted keys, or the open table itself. -/
def assign (path : List String) (key : String) (value : Json) (entries : Entries) :
    Option Entries :=
  update .dotted
    (fun origin entries =>
      if (origin = .dotted) = path.isEmpty then none
      else if (entries.lookup key).isSome then none
      else some (entries ++ [(key, .value value)]))
    path .header entries

end Entries

mutual

/-- The tree of an item. -/
def Item.toJson : Item → Json
  | .value v => v
  | .table _ entries => .object (entriesToMembers entries)
  | .tables list => .array (tablesToItems list)

def entriesToMembers : List (String × Item) → Members
  | [] => []
  | (key, item) :: entries => (key, item.toJson) :: entriesToMembers entries

def tablesToItems : List (List (String × Item)) → List Json
  | [] => []
  | entries :: list => .object (entriesToMembers entries) :: tablesToItems list

end

/-- A line of a document. The keys of a path stand before its last key. -/
inductive Statement where
  | table (path : List String) (key : String)
  | listedTable (path : List String) (key : String)
  | assignment (path : List String) (key : String) (value : Json)

/-- A document so far and the path of the open table. -/
structure Document where
  entries : Entries
  current : List String

namespace Document

def empty : Document := ⟨[], []⟩

/-- The document with one more statement, unless that breaks a rule. -/
def add (document : Document) : Statement → Option Document
  | .table path key => do
    let entries ← document.entries.update .implied (fun _ => Entries.openTable key) path .header
    return ⟨entries, path ++ [key]⟩
  | .listedTable path key => do
    let entries ← document.entries.update .implied (fun _ => Entries.openListed key) path .header
    return ⟨entries, path ++ [key]⟩
  | .assignment path key value => do
    let entries ← document.entries.update .implied (fun _ => Entries.assign path key value)
      document.current .header
    return ⟨entries, document.current⟩

/-- The members of the tree that the statements describe. -/
def ofStatements? (statements : List Statement) : Option Members :=
  (statements.foldlM add empty).map fun document => entriesToMembers document.entries

end Document

end ServiceContract.Toml
