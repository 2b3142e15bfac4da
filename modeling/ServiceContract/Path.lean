/-!
# File paths

A path is a text of names between slashes. Repeated slashes, slashes at the end and single dots
after the start do not matter to the place it names, so paths are compared by their components.
-/

namespace ServiceContract

/-- A file path as it was given. -/
structure Path where
  text : String
  deriving DecidableEq, Repr

namespace Path

/-- A part of a path. -/
inductive Component where
  | root
  | here
  | parent
  | name (name : String)
  deriving DecidableEq, Repr

/-- The texts between slashes. -/
def splitSlashes : List Char → List Char → List (List Char)
  | [], reversed => [reversed.reverse]
  | c :: rest, reversed =>
    if c = '/' then reversed.reverse :: splitSlashes rest [] else splitSlashes rest (c :: reversed)

/-- The component of a part of a path after its start; empty parts and single dots have none. -/
def component? (part : List Char) : Option Component :=
  if part = [] ∨ part = ['.'] then none
  else if part = ['.', '.'] then some .parent
  else some (.name (String.ofList part))

/-- The components of a path. A single dot counts at the very start only. -/
def components (path : Path) : List Component :=
  let parts := splitSlashes path.text.toList []
  let start : List Component :=
    match path.text.toList with
    | '/' :: _ => [.root]
    | _ => if parts.head? = some ['.'] then [.here] else []
  start ++ parts.filterMap component?

/-- Whether two paths have the same components. -/
def same (path other : Path) : Bool := path.components == other.components

/-- The name at the end of a path. -/
def fileName? (path : Path) : Option String :=
  match path.components.getLast? with
  | some (.name name) => some name
  | _ => none

/-- What follows the last dot of a name that does not start with it. -/
def extensionOf? (name : String) : Option String :=
  let reversed := name.toList.reverse
  let after := reversed.takeWhile (· ≠ '.')
  match reversed.drop after.length with
  | '.' :: _ :: _ => some (String.ofList after.reverse)
  | _ => none

/-- The extension of the name at the end of a path. -/
def extension? (path : Path) : Option String := path.fileName?.bind extensionOf?

/-- The path of standard input. -/
def standardInput : Path := ⟨"-"⟩

end Path

end ServiceContract
