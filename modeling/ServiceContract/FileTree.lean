import ServiceContract.Path

/-!
# File trees

The files a run can see: texts, files that are no text, and directories, each at a place. A place
is a list of names below the working directory or below the root of the file system; both of these
are directories themselves, and so is whatever lies above the working directory.

A path is followed name by name. Every part of it but the last must be a directory, and so must the
place before a slash at the end.
-/

namespace ServiceContract

/-- What stands at a place. -/
inductive Entry where
  | text (content : String)
  /-- A file that cannot be read as text: its bytes are not UTF-8, or it may not be read. -/
  | binary
  | directory
  deriving DecidableEq, Repr

/-- Names below the working directory, or below the root of the file system. -/
structure Place where
  absolute : Bool
  names : List String
  deriving DecidableEq, Repr

/-- The files and directories at their places. -/
structure FileTree where
  entries : List (Place × Entry)
  deriving DecidableEq, Repr

namespace Place

/-- A place that needs no entry: where paths start, or above that. -/
def isGiven (place : Place) : Bool := place.names.all (· == "..")

/-- The directory around a place. -/
def parent (place : Place) : Place :=
  if place.isGiven then
    if place.absolute then place else { place with names := place.names ++ [".."] }
  else { place with names := place.names.dropLast }

def child (place : Place) (name : String) : Place := { place with names := place.names ++ [name] }

/-- One part of a path further on from a directory. -/
def enter (place : Place) (part : List Char) : Place :=
  if part = [] ∨ part = ['.'] then place
  else if part = ['.', '.'] then place.parent
  else place.child (String.ofList part)

end Place

namespace FileTree

def empty : FileTree := ⟨[]⟩

/-- What stands at a place. -/
def at? (tree : FileTree) (place : Place) : Option Entry :=
  if place.isGiven then some .directory else tree.entries.lookup place

def isDirectory (tree : FileTree) (place : Place) : Bool := tree.at? place == some .directory

/-- Puts an entry at a place. -/
def put (tree : FileTree) (place : Place) (entry : Entry) : FileTree :=
  if place.isGiven then tree
  else ⟨(place, entry) :: tree.entries.filter fun other => other.1 ≠ place⟩

/-- The place that parts of a path lead to from a place. -/
def follow? (tree : FileTree) : Place → List (List Char) → Option Place
  | place, [] => some place
  | place, part :: parts =>
    if tree.isDirectory place then tree.follow? (place.enter part) parts else none

/-- The place where a path starts. -/
def startOf (path : Path) : Place := ⟨path.text.startsWith "/", []⟩

/-- The place a path leads to, whether or not something stands there. -/
def place? (tree : FileTree) (path : Path) : Option Place :=
  if path.text.isEmpty then none
  else tree.follow? (startOf path) (Path.splitSlashes path.text.toList [])

/-- What stands at a path. -/
def find? (tree : FileTree) (path : Path) : Option Entry := (tree.place? path).bind tree.at?

def has (tree : FileTree) (path : Path) : Bool := (tree.find? path).isSome

/-- The text of a file, if a file is there and holds text. -/
def text? (tree : FileTree) (path : Path) : Option String :=
  match tree.find? path with
  | some (.text content) => some content
  | _ => none

/-- Makes the directories that a list of components leads through. Also says whether all of them are
directories now; after the first one that is not, none is made. -/
def makeDirectories (tree : FileTree) : Place → List Path.Component → FileTree × Bool
  | place, [] => (tree, tree.isDirectory place)
  | place, component :: components =>
    if tree.isDirectory place then
      match component with
      | .name name =>
        let place := place.child name
        let tree := if (tree.at? place).isNone then tree.put place .directory else tree
        tree.makeDirectories place components
      | .parent => tree.makeDirectories place.parent components
      | .root | .here => tree.makeDirectories place components
    else (tree, false)

/-- Whether a path ends in the name of a file. -/
def endsInName (path : Path) : Bool :=
  match (Path.splitSlashes path.text.toList []).getLast? with
  | some part => (Path.component? part).any fun
    | .name _ => true
    | _ => false
  | none => false

/-- Writes a text to a path. A directory is never replaced. Also says whether that was possible. -/
def write (tree : FileTree) (path : Path) (content : String) : FileTree × Bool :=
  match tree.place? path with
  | none => (tree, false)
  | some place =>
    if endsInName path && !tree.isDirectory place then (tree.put place (.text content), true)
    else (tree, false)

/-- Writes a text to a path after making the directories above it. -/
def save (tree : FileTree) (path : Path) (content : String) : FileTree × Bool :=
  let (tree, made) := tree.makeDirectories (startOf path) path.components.dropLast
  if made then tree.write path content else (tree, false)

end FileTree

end ServiceContract
