/-!
# Places in a document

A location is the path from the root, `$`, to a place: `.key` for a member of an object and `[i]`
for an item of an array. Keys are written as they are, without quotes or escapes.
-/

namespace ServiceContract

/-- A step down into a document. -/
inductive Step where
  | member (key : String)
  | item (index : Nat)
  deriving DecidableEq, Repr

/-- The path of a place. -/
structure Location where
  path : String
  deriving DecidableEq, Repr

namespace Location

def root : Location := ⟨"$"⟩

/-- The place of a member. -/
def member (place : Location) (key : String) : Location := ⟨place.path ++ "." ++ key⟩

/-- The place of an item. -/
def item (place : Location) (index : Nat) : Location :=
  ⟨place.path ++ "[" ++ toString index ++ "]"⟩

def step (place : Location) : Step → Location
  | .member key => place.member key
  | .item index => place.item index

/-- The place that a list of steps leads to. -/
def follow (place : Location) (steps : List Step) : Location := steps.foldl step place

/-- Every place on the way, from the start on. -/
def trail (place : Location) : List Step → List Location
  | [] => [place]
  | s :: steps => place :: trail (place.step s) steps

end Location

end ServiceContract
