import ServiceContract.Console
import ServiceContract.Failure
import ServiceContract.FileTree

/-!
# Deeds

A command writes steps to the console, may change files, and may fail.
-/

namespace ServiceContract

/-- What a command leaves behind. -/
structure Deed where
  steps : List Console.Step
  failure : Option Failure
  tree : FileTree

namespace Deed

/-- Something written, and no file changed. -/
def told (tree : FileTree) (steps : List Console.Step) : Deed := ⟨steps, none, tree⟩

/-- A failure that changed no file. -/
def failed (tree : FileTree) (failure : Failure) : Deed := ⟨[], some failure, tree⟩

end Deed

end ServiceContract
