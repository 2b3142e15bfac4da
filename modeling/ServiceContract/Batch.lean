import ServiceContract.Contract

/-!
# Checking several documents

Each document is checked on its own, at the place `$[i]` of its position, and yields at most one
defect. Collecting ends early at the first defect on request, or when a given number is reached.
-/

namespace ServiceContract

/-- How several documents are checked. A limit of zero is no limit. -/
structure Batch where
  scope : Scope
  failFast : Bool
  maxErrors : Nat
  deriving DecidableEq, Repr

namespace Batch

/-- Whether collecting ends after a number of defects. -/
def reached (batch : Batch) (found : Nat) : Bool :=
  batch.failFast || (0 < batch.maxErrors && batch.maxErrors ≤ found)

/-- Collects defects from the documents at a position and after it, some having been found
before. -/
def collect (batch : Batch) : (found index : Nat) → List Json → List Defect
  | _, _, [] => []
  | found, index, document :: documents =>
    match Contract.checkDocument batch.scope document (Location.root.item index) with
    | .ok () => collect batch found (index + 1) documents
    | .error defect =>
      if batch.reached (found + 1) then [defect]
      else defect :: collect batch (found + 1) (index + 1) documents

/-- Checks the documents; fails with the defects that were collected. -/
def check (batch : Batch) (documents : List Json) : Except Defects Unit :=
  (Defects.mk (batch.collect 0 0 documents)).result

end Batch

end ServiceContract
