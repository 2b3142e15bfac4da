import ServiceContract.Form

/-!
# The scope of a check

A scope says which top-level keys of a document are service groups; other keys are not looked at.
-/

namespace ServiceContract

/-- The keys that are service groups: the listed ones, or all. -/
structure Scope where
  groups : List String
  allGroups : Bool
  deriving DecidableEq, Repr

namespace Scope

/-- The groups checked when nothing else is said. -/
def default : Scope := ⟨["shipping", "taxes"], false⟩

/-- Only the named groups. -/
def only (groups : List String) : Scope := ⟨groups, false⟩

/-- Every top-level key. -/
def all : Scope := ⟨[], true⟩

def includes (scope : Scope) (key : String) : Bool := scope.allGroups || scope.groups.contains key

def form : Form Scope :=
  .record "ValidationConfig" true
    (.cons "groups" (.list .text) (some default.groups)
      (.cons "all_groups" .flag (some default.allGroups) .nil))
    (fun (groups, allGroups, _) => ⟨groups, allGroups⟩)
    (fun scope => (scope.groups, scope.allGroups, ()))

end Scope

end ServiceContract
