import ServiceContract.ErrorCode

/-!
# Defects

A defect says what is wrong with a document: a code, a message for people, the path of the place,
and the violation, which names the rule, what was expected there and what was found.
-/

namespace ServiceContract

/-- What was expected at a place, and what was found. -/
structure Violation where
  rule : String
  expected : String
  actual : String
  deriving DecidableEq, Repr

/-- A structural defect of a document. -/
structure Defect where
  code : ErrorCode
  message : String
  path : String
  violation : Violation
  deriving DecidableEq, Repr

/-- The defects of several documents. -/
structure Defects where
  list : List Defect
  deriving DecidableEq, Repr

namespace Violation

def form : Form Violation :=
  .record "Violation" false
    (.cons "rule" .text none (.cons "expected" .text none (.cons "actual" .text none .nil)))
    (fun (rule, expected, actual, _) => ⟨rule, expected, actual⟩)
    (fun v => (v.rule, v.expected, v.actual, ()))

def sentence (v : Violation) : String :=
  "Rule '" ++ v.rule ++ "' violated: expected " ++ v.expected ++ ", but found " ++ v.actual

end Violation

namespace Defect

def form : Form Defect :=
  .record "ValidationError" false
    (.cons "code" ErrorCode.form none (.cons "message" .text none (.cons "path" .text none
      (.cons "violation" Violation.form none .nil))))
    (fun (code, message, path, violation, _) => ⟨code, message, path, violation⟩)
    (fun d => (d.code, d.message, d.path, d.violation, ()))

def sentence (d : Defect) : String :=
  "[" ++ d.code.name ++ "] at '" ++ d.path ++ "': " ++ d.message

end Defect

namespace Defects

def empty : Defects := ⟨[]⟩

def add (defects : Defects) (defect : Defect) : Defects := ⟨defects.list ++ [defect]⟩

def size (defects : Defects) : Nat := defects.list.length

def isEmpty (defects : Defects) : Bool := defects.list.isEmpty

/-- Success when there is no defect. -/
def result (defects : Defects) : Except Defects Unit :=
  if defects.isEmpty then .ok () else .error defects

/-- The defects that a check found: one or none. -/
def ofResult : Except Defect Unit → Defects
  | .ok () => empty
  | .error defect => empty.add defect

def form : Form Defects :=
  .record "ValidationErrors" false (.cons "errors" (.list Defect.form) none .nil)
    (fun (list, _) => ⟨list⟩) (fun defects => (defects.list, ()))

/-- A heading and one numbered line for each defect. -/
def summary (defects : Defects) : String :=
  "Multiple validation errors occurred:" ++
    String.join (defects.list.mapIdx fun i d => "\n" ++ toString (i + 1) ++ ". " ++ d.sentence)

end Defects

end ServiceContract
