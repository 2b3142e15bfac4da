import ServiceContract.Defect
import ServiceContract.Location

/-!
# The checks

The contract asks three things of a place: that its value has a shape, that an object has certain
members, and that certain members of an object have a shape. A check passes or yields a defect; the
checks over lists of names go in the order of the list and stop at the first failure.
-/

namespace ServiceContract

/-- The shapes the contract tells apart. -/
inductive Shape where
  | object
  | array
  | string
  deriving DecidableEq, Repr

namespace Shape

/-- The kind of the values of a shape. -/
def kind : Shape → Kind
  | object => .object
  | array => .array
  | string => .string

def name (shape : Shape) : String := shape.kind.name

/-- Whether a value has the shape. Nothing is converted: a number is never a string. -/
def accepts (shape : Shape) (value : Json) : Bool := value.kind == shape.kind

/-- The name with its article. -/
def phrase : Shape → String
  | object => "an object"
  | array => "an array"
  | string => "a string"

end Shape

namespace Check

/-- The defect of a value that does not have the expected shape. -/
def wrongShape (code : ErrorCode) (what : String) (shape : Shape) (value : Json)
    (place : Location) : Defect :=
  { code
    message := "Expected " ++ what ++ " to be " ++ shape.phrase ++ ", found " ++ value.kind.name
    path := place.path
    violation := ⟨"value_shape", shape.name, value.kind.name⟩ }

/-- The defect of an object without a required member. -/
def missing (code : ErrorCode) (owner field : String) (place : Location) : Defect :=
  { code
    message := "Required " ++ owner ++ " property '" ++ field ++ "' is missing"
    path := (place.member field).path
    violation := ⟨"required_field", field ++ " to be present", "missing"⟩ }

/-- The members of a value that must be an object. -/
def object (value : Json) (code : ErrorCode) (what : String) (place : Location) :
    Except Defect Members :=
  match value with
  | .object members => .ok members
  | other => .error (wrongShape code what .object other place)

/-- The items of a value that must be an array. -/
def array (value : Json) (code : ErrorCode) (what : String) (place : Location) :
    Except Defect (List Json) :=
  match value with
  | .array items => .ok items
  | other => .error (wrongShape code what .array other place)

/-- Every field is present; the first absent one is reported. -/
def present (members : Members) (fields : List String) (code : ErrorCode) (owner : String)
    (place : Location) : Except Defect Unit :=
  match fields.find? fun field => !members.contains field with
  | some field => .error (missing code owner field place)
  | none => .ok ()

/-- The value of a field, if it is there with another shape. -/
def misshapen? (members : Members) (field : String) (shape : Shape) : Option Json :=
  (members.get? field).filter fun value => !shape.accepts value

/-- Every field that is present has its shape; the first one with another shape is reported. -/
def shaped (members : Members) (fields : List (String × Shape)) (code : ErrorCode)
    (owner : String) (place : Location) : Except Defect Unit :=
  match fields with
  | [] => .ok ()
  | (field, shape) :: rest =>
    match misshapen? members field shape with
    | some value =>
      .error (wrongShape code (owner ++ " property '" ++ field ++ "'") shape value
        (place.member field))
    | none => shaped members rest code owner place

end Check

end ServiceContract
