import ServiceContract.Decimal.Binary64
import ServiceContract.Decimal.Word

/-!
# JSON values

Documents are trees of the six JSON kinds. An object keeps its members in the order of their first
appearance; putting a key that is already there changes its value and leaves its place.
-/

namespace ServiceContract

/-- A number as written: without fraction and exponent it is kept exactly. -/
inductive Number where
  | whole (n : Int)
  | float (x : Binary64)
  deriving DecidableEq, Repr

/-- A JSON value. -/
inductive Json where
  | null
  | bool (b : Bool)
  | number (n : Number)
  | string (s : String)
  | array (items : List Json)
  | object (members : List (String × Json))
  deriving Repr, Inhabited

/-- The kinds of JSON values. -/
inductive Kind where
  | null
  | boolean
  | number
  | string
  | array
  | object
  deriving DecidableEq, Repr

namespace Kind

def name : Kind → String
  | null => "null"
  | boolean => "boolean"
  | number => "number"
  | string => "string"
  | array => "array"
  | object => "object"

end Kind

/-- The members of an object, in order. -/
abbrev Members := List (String × Json)

namespace Members

/-- The value under a key. -/
def get? (members : Members) (key : String) : Option Json := members.lookup key

def contains (members : Members) (key : String) : Bool := (members.get? key).isSome

def keys (members : Members) : List String := members.map (·.1)

/-- Sets the value under a key: in place if the key is there, at the end otherwise. -/
def put : Members → String → Json → Members
  | [], key, value => [(key, value)]
  | (k, v) :: rest, key, value =>
    if k = key then (k, value) :: rest else (k, v) :: put rest key value

/-- The members of a text that may repeat keys: first place, last value. -/
def ofPairs (pairs : List (String × Json)) : Members :=
  pairs.foldl (fun members pair => put members pair.1 pair.2) []

end Members

namespace Json

def kind : Json → Kind
  | null => .null
  | bool _ => .boolean
  | number _ => .number
  | string _ => .string
  | array _ => .array
  | object _ => .object

def text? : Json → Option String
  | string s => some s
  | _ => none

def flag? : Json → Option Bool
  | bool b => some b
  | _ => none

def items? : Json → Option (List Json)
  | array items => some items
  | _ => none

def members? : Json → Option Members
  | object members => some members
  | _ => none

/-- A whole number that fits an unsigned 64-bit word. -/
def count? : Json → Option Nat
  | number (.whole n) => if Word.isUnsigned64 n then some n.toNat else none
  | _ => none

/-- The value under a key of an object. -/
def get? (value : Json) (key : String) : Option Json :=
  value.members?.bind (·.get? key)

def ofNat (n : Nat) : Json := number (.whole n)

end Json

end ServiceContract
