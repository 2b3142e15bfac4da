import ServiceContract.Json.Basic

/-!
# Forms of data

A `Form α` says once how the values of a type are written as data and read from it. Text, flags and
counts are scalars; a choice is one of several named values; a record has named fields in a fixed
order. Writing gives a JSON tree; the readers of the several notations all follow the same form.

A field with a fallback may be absent. A record may also be given as the list of its fields in
order; it says whether such a list may end early, the fallbacks standing in for the rest. A field
whose value is written as null is left out.
-/

namespace ServiceContract

mutual

/-- How the values of a type are written and read. -/
inductive Form : Type → Type 1
  | text : Form String
  | flag : Form Bool
  | count : Form Nat
  | choice {α : Type} (variants : List (String × α)) (spell : α → String) : Form α
  | list {α : Type} (item : Form α) : Form (List α)
  | option {α : Type} (item : Form α) : Form (Option α)
  | record {α β σ : Type} (name : String) (mayEndEarly : Bool) (fields : Fields β σ)
      (build : β → α) (parts : α → β) : Form α

/-- The fields of a record. `β` holds a value for each, as a nested pair; `σ` holds a slot for each,
which is empty until the value has been read. -/
inductive Fields : Type → Type → Type 1
  | nil : Fields Unit Unit
  | cons {α β σ : Type} (name : String) (form : Form α) (fallback : Option α)
      (rest : Fields β σ) : Fields (α × β) (Option α × σ)

end

/-- The members of a record, without those that hold null. -/
def Members.present (members : Members) : Members :=
  members.filter fun member => member.2.kind != .null

mutual

/-- Writes a value as a tree. -/
def Form.toJson : {α : Type} → Form α → α → Json
  | _, .text, s => .string s
  | _, .flag, b => .bool b
  | _, .count, n => .ofNat n
  | _, .choice _ spell, a => .string (spell a)
  | _, .list item, xs => .array (xs.map fun x => item.toJson x)
  | _, .option item, x =>
    match x with
    | some a => item.toJson a
    | none => .null
  | _, .record _ _ fields _ parts, a => .object (Members.present (fields.toMembers (parts a)))

/-- Writes the fields of a record, absent ones as null. -/
def Fields.toMembers : {β σ : Type} → Fields β σ → β → Members
  | _, _, .nil, _ => []
  | _, _, .cons name form _ rest, (a, b) => (name, form.toJson a) :: rest.toMembers b

end

namespace Fields

def names : {β σ : Type} → Fields β σ → List String
  | _, _, .nil => []
  | _, _, .cons name _ _ rest => name :: rest.names

def size {β σ : Type} (fields : Fields β σ) : Nat := fields.names.length

/-- No field has been read. -/
def empty : {β σ : Type} → Fields β σ → σ
  | _, _, .nil => ()
  | _, _, .cons _ _ _ rest => (none, rest.empty)

/-- All values, with fallbacks where none was read, or the name of the first field without. -/
def complete : {β σ : Type} → Fields β σ → σ → Except String β
  | _, _, .nil, _ => .ok ()
  | _, _, .cons name _ fallback rest, (value, values) =>
    match value.or fallback with
    | none => .error name
    | some a => (rest.complete values).map fun b => (a, b)

/-- Whether a name is that of a field, and then whether that field has been read. -/
def filled? : {β σ : Type} → Fields β σ → σ → String → Option Bool
  | _, _, .nil, _, _ => none
  | _, _, .cons name _ _ rest, (value, values), key =>
    if name = key then some value.isSome else rest.filled? values key

end Fields

end ServiceContract
