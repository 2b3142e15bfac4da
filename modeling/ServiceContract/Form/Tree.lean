import ServiceContract.Form

/-!
# Reading a form from a tree

A record is read from an object, whose other members are ignored, or from the array of its fields in
order; further items of the array are ignored.
-/

namespace ServiceContract

mutual

/-- Reads a value from a tree of its form. -/
def Form.ofJson? : {α : Type} → Form α → Json → Option α
  | _, .text, value => value.text?
  | _, .flag, value => value.flag?
  | _, .count, value => value.count?
  | _, .choice variants _, value => value.text?.bind fun name => variants.lookup name
  | _, .list item, value => value.items?.bind fun items => items.mapM fun x => item.ofJson? x
  | _, .option item, value =>
    match value with
    | .null => some none
    | value => (item.ofJson? value).map some
  | _, .record _ mayEndEarly fields build _, value =>
    match value with
    | .object members => (fields.ofMembers? members).map build
    | .array items => (fields.ofItems? mayEndEarly items).map build
    | _ => none

/-- Reads the fields from the members of an object. -/
def Fields.ofMembers? : {β σ : Type} → Fields β σ → Members → Option β
  | _, _, .nil, _ => some ()
  | _, _, .cons name form fallback rest, members => do
    let a ←
      match members.get? name with
      | some value => form.ofJson? value
      | none => fallback
    return (a, ← rest.ofMembers? members)

/-- Reads the fields from the items of an array. -/
def Fields.ofItems? : {β σ : Type} → Fields β σ → (mayEndEarly : Bool) → List Json → Option β
  | _, _, .nil, _, _ => some ()
  | _, _, .cons _ form fallback rest, mayEndEarly, items => do
    let a ←
      match items.head? with
      | some value => form.ofJson? value
      | none => if mayEndEarly then fallback else none
    return (a, ← rest.ofItems? mayEndEarly items.tail)

end

end ServiceContract
