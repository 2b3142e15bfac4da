import ServiceContract.Check
import ServiceContract.Scope

/-!
# The contract of a services document

A services document is an object of service groups. A group is an array of entries; an entry names
itself by an `id` and two texts and carries a settings schema; the schema has a type, a list of
required names and an object of properties, among them `enabled` and `title`.

The check walks down in a fixed order: the groups in document order, the entries of a group in array
order, and in an entry first the presence of its fields, then their shapes, then the schema in the
same way, then the properties. It ends at the first defect.
-/

namespace ServiceContract.Contract

/-- The fields of an entry, in the order they are looked for. -/
def serviceFields : List String := ["id", "method_description", "method_title", "service_settings"]

/-- The fields of an entry that hold texts. -/
def serviceTexts : List (String × Shape) :=
  [("id", .string), ("method_description", .string), ("method_title", .string)]

/-- The fields of a settings schema, in the order they are looked for. -/
def settingsFields : List String := ["type", "required", "properties"]

/-- The shapes of the fields of a settings schema. The text of `type` may be any. -/
def settingsShapes : List (String × Shape) :=
  [("type", .string), ("required", .array), ("properties", .object)]

/-- The keys that every properties object has, whatever their values. -/
def propertyKeys : List String := ["enabled", "title"]

/-- Checks the properties of a settings schema. -/
def checkProperties (properties : Json) (place : Location) : Except Defect Unit := do
  let members ← Check.object properties .settingsPropertyWrongType
    "service_settings property 'properties'" place
  Check.present members propertyKeys .propertiesKeyMissing "settings" place

/-- Checks a settings schema, then its properties. -/
def checkSettings (settings : Json) (place : Location) : Except Defect Unit := do
  let members ← Check.object settings .settingsPropertyWrongType "service_settings" place
  Check.present members settingsFields .settingsPropertyMissing "service_settings" place
  Check.shaped members settingsShapes .settingsPropertyWrongType "service_settings" place
  match members.get? "properties" with
  | some properties => checkProperties properties (place.member "properties")
  | none => .ok ()

/-- Checks an entry, then its settings schema. -/
def checkService (entry : Json) (place : Location) : Except Defect Unit := do
  let members ← Check.object entry .serviceNotObject "service entry" place
  Check.present members serviceFields .servicePropertyMissing "service" place
  Check.shaped members serviceTexts .servicePropertyWrongType "service" place
  match members.get? "service_settings" with
  | some settings => checkSettings settings (place.member "service_settings")
  | none => .ok ()

/-- Checks the entries of a group from a position on. -/
def checkEntries (place : Location) : (index : Nat) → List Json → Except Defect Unit
  | _, [] => .ok ()
  | index, entry :: entries => do
    checkService entry (place.item index)
    checkEntries place (index + 1) entries

/-- Checks a service group. -/
def checkGroup (group : String) (value : Json) (place : Location) : Except Defect Unit := do
  let entries ← Check.array value .groupNotArray ("service group '" ++ group ++ "'") place
  checkEntries place 0 entries

/-- Checks the groups in scope, in document order. -/
def checkGroups (scope : Scope) (place : Location) : Members → Except Defect Unit
  | [] => .ok ()
  | (key, value) :: members => do
    if scope.includes key then checkGroup key value (place.member key)
    checkGroups scope place members

/-- Checks a services document that stands at a place. -/
def checkDocument (scope : Scope) (document : Json) (place : Location) : Except Defect Unit := do
  let members ← Check.object document .documentNotObject "the services document" place
  checkGroups scope place members

/-- Checks a services document at the root. -/
def check (scope : Scope) (document : Json) : Except Defect Unit :=
  checkDocument scope document .root

/-- The defects of one document. -/
def defects (scope : Scope) (document : Json) : Defects := .ofResult (check scope document)

end ServiceContract.Contract
