import ServiceContract.Form

/-!
# Error codes

The taxonomy of structural defects. Each code has a wire name, which other programs compare and
which never changes, and a one-line description of what brings it about.
-/

namespace ServiceContract

/-- The kinds of structural defects. -/
inductive ErrorCode where
  | documentNotObject
  | groupNotArray
  | serviceNotObject
  | servicePropertyMissing
  | servicePropertyWrongType
  | settingsPropertyMissing
  | settingsPropertyWrongType
  | propertiesKeyMissing
  deriving DecidableEq, Repr

namespace ErrorCode

/-- Every code, in the order of the taxonomy. -/
def all : List ErrorCode :=
  [documentNotObject, groupNotArray, serviceNotObject, servicePropertyMissing,
    servicePropertyWrongType, settingsPropertyMissing, settingsPropertyWrongType,
    propertiesKeyMissing]

/-- The wire name. -/
def name : ErrorCode → String
  | documentNotObject => "outermost_container_not_object"
  | groupNotArray => "service_type_not_ref_array"
  | serviceNotObject => "service_not_ref_object"
  | servicePropertyMissing => "required_service_property_missing"
  | servicePropertyWrongType => "required_service_property_wrong_type"
  | settingsPropertyMissing => "service_settings_missing_required_property"
  | settingsPropertyWrongType => "service_settings_property_wrong_type"
  | propertiesKeyMissing => "service_properties_missing_required_property"

def description : ErrorCode → String
  | documentNotObject => "Root document is not an object"
  | groupNotArray => "A service group value is not an array"
  | serviceNotObject => "A service entry is not an object"
  | servicePropertyMissing =>
    "id, method_description, method_title or service_settings absent on an entry"
  | servicePropertyWrongType => "id, method_description or method_title present but not a string"
  | settingsPropertyMissing => "type, required or properties absent on the settings schema"
  | settingsPropertyWrongType =>
    "service_settings not an object, or type/required/properties of the wrong shape"
  | propertiesKeyMissing => "enabled or title absent from the properties map"

/-- The code with a wire name. -/
def ofName? (name : String) : Option ErrorCode := all.find? fun code => code.name == name

/-- A code is written as its wire name. -/
def form : Form ErrorCode := .choice (all.map fun code => (code.name, code)) name

end ErrorCode

end ServiceContract
