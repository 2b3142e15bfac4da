import ServiceContract.Proofs.Contract.Describe
import ServiceContract.Proofs.Contract.Relocation

/-!
# The stages on their own

Every stage of the check can be run by itself, on any value and at any place. A place is never
looked at but only put in front of the steps to a defect, so the verdict is the same everywhere and
the defect moves with the place (`Relocates`). That is kept by what the stages are put together
from: going down a step, one check after the other, and the rules of an entry.

The walk adds nothing to what its stages say: where it rejects a document for something that a
stage looks at, that stage rejects its own value with the same defect (`Stage.check_of_isWithin`).
-/

namespace ServiceContract.Contract

/-! ## Checks that move -/

/-- A check passes at every place if it passes at the root. Otherwise its defect is that at the
root, the path of the place standing where the path at the root has `$`. -/
structure Relocates (check : Location → Except Defect Unit) : Prop where
  passes : ∀ place, check place = .ok () ↔ check .root = .ok ()
  fails : ∀ e, check .root = .error e → ∃ rest, e.path = "$" ++ rest ∧
    ∀ place, check place = .error { e with path := place.path ++ rest }

namespace Relocates

variable {check later : Location → Except Defect Unit}

theorem of_ok (h : ∀ place, check place = .ok ()) : Relocates check where
  passes place := by rw [h, h]
  fails e he := by rw [h] at he; cases he

/-- A defect with the place in front of steps of its own. -/
theorem of_error (d : Defect) (rest : String)
    (h : ∀ place, check place = .error { d with path := place.path ++ rest }) :
    Relocates check where
  passes place := by rw [h, h]; exact ⟨nofun, nofun⟩
  fails e he := by
    rw [h] at he
    obtain rfl := Except.error.inj he
    exact ⟨rest, rfl, h⟩

/-- There is no third case. -/
theorem ok_or_error (h : Relocates check) : (∀ place, check place = .ok ()) ∨
    ∃ (d : Defect) (rest : String),
      ∀ place, check place = .error { d with path := place.path ++ rest } := by
  cases root : check .root with
  | ok => exact .inl fun place => (h.passes place).2 root
  | error e =>
    obtain ⟨rest, -, hrest⟩ := h.fails e root
    exact .inr ⟨e, rest, hrest⟩

/-- What is checked one step further down. -/
theorem step (h : Relocates check) (s : Step) : Relocates fun place => check (place.step s) := by
  rcases h.ok_or_error with passed | ⟨d, rest, failed⟩
  · exact of_ok fun place => passed _
  · refine of_error d (String.ofList s.chars ++ rest) fun place => (failed _).trans ?_
    have path : (place.step s).path = place.path ++ String.ofList s.chars := by
      simpa using place.path_follow [s]
    rw [path, String.append_assoc]

/-- One check after the other. -/
theorem seq (first : Relocates check) (second : Relocates later) :
    Relocates fun place => (do check place; later place) := by
  rcases first.ok_or_error with passed | ⟨d, rest, failed⟩
  · have same (place : Location) : (do check place; later place) = later place := by
      rw [passed place]
      rfl
    simpa only [same] using second
  · refine of_error d rest fun place => ?_
    rw [failed place]
    rfl

end Relocates

theorem relocates_wrongShape (code : ErrorCode) (what : String) (shape : Shape) (value : Json) :
    Relocates fun place => .error (Check.wrongShape code what shape value place) := by
  refine .of_error (Check.wrongShape code what shape value .root) "" fun place => ?_
  rw [String.append_empty]
  rfl

/-- The path of a broken rule is the place and the steps of the rule. -/
theorem relocates_defect (r : Rule) (value : Json) :
    Relocates fun place => .error (r.defect value place) := by
  refine .of_error (r.defect value .root) (String.ofList (r.steps.flatMap Step.chars))
    fun place => ?_
  rw [← Location.path_follow, ← r.path_defect value, Rule.defect_with_path]

theorem relocates_enforce (rules : List Rule) (value : Json) : Relocates (enforce rules value) := by
  induction rules with
  | nil => exact .of_ok fun _ => rfl
  | cons r rules ih =>
    by_cases h : r.holds value
    · have same : enforce (r :: rules) value = enforce rules value := by
        funext place
        rw [enforce, if_pos h]
      rw [same]
      exact ih
    · have same : enforce (r :: rules) value = fun place => .error (r.defect value place) := by
        funext place
        rw [enforce, if_neg h]
      rw [same]
      exact relocates_defect r value

/-! ## The stages move -/

theorem relocates_checkProperties (properties : Json) :
    Relocates (checkProperties properties) := by
  rw [funext (checkProperties_eq properties)]
  exact relocates_enforce ..

theorem relocates_checkSettings (settings : Json) : Relocates (checkSettings settings) := by
  rw [funext (checkSettings_eq settings)]
  exact relocates_enforce ..

theorem relocates_checkService (entry : Json) : Relocates (checkService entry) := by
  rw [funext (checkService_eq entry)]
  exact relocates_enforce ..

theorem relocates_checkEntries (index : Nat) (entries : List Json) :
    Relocates fun place => checkEntries place index entries := by
  induction entries generalizing index with
  | nil => exact .of_ok fun _ => rfl
  | cons entry entries ih => exact ((relocates_checkService entry).step (.item index)).seq (ih _)

theorem relocates_checkGroup (key : String) (value : Json) : Relocates (checkGroup key value) := by
  cases value with
  | array entries => exact relocates_checkEntries 0 entries
  | null | bool | number | string | object => exact relocates_wrongShape ..

theorem relocates_checkGroups (scope : Scope) (members : Members) :
    Relocates fun place => checkGroups scope place members := by
  induction members with
  | nil => exact .of_ok fun _ => rfl
  | cons member members ih =>
    obtain ⟨key, value⟩ := member
    by_cases h : scope.includes key
    · simp only [checkGroups_cons_of_includes h]
      exact ((relocates_checkGroup key value).step (.member key)).seq ih
    · simp only [checkGroups_cons_of_not_includes h]
      exact ih

theorem relocates_checkDocument (scope : Scope) (document : Json) :
    Relocates (checkDocument scope document) := by
  cases document with
  | object members => exact relocates_checkGroups scope members
  | null | bool | number | string | array => exact relocates_wrongShape ..

/-! ## What a stage says that the walk goes down to -/

/-- A rule is the first of a list that a value breaks. -/
def FirstBroken (rules : List Rule) (value : Json) (r : Rule) : Prop :=
  ∃ kept rest, rules = kept ++ r :: rest ∧ (∀ q ∈ kept, q.holds value) ∧ r.holds value = false

theorem FirstBroken.enforce_eq {rules : List Rule} {value : Json} {r : Rule}
    (first : FirstBroken rules value r) (place : Location) :
    enforce rules value place = .error (r.defect value place) := by
  obtain ⟨kept, rest, split, keeps, breaks⟩ := first
  exact enforce_eq_error_iff.2 ⟨kept, r, rest, split, keeps, breaks, rfl⟩

theorem exists_members_of_get? {value target : Json} {key : String}
    (h : value.get? key = some target) : ∃ members : Members, value = .object members := by
  cases value with
  | object members => exact ⟨members, rfl⟩
  | null | bool | number | string | array => cases h

/-- Where the rules for a member come last and the rules in front of them look elsewhere and ask for
the member, a broken rule that looks into the member is the first broken one there. -/
theorem FirstBroken.inside {front inner : List Rule} {key : String} {value : Json} {r : Rule}
    (first : FirstBroken (front ++ inner.map (.under key)) value r)
    (elsewhere : ∀ q ∈ front, ¬[.member key] <+: q.route)
    (asked : ∃ code owner, .member code owner key ∈ front) (inside : [.member key] <+: r.route) :
    ∃ target q, value.get? key = some target ∧ r = q.under key ∧ FirstBroken inner target q := by
  obtain ⟨kept, rest, split, keeps, breaks⟩ := first
  obtain ⟨passed, rfl, hinner⟩ : ∃ passed, kept = front ++ passed ∧
      inner.map (.under key) = passed ++ r :: rest := by
    rcases List.append_eq_append_iff.1 split with ⟨passed, hkept, hinner⟩ | ⟨beyond, hfront, hrest⟩
    · exact ⟨passed, hkept, hinner⟩
    · cases beyond with
      | nil => exact ⟨[], by simpa using hfront.symm, hrest.symm⟩
      | cons q beyond =>
        obtain ⟨rfl, -⟩ := List.cons.inj hrest
        exact absurd inside (elsewhere r (by rw [hfront]; simp))
  obtain ⟨code, owner, hmember⟩ := asked
  have there := keeps _ (List.mem_append_left _ hmember)
  obtain ⟨target, htarget⟩ : ∃ target, value.get? key = some target :=
    Option.isSome_iff_exists.1 there
  obtain ⟨members, rfl⟩ := exists_members_of_get? htarget
  obtain ⟨kept, tail, rfl, rfl, htail⟩ := List.map_eq_append_iff.1 hinner
  obtain ⟨q, rest, rfl, rfl, rfl⟩ := List.map_eq_cons_iff.1 htail
  refine ⟨target, q, htarget, rfl, kept, rest, rfl, fun p hp => ?_, ?_⟩
  · rw [← holds_under p htarget]
    exact keeps _ (List.mem_append_right _ (List.mem_map_of_mem hp))
  · rw [← holds_under q htarget]
    exact breaks

/-- A stage that the walk goes down to, with the way to what it checks. -/
inductive Stage where
  | group (key : String)
  | service (key : String) (index : Nat)
  | settings (key : String) (index : Nat)
  | properties (key : String) (index : Nat)

namespace Stage

/-- The steps from the document to the value that the stage checks. -/
def steps : Stage → List Step
  | group key => [.member key]
  | service key index => [.member key, .item index]
  | settings key index => [.member key, .item index, .member "service_settings"]
  | properties key index =>
    [.member key, .item index, .member "service_settings", .member "properties"]

def check : Stage → Json → Location → Except Defect Unit
  | group key => checkGroup key
  | service _ _ => checkService
  | settings _ _ => checkSettings
  | properties _ _ => checkProperties

end Stage

/-- The steps from the document to the place where the fault was found: where a member is missing,
that is the object around it. -/
def Fault.route : Fault → List Step
  | document _ => []
  | group key _ => [.member key]
  | entry key index _ rule => .member key :: .item index :: rule.route

theorem FirstBroken.settings {entry : Json} {rule : Rule}
    (first : FirstBroken serviceRules entry rule)
    (inside : [.member "service_settings"] <+: rule.route) :
    ∃ settings q, entry.get? "service_settings" = some settings ∧
      rule = q.under "service_settings" ∧ FirstBroken settingsRules settings q :=
  first.inside (by decide) ⟨.servicePropertyMissing, "service", by decide⟩ inside

theorem FirstBroken.properties {settings : Json} {rule : Rule}
    (first : FirstBroken settingsRules settings rule)
    (inside : [.member "properties"] <+: rule.route) :
    ∃ properties q, settings.get? "properties" = some properties ∧
      rule = q.under "properties" ∧ FirstBroken propertiesRules properties q :=
  first.inside (by decide) ⟨.settingsPropertyMissing, "service_settings", by decide⟩ inside

theorem Rule.defect_under_get? {r : Rule} {key : String} {value target : Json}
    (h : value.get? key = some target) (place : Location) :
    (r.under key).defect value place = r.defect target (place.member key) := by
  obtain ⟨members, rfl⟩ := exists_members_of_get? h
  exact defect_under r h

/-- Where the walk stops, every stage on the way there stops by itself. -/
theorem FirstFault.check_eq_error {scope : Scope} {document : Json} {fault : Fault}
    (distinct : document.KeysDistinct) (first : FirstFault scope document fault) {stage : Stage}
    (within : stage.steps <+: fault.route) (place : Location) :
    ∃ value, document.at? stage.steps = some value ∧
      stage.check value (place.follow stage.steps) = .error (fault.defect place) := by
  cases first with
  | document =>
    cases stage <;> simp [Stage.steps, Fault.route] at within
  | @group before after key value _ _ notArray =>
    have there := Members.get?_of_distinct (distinct _ rfl)
    cases stage with
    | group key' =>
      obtain rfl : key' = key := by simpa [Stage.steps, Fault.route] using within
      refine ⟨value, by simp [Stage.steps, Json.at?, there], ?_⟩
      cases value with
      | array => exact absurd rfl notArray
      | null | bool | number | string | object => rfl
    | service | settings | properties => simp [Stage.steps, Fault.route] at within
  | @entry before after key passed later entry kept rest rule _ _ conform split keeps breaks =>
    have there := Members.get?_of_distinct (distinct _ rfl)
    have broken : FirstBroken serviceRules entry rule := ⟨kept, rest, split, keeps, breaks⟩
    have inEntry (steps : List Step) : Json.at? (.object (before ++ (key, .array (passed ++
        entry :: later)) :: after)) (.member key :: .item passed.length :: steps) =
          entry.at? steps := by
      simp [Json.at?, there, Json.items?]
    cases stage with
    | group key' =>
      obtain rfl : key' = key := by simpa [Stage.steps, Fault.route] using within
      refine ⟨.array (passed ++ entry :: later), by simp [Stage.steps, Json.at?, there], ?_⟩
      refine checkEntries_eq_error_iff.2 ⟨passed, entry, later, rfl, conform, ?_⟩
      rw [checkService_eq, broken.enforce_eq, Nat.zero_add]
      rfl
    | service key' index =>
      obtain ⟨rfl, rfl⟩ : key' = key ∧ index = passed.length := by
        simpa [Stage.steps, Fault.route] using within
      refine ⟨entry, inEntry [], ?_⟩
      show checkService entry _ = _
      rw [checkService_eq, broken.enforce_eq]
      rfl
    | settings key' index =>
      obtain ⟨rfl, rfl, inside⟩ : key' = key ∧ index = passed.length ∧
          [.member "service_settings"] <+: rule.route := by
        simpa [Stage.steps, Fault.route, List.cons_prefix_cons] using within
      obtain ⟨settings, q, hsettings, rfl, inner⟩ := broken.settings inside
      refine ⟨settings, (inEntry _).trans (by simp [Json.at?, hsettings]), ?_⟩
      show checkSettings settings _ = _
      rw [checkSettings_eq, inner.enforce_eq, Fault.defect, Rule.defect_under_get? hsettings]
      rfl
    | properties key' index =>
      obtain ⟨rfl, rfl, inside⟩ : key' = key ∧ index = passed.length ∧
          [.member "service_settings", .member "properties"] <+: rule.route := by
        simpa [Stage.steps, Fault.route, List.cons_prefix_cons] using within
      have outer : [Step.member "service_settings"] <+: rule.route :=
        List.IsPrefix.trans (by simp) inside
      obtain ⟨settings, q, hsettings, rfl, middle⟩ := broken.settings outer
      obtain ⟨properties, q, hproperties, rfl, inner⟩ :=
        middle.properties (List.cons_prefix_cons.1 inside).2
      refine ⟨properties, (inEntry _).trans (by simp [Json.at?, hsettings, hproperties]), ?_⟩
      show checkProperties properties _ = _
      rw [checkProperties_eq, inner.enforce_eq, Fault.defect, Rule.defect_under_get? hsettings,
        Rule.defect_under_get? hproperties]
      rfl

/-! ## Properties that are no object -/

/-- The defect of properties that are no object, where the properties should be. -/
def notProperties (properties : Json) (place : Location) : Defect :=
  Check.wrongShape .settingsPropertyWrongType "service_settings property 'properties'" .object
    properties (place.member "properties")

variable {members : Members} {type : String} {required : List Json} {properties : Json}

theorem checkProperties_of_notObject (notObject : properties.kind ≠ .object) (place : Location) :
    checkProperties properties (place.member "properties") =
      .error (notProperties properties place) := by
  cases properties with
  | object => exact absurd rfl notObject
  | null | bool | number | string | array => rfl

/-- The other fields of a schema being in order, its check of shapes words the defect as the check
of the properties does. -/
theorem shaped_of_notObject (hasType : members.get? "type" = some (.string type))
    (hasRequired : members.get? "required" = some (.array required))
    (hasProperties : members.get? "properties" = some properties)
    (notObject : properties.kind ≠ .object) (place : Location) :
    Check.shaped members settingsShapes .settingsPropertyWrongType "service_settings" place =
      .error (notProperties properties place) := by
  have refused : Shape.object.accepts properties = false := beq_false_of_ne notObject
  have type : Check.misshapen? members "type" .string = none := by
    rw [Check.misshapen?, hasType]; rfl
  have required : Check.misshapen? members "required" .array = none := by
    rw [Check.misshapen?, hasRequired]; rfl
  have found : Check.misshapen? members "properties" .object = some properties := by
    rw [Check.misshapen?, hasProperties]; simp [Option.filter, refused]
  rw [settingsShapes, Check.shaped, type]
  rw [Check.shaped, required]
  rw [Check.shaped, found]
  rfl

theorem checkSettings_of_notObject (hasType : members.get? "type" = some (.string type))
    (hasRequired : members.get? "required" = some (.array required))
    (hasProperties : members.get? "properties" = some properties)
    (notObject : properties.kind ≠ .object) (place : Location) :
    checkSettings (.object members) place = .error (notProperties properties place) := by
  have present : Check.present members settingsFields .settingsPropertyMissing "service_settings"
      place = .ok () := by
    simp [Check.present, settingsFields, Members.contains, hasType, hasRequired, hasProperties]
  have shaped := shaped_of_notObject hasType hasRequired hasProperties notObject place
  simp [checkSettings, Check.object, present, shaped, bind, Except.bind]

/-- Every stage can be run at any place, and a place shows in the path of a defect only. The stages
on the way to what a document is rejected for say the same by themselves, and for properties that
are no object the schema says what the properties say. -/
theorem stages_stand_alone :
    (∀ scope document, Relocates (checkDocument scope document)) ∧
    (∀ key value, Relocates (checkGroup key value)) ∧
    (∀ entry, Relocates (checkService entry)) ∧
    (∀ settings, Relocates (checkSettings settings)) ∧
    (∀ properties, Relocates (checkProperties properties)) ∧
    (∀ (scope : Scope) (document : Json) (place : Location) (e : Defect), document.KeysDistinct →
      checkDocument scope document place = .error e →
      (∃ fault, FirstFault scope document fault) ∧ ∀ fault, FirstFault scope document fault →
        e = fault.defect place ∧ ∀ stage : Stage, stage.steps <+: fault.route →
          ∃ value, document.at? stage.steps = some value ∧
            stage.check value (place.follow stage.steps) = .error e) ∧
    ∀ (members : Members) (type : String) (required : List Json) (properties : Json)
      (place : Location), members.get? "type" = some (.string type) →
      members.get? "required" = some (.array required) →
      members.get? "properties" = some properties → properties.kind ≠ .object →
      ∃ e, Check.shaped members settingsShapes .settingsPropertyWrongType "service_settings" place =
          .error e ∧
        checkSettings (.object members) place = .error e ∧
        checkProperties properties (place.member "properties") = .error e := by
  refine ⟨relocates_checkDocument, relocates_checkGroup, relocates_checkService,
    relocates_checkSettings, relocates_checkProperties, ?_, ?_⟩
  · intro scope document place e distinct rejected
    obtain ⟨fault, first, -⟩ := checkDocument_eq_error_iff.1 rejected
    refine ⟨⟨fault, first⟩, fun fault first => ?_⟩
    obtain rfl : e = fault.defect place := Except.error.inj
      (rejected.symm.trans (checkDocument_eq_error_iff.2 ⟨fault, first, rfl⟩))
    exact ⟨rfl, fun _ within => first.check_eq_error distinct within place⟩
  · intro members type required properties place hasType hasRequired hasProperties notObject
    exact ⟨_, shaped_of_notObject hasType hasRequired hasProperties notObject place,
      checkSettings_of_notObject hasType hasRequired hasProperties notObject place,
      checkProperties_of_notObject notObject place⟩

/-- A schema with properties that are no object. -/
def listedProperties : Members :=
  [("properties", .array []), ("required", .array [.null]), ("type", .string "")]

/-- Its only entry. -/
def listedEntry : Json :=
  .object [("service_settings", .object listedProperties), ("id", .string "a"),
    ("method_title", .string "A"), ("method_description", .string "")]

def listedDocument : Json := .object [("note", .null), ("x.y", .array [listedEntry])]

/-- The rule that the entry breaks. -/
def listedRule : Rule :=
  ((Rule.object .settingsPropertyWrongType "service_settings property 'properties'").under
    "properties").under "service_settings"

theorem firstFault_listedDocument :
    FirstFault (.only ["x.y"]) listedDocument (.entry "x.y" 0 listedEntry listedRule) := by
  show FirstFault _ (.object ([("note", .null)] ++ ("x.y", .array ([] ++ listedEntry :: [])) :: []))
    (.entry "x.y" ([] : List Json).length listedEntry listedRule)
  have split : serviceRules = serviceRules.take 14 ++ listedRule :: serviceRules.drop 15 := by rfl
  have outOfScope : (Scope.only ["x.y"]).includes "note" = false := by rfl
  exact .entry (by simp [outOfScope]) rfl (by simp) split (by decide) (by decide)

theorem stages_stand_alone_listedDocument :
    listedDocument.KeysDistinct ∧
    checkDocument (.only ["x.y"]) listedDocument ⟨"$[3]"⟩ =
      .error (notProperties (.array []) ⟨"$[3].x.y[0].service_settings"⟩) ∧
    FirstFault (.only ["x.y"]) listedDocument (.entry "x.y" 0 listedEntry listedRule) ∧
    (∃ value, listedDocument.at? (Stage.properties "x.y" 0).steps = some value ∧
      checkProperties value ⟨"$[3].x.y[0].service_settings.properties"⟩ =
        .error (notProperties (.array []) ⟨"$[3].x.y[0].service_settings"⟩)) ∧
    ∃ e, Check.shaped listedProperties settingsShapes .settingsPropertyWrongType "service_settings"
        .root = .error e ∧
      checkSettings (.object listedProperties) .root = .error e ∧
      checkProperties (.array []) (Location.root.member "properties") = .error e := by
  have distinct : listedDocument.KeysDistinct := by
    intro members h
    cases h
    decide
  have rejected : checkDocument (.only ["x.y"]) listedDocument ⟨"$[3]"⟩ =
      .error (notProperties (.array []) ⟨"$[3].x.y[0].service_settings"⟩) := by rfl
  obtain ⟨-, -, -, -, -, walk, schema⟩ := stages_stand_alone
  obtain ⟨-, alone⟩ := walk _ _ _ _ distinct rejected
  obtain ⟨-, stages⟩ := alone _ firstFault_listedDocument
  exact ⟨distinct, rejected, firstFault_listedDocument,
    stages (.properties "x.y" 0) (by decide), schema _ "" [.null] _ _ rfl rfl rfl nofun⟩

end ServiceContract.Contract
