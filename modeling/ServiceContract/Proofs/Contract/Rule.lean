import ServiceContract.Contract

/-!
# The rules for an entry

The checks of an entry, one after the other, as a list of rules. A rule names the route from the
entry down to the place it looks at, what it asks for there and the code of its defect; `enforce`
fails with the defect of the first rule that is broken. Each stage of the check enforces its own
list, and a stage that goes down to a member enforces the rules of that member under its key
(`checkProperties_eq`, `checkSettings_eq`, `checkService_eq`).
-/

namespace ServiceContract

@[simp] theorem Json.get?_object (members : Members) (key : String) :
    (Json.object members).get? key = members.get? key := rfl

theorem Shape.accepts_iff {shape : Shape} {value : Json} :
    shape.accepts value ↔ match shape with
      | .object => ∃ members, value = .object members
      | .array => ∃ items, value = .array items
      | .string => ∃ text, value = .string text := by
  cases shape <;> cases value <;> simp [accepts, Json.kind, kind]

@[simp] theorem Location.follow_nil (place : Location) : place.follow [] = place := rfl

@[simp] theorem Location.follow_cons (place : Location) (step : Step) (steps : List Step) :
    place.follow (step :: steps) = (place.step step).follow steps := rfl

theorem Location.follow_append (place : Location) (steps more : List Step) :
    place.follow (steps ++ more) = (place.follow steps).follow more :=
  List.foldl_append

/-- The value that a list of steps leads to. -/
def Json.at? : Json → List Step → Option Json
  | value, [] => some value
  | value, .member key :: steps => (value.get? key).bind (·.at? steps)
  | value, .item index :: steps => (value.items?.bind (·[index]?)).bind (·.at? steps)

namespace Contract

/-- What a rule asks for: that a value has a shape, or that it is an object with a member. -/
inductive Demand where
  | shape (shape : Shape) (what : String)
  | member (field owner : String)
  deriving DecidableEq, Repr

structure Rule where
  code : ErrorCode
  /-- The steps from the entry down to the place that the rule looks at. -/
  route : List Step
  demand : Demand
  deriving DecidableEq, Repr

namespace Rule

/-- The value is an object. -/
def object (code : ErrorCode) (what : String) : Rule := ⟨code, [], .shape .object what⟩

/-- An object has a member. -/
def member (code : ErrorCode) (owner field : String) : Rule := ⟨code, [], .member field owner⟩

/-- A member has a shape. -/
def shape (code : ErrorCode) (owner field : String) (shape : Shape) : Rule :=
  ⟨code, [.member field], .shape shape (owner ++ " property '" ++ field ++ "'")⟩

/-- The rule for what stands under a key. -/
def under (key : String) (r : Rule) : Rule := { r with route := .member key :: r.route }

/-- Whether a value keeps the rule. A rule whose place is not there is broken. -/
def holds (r : Rule) (value : Json) : Bool :=
  (value.at? r.route).any fun target =>
    match r.demand with
    | .shape shape _ => shape.accepts target
    | .member field _ => (target.get? field).isSome

/-- The defect of a value at a place that breaks the rule. -/
def defect (r : Rule) (value : Json) (place : Location) : Defect :=
  match r.demand with
  | .shape shape what =>
    Check.wrongShape r.code what shape ((value.at? r.route).getD .null) (place.follow r.route)
  | .member field owner => Check.missing r.code owner field (place.follow r.route)

/-- The steps to the place of the defect: to the place of the rule, or on to the missing member. -/
def steps (r : Rule) : List Step :=
  match r.demand with
  | .shape .. => r.route
  | .member field _ => r.route ++ [.member field]

end Rule

/-- Fails with the defect of the first rule that a value breaks. -/
def enforce (rules : List Rule) (value : Json) (place : Location) : Except Defect Unit :=
  match rules with
  | [] => .ok ()
  | r :: rules => if r.holds value then enforce rules value place else .error (r.defect value place)

/-- The rules for the properties of a settings schema. -/
def propertiesRules : List Rule :=
  .object .settingsPropertyWrongType "service_settings property 'properties'" ::
    ["enabled", "title"].map (.member .propertiesKeyMissing "settings")

/-- The rules for a settings schema. -/
def settingsRules : List Rule :=
  .object .settingsPropertyWrongType "service_settings" ::
    ["type", "required", "properties"].map (.member .settingsPropertyMissing "service_settings") ++
    [.shape .settingsPropertyWrongType "service_settings" "type" .string,
      .shape .settingsPropertyWrongType "service_settings" "required" .array] ++
    propertiesRules.map (.under "properties")

/-- The rules for an entry, in the order they are looked at. -/
def serviceRules : List Rule :=
  .object .serviceNotObject "service entry" ::
    ["id", "method_description", "method_title", "service_settings"].map
      (.member .servicePropertyMissing "service") ++
    ["id", "method_description", "method_title"].map
      (.shape .servicePropertyWrongType "service" · .string) ++
    settingsRules.map (.under "service_settings")

/-- The shape of `properties` is asked for where the rules for the properties begin. -/
example : serviceRules =
    [.object .serviceNotObject "service entry",
      .member .servicePropertyMissing "service" "id",
      .member .servicePropertyMissing "service" "method_description",
      .member .servicePropertyMissing "service" "method_title",
      .member .servicePropertyMissing "service" "service_settings",
      .shape .servicePropertyWrongType "service" "id" .string,
      .shape .servicePropertyWrongType "service" "method_description" .string,
      .shape .servicePropertyWrongType "service" "method_title" .string] ++
    [Rule.object .settingsPropertyWrongType "service_settings",
      .member .settingsPropertyMissing "service_settings" "type",
      .member .settingsPropertyMissing "service_settings" "required",
      .member .settingsPropertyMissing "service_settings" "properties",
      .shape .settingsPropertyWrongType "service_settings" "type" .string,
      .shape .settingsPropertyWrongType "service_settings" "required" .array,
      .shape .settingsPropertyWrongType "service_settings" "properties" .object].map
        (.under "service_settings") ++
    [Rule.member .propertiesKeyMissing "settings" "enabled",
      .member .propertiesKeyMissing "settings" "title"].map
        fun r => (r.under "properties").under "service_settings" := rfl

theorem Rule.code_defect (r : Rule) (value : Json) (place : Location) :
    (r.defect value place).code = r.code := by
  unfold defect
  split <;> rfl

theorem Rule.path_defect (r : Rule) (value : Json) (place : Location) :
    (r.defect value place).path = (place.follow r.steps).path := by
  unfold defect steps
  split
  · rfl
  · rw [Location.follow_append]; rfl

/-! ## Enforcing lists of rules -/

variable {rules more : List Rule} {value : Json} {place : Location}

theorem enforce_eq_find? : enforce rules value place =
    match rules.find? fun r => !r.holds value with
    | some r => .error (r.defect value place)
    | none => .ok () := by
  induction rules with
  | nil => rfl
  | cons r rules ih => by_cases h : r.holds value <;> simp [enforce, h, ih]

theorem enforce_eq_ok_iff : enforce rules value place = .ok () ↔ ∀ r ∈ rules, r.holds value := by
  rw [enforce_eq_find?]
  cases h : rules.find? fun r => !r.holds value with
  | none => simpa using h
  | some r =>
    have hr : r.holds value = false := by simpa using List.find?_some h
    simp only [reduceCtorEq, false_iff]
    intro hall
    rw [hall r (List.mem_of_find?_eq_some h)] at hr
    cases hr

/-- The defect that is reported is that of the first rule that is broken. -/
theorem enforce_eq_error_iff {e : Defect} : enforce rules value place = .error e ↔
    ∃ kept r rest, rules = kept ++ r :: rest ∧ (∀ q ∈ kept, q.holds value) ∧
      r.holds value = false ∧ e = r.defect value place := by
  rw [enforce_eq_find?]
  constructor
  · intro he
    split at he
    · next r hr =>
      obtain ⟨hbroken, kept, rest, hsplit, hkept⟩ := List.find?_eq_some_iff_append.1 hr
      exact ⟨kept, r, rest, hsplit, by simpa using hkept, by simpa using hbroken,
        (Except.error.inj he).symm⟩
    · cases he
  · rintro ⟨kept, r, rest, hsplit, hkept, hbroken, rfl⟩
    have hr : rules.find? (fun r => !r.holds value) = some r :=
      List.find?_eq_some_iff_append.2
        ⟨by simpa using hbroken, kept, rest, hsplit, by simpa using hkept⟩
    rw [hr]

/-- What is done after some rules were kept may be what enforces further rules. -/
theorem enforce_bind {next : Except Defect Unit}
    (h : (∀ r ∈ rules, r.holds value) → next = enforce more value place) :
    (enforce rules value place >>= fun _ => next) = enforce (rules ++ more) value place := by
  induction rules with
  | nil => exact h (by simp)
  | cons r rules ih =>
    by_cases hr : r.holds value
    · simp only [enforce, hr, if_true, List.cons_append]
      exact ih fun hall => h (by simpa [hr] using hall)
    · simp only [enforce, hr, List.cons_append]
      rfl

/-- A rule that was just kept need not be looked at again. -/
theorem enforce_repeat (rules : List Rule) (r : Rule) (more : List Rule) :
    enforce (rules ++ r :: r :: more) value place = enforce (rules ++ r :: more) value place := by
  induction rules with
  | nil => by_cases h : r.holds value <;> simp [enforce, h]
  | cons q rules ih => simp only [List.cons_append, enforce, ih]

section Under

variable {members : Members} {key : String} {target : Json}

theorem holds_under (r : Rule) (h : members.get? key = some target) :
    (r.under key).holds (.object members) = r.holds target := by
  simp [Rule.holds, Rule.under, Json.at?, h]

theorem defect_under (r : Rule) (h : members.get? key = some target) :
    (r.under key).defect (.object members) place = r.defect target (place.member key) := by
  simp [Rule.defect, Rule.under, Json.at?, h, Location.step]

theorem forall_holds_under (h : members.get? key = some target) :
    (∀ r ∈ rules.map (Rule.under key), r.holds (.object members)) ↔
      ∀ r ∈ rules, r.holds target := by
  rw [List.forall_mem_map]
  exact forall₂_congr fun r _ => by rw [holds_under r h]

/-- The rules of a member are enforced at the place of the member. -/
theorem enforce_under (h : members.get? key = some target) :
    enforce (rules.map (Rule.under key)) (.object members) place =
      enforce rules target (place.member key) := by
  induction rules with
  | nil => rfl
  | cons r rules ih => simp only [List.map_cons, enforce, holds_under r h, defect_under r h, ih]

end Under

/-! ## What single rules ask for -/

theorem object_holds_iff {code : ErrorCode} {what : String} :
    (Rule.object code what).holds value ↔ ∃ members, value = .object members :=
  Shape.accepts_iff

theorem member_holds_iff {code : ErrorCode} {owner field : String} {members : Members} :
    (Rule.member code owner field).holds (.object members) ↔
      ∃ target, members.get? field = some target :=
  Option.isSome_iff_exists

theorem shape_holds_iff {code : ErrorCode} {owner field : String} {shape : Shape}
    {members : Members} : (Rule.shape code owner field shape).holds (.object members) ↔
      ∃ target, members.get? field = some target ∧ shape.accepts target := by
  simp only [Rule.holds, Rule.shape, Json.at?, Json.get?_object]
  cases members.get? field <;> simp

/-! ## The stages of the check -/

theorem present_eq_enforce (members : Members) (fields : List String) (code : ErrorCode)
    (owner : String) (place : Location) :
    Check.present members fields code owner place =
      enforce (fields.map (.member code owner)) (.object members) place := by
  induction fields with
  | nil => rfl
  | cons field fields ih =>
    have holds : (Rule.member code owner field).holds (.object members) =
        members.contains field := rfl
    by_cases h : members.contains field
    · rw [List.map_cons, enforce, holds, if_pos h, ← ih]
      simp [Check.present, h]
    · rw [List.map_cons, enforce, holds, if_neg h]
      simp [Check.present, h]
      rfl

/-- Among fields that are there, no check of a shape is passed over. -/
theorem shaped_eq_enforce {members : Members} {fields : List (String × Shape)} {code : ErrorCode}
    {owner : String} {place : Location} (h : ∀ f ∈ fields, members.contains f.1) :
    Check.shaped members fields code owner place =
      enforce (fields.map fun f => .shape code owner f.1 f.2) (.object members) place := by
  induction fields with
  | nil => rfl
  | cons f fields ih =>
    obtain ⟨field, shape⟩ := f
    obtain ⟨value, hvalue⟩ := Option.isSome_iff_exists.1 (h _ List.mem_cons_self)
    have hat : (Json.object members).at? [.member field] = some value := by
      simp [Json.at?, Json.get?, Json.members?, hvalue]
    have ih := ih fun f hf => h f (.tail _ hf)
    rw [List.map_cons, enforce, ← ih, Check.shaped, Check.misshapen?, hvalue]
    by_cases hshape : shape.accepts value
    · simp [Rule.holds, Rule.shape, hat, hshape, Option.filter]
    · simp [Rule.holds, Rule.defect, Rule.shape, hat, hshape, Option.filter, Location.step]

/-- What is done with the members of an object may be what enforces further rules. -/
theorem object_bind {value : Json} {code : ErrorCode} {what : String} {place : Location}
    {rules : List Rule} {next : Members → Except Defect Unit}
    (h : ∀ members : Members, value = .object members → next members = enforce rules value place) :
    (Check.object value code what place >>= next) =
      enforce (.object code what :: rules) value place := by
  cases value with
  | object members => exact h members rfl
  | _ => rfl

theorem checkProperties_eq (properties : Json) (place : Location) :
    checkProperties properties place = enforce propertiesRules properties place := by
  refine object_bind fun members hm => ?_
  rw [hm]
  exact present_eq_enforce ..

theorem checkSettings_eq (settings : Json) (place : Location) :
    checkSettings settings place = enforce settingsRules settings place := by
  refine object_bind fun members hm => ?_
  subst hm
  rw [present_eq_enforce]
  refine enforce_bind fun hpresent => ?_
  have hmem : ∀ field ∈ settingsFields, members.contains field := fun field hf =>
    hpresent _ (List.mem_map_of_mem hf)
  have hshapes : ∀ f ∈ settingsShapes, f.1 ∈ settingsFields := by decide
  obtain ⟨properties, hp⟩ := Option.isSome_iff_exists.1 (hmem "properties" (by decide))
  rw [shaped_eq_enforce fun f hf => hmem _ (hshapes f hf), hp]
  -- The shape of `properties` is looked at twice: here, and where its own rules begin.
  calc _ = enforce ((settingsShapes.map fun f =>
          Rule.shape .settingsPropertyWrongType "service_settings" f.1 f.2) ++
          propertiesRules.map (Rule.under "properties")) (.object members) place :=
        enforce_bind fun _ => by rw [enforce_under hp, ← checkProperties_eq]
    _ = _ := enforce_repeat [_, _] _ _

theorem checkService_eq (entry : Json) (place : Location) :
    checkService entry place = enforce serviceRules entry place := by
  refine object_bind fun members hm => ?_
  subst hm
  rw [present_eq_enforce]
  refine enforce_bind fun hpresent => ?_
  have hmem : ∀ field ∈ serviceFields, members.contains field := fun field hf =>
    hpresent _ (List.mem_map_of_mem hf)
  have htexts : ∀ f ∈ serviceTexts, f.1 ∈ serviceFields := by decide
  obtain ⟨settings, hs⟩ := Option.isSome_iff_exists.1 (hmem "service_settings" (by decide))
  rw [shaped_eq_enforce fun f hf => hmem _ (htexts f hf), hs]
  refine enforce_bind fun _ => ?_
  rw [enforce_under hs, ← checkSettings_eq]

end Contract

end ServiceContract
