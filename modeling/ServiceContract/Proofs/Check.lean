import ServiceContract.Proofs.Contract.Edit
import ServiceContract.Proofs.Contract.Overlooked

/-!
# What the checks over lists report

The two checks over lists of fields are one search, which goes through the list and fails with the
first defect that it meets (`present_eq_search`, `shaped_eq_search`). So a check passes if no field
of its list has a defect, and otherwise reports the one before which all fields are in order. All
that is seen of an object is what stands under the listed fields (`Members.SameUnder`).
-/

namespace ServiceContract

namespace Members

/-- The members under some keys. -/
def under (keys : List String) (members : Members) : Members :=
  members.filter fun member => keys.contains member.1

/-- Two objects have the same members under some keys, in whatever order, and besides them any. -/
structure SameUnder (keys : List String) (members members' : Members) : Prop where
  distinct : members.keys.Nodup
  perm : (members.under keys).Perm (members'.under keys)

variable {keys : List String} {key : String} {members members' : Members}

theorem get?_under (listed : key ∈ keys) (members : Members) :
    (members.under keys).get? key = members.get? key := by
  induction members with
  | nil => rfl
  | cons member members ih =>
    obtain ⟨k, v⟩ := member
    rw [under, List.filter_cons, get?_cons]
    split
    · rw [get?_cons, ← under, ih]
    · next dropped =>
      have other : key ≠ k := by
        rintro rfl
        exact dropped (List.contains_iff_mem.2 listed)
      rw [if_neg other, ← under, ih]

theorem keys_under_nodup (distinct : members.keys.Nodup) : (members.under keys).keys.Nodup :=
  distinct.sublist (List.filter_sublist.map _)

theorem SameUnder.get?_eq (h : SameUnder keys members members') (listed : key ∈ keys) :
    members.get? key = members'.get? key := by
  -- The objects themselves need not be permutations of each other; what is left of them is one.
  rw [← get?_under listed members, ← get?_under listed members']
  exact get?_perm (keys_under_nodup h.distinct) h.perm key

end Members

namespace Check

/-! ## The search for the first defect -/

/-- Goes through a list and fails with the first defect. -/
def search {α : Type} (defect? : α → Option Defect) (items : List α) : Except Defect Unit :=
  match items.findSome? defect? with
  | some defect => .error defect
  | none => .ok ()

section Search

variable {α : Type} {defect? : α → Option Defect} {item : α} {items : List α} {e : Defect}

theorem search_cons_of_none (h : defect? item = none) :
    search defect? (item :: items) = search defect? items := by
  rw [search, List.findSome?_cons_of_isNone (by simp [h]), search]

theorem search_cons_of_some (h : defect? item = some e) :
    search defect? (item :: items) = .error e := by
  rw [search, List.findSome?_cons_of_isSome (by simp [h]), h]

theorem search_eq_ok_iff : search defect? items = .ok () ↔ ∀ item ∈ items, defect? item = none := by
  rw [← List.findSome?_eq_none_iff, search]
  cases items.findSome? defect? with
  | some defect => simp
  | none => simp

/-- The defect that is reported is that of the first item that has one. -/
theorem search_eq_error_iff : search defect? items = .error e ↔
    ∃ before item after, items = before ++ item :: after ∧
      (∀ earlier ∈ before, defect? earlier = none) ∧ defect? item = some e := by
  have found : search defect? items = .error e ↔ items.findSome? defect? = some e := by
    rw [search]
    cases items.findSome? defect? with
    | some defect => simp
    | none => simp
  rw [found, List.findSome?_eq_some_iff]
  simp only [and_comm]

end Search

/-! ## The checks as searches -/

/-- The defect of an object that lacks a field. -/
def absence? (members : Members) (code : ErrorCode) (owner : String) (place : Location)
    (field : String) : Option Defect :=
  if members.contains field then none else some (missing code owner field place)

/-- The defect of an object that has a field with another shape. -/
def misfit? (members : Members) (code : ErrorCode) (owner : String) (place : Location)
    (field : String × Shape) : Option Defect :=
  (misshapen? members field.1 field.2).map fun value =>
    wrongShape code (owner ++ " property '" ++ field.1 ++ "'") field.2 value
      (place.member field.1)

/-- Under a field stands nothing, or a value of its shape. -/
def Fits (members : Members) (field : String × Shape) : Prop :=
  ∀ value, members.get? field.1 = some value → field.2.accepts value

theorem present_eq_search (members : Members) (fields : List String) (code : ErrorCode)
    (owner : String) (place : Location) :
    present members fields code owner place =
      search (absence? members code owner place) fields := by
  induction fields with
  | nil => rfl
  | cons field fields ih =>
    by_cases h : members.contains field
    · rw [search_cons_of_none (by rw [absence?, if_pos h]), ← ih, present, present,
        List.find?_cons_of_neg (by simp [h])]
    · rw [search_cons_of_some (by rw [absence?, if_neg h]), present,
        List.find?_cons_of_pos (by simp [h])]

theorem shaped_eq_search (members : Members) (fields : List (String × Shape)) (code : ErrorCode)
    (owner : String) (place : Location) :
    shaped members fields code owner place = search (misfit? members code owner place) fields := by
  induction fields with
  | nil => rfl
  | cons field fields ih =>
    -- A field that is absent and one that fits are passed over alike, here and in the search.
    rw [shaped]
    cases h : misshapen? members field.1 field.2 with
    | some value => rw [search_cons_of_some (by rw [misfit?, h, Option.map_some])]
    | none => rw [search_cons_of_none (by rw [misfit?, h, Option.map_none]), ← ih]

variable {members members' : Members} {code : ErrorCode} {owner : String} {place : Location}
  {e : Defect}

section Presence

variable {field : String} {fields : List String}

theorem absence?_eq_none_iff :
    absence? members code owner place field = none ↔ field ∈ members.keys := by
  rw [← Members.contains_iff_mem_keys, absence?]
  split
  · next there => simp [there]
  · next absent => simp [absent]

theorem absence?_eq_some_iff : absence? members code owner place field = some e ↔
    field ∉ members.keys ∧ e = missing code owner field place := by
  rw [← Members.contains_iff_mem_keys, absence?]
  split
  · next there => simp [there]
  · next absent => simp [absent, eq_comm (a := e)]

theorem present_eq_ok_iff : present members fields code owner place = .ok () ↔
    ∀ field ∈ fields, field ∈ members.keys := by
  rw [present_eq_search, search_eq_ok_iff]
  simp only [absence?_eq_none_iff]

theorem present_eq_error_iff : present members fields code owner place = .error e ↔
    ∃ before field after, fields = before ++ field :: after ∧
      (∀ earlier ∈ before, earlier ∈ members.keys) ∧ field ∉ members.keys ∧
      e = missing code owner field place := by
  rw [present_eq_search, search_eq_error_iff]
  simp only [absence?_eq_none_iff, absence?_eq_some_iff]

theorem present_of_sameUnder (h : members.SameUnder fields members') :
    present members fields code owner place = present members' fields code owner place :=
  Contract.present_congr fun field listed => by
    rw [Members.contains, Members.contains, h.get?_eq listed]

end Presence

section Shapes

variable {field : String × Shape} {fields : List (String × Shape)}

/-- A field that is not there has no other shape. -/
theorem misfit?_eq_none_iff :
    misfit? members code owner place field = none ↔ Fits members field := by
  simp [misfit?, misshapen?, Fits]

theorem misfit?_eq_some_iff : misfit? members code owner place field = some e ↔
    ∃ value, members.get? field.1 = some value ∧ field.2.accepts value = false ∧
      e = wrongShape code (owner ++ " property '" ++ field.1 ++ "'") field.2 value
        (place.member field.1) := by
  rw [misfit?, Option.map_eq_some_iff]
  simp [misshapen?, Option.filter_eq_some_iff, and_assoc, eq_comm (b := e)]

theorem shaped_eq_ok_iff : shaped members fields code owner place = .ok () ↔
    ∀ field ∈ fields, Fits members field := by
  rw [shaped_eq_search, search_eq_ok_iff]
  simp only [misfit?_eq_none_iff]

theorem shaped_eq_error_iff : shaped members fields code owner place = .error e ↔
    ∃ before field shape after value, fields = before ++ (field, shape) :: after ∧
      (∀ earlier ∈ before, Fits members earlier) ∧ members.get? field = some value ∧
      shape.accepts value = false ∧
      e = wrongShape code (owner ++ " property '" ++ field ++ "'") shape value
        (place.member field) := by
  rw [shaped_eq_search, search_eq_error_iff]
  simp only [misfit?_eq_none_iff, misfit?_eq_some_iff, Prod.exists, exists_and_left]

theorem shaped_of_sameUnder (h : members.SameUnder (fields.map (·.1)) members') :
    shaped members fields code owner place = shaped members' fields code owner place :=
  Contract.shaped_congr fun field listed => by
    rw [h.get?_eq (List.mem_map_of_mem listed)]
    exact rel_self (fun value => Eq.refl value.kind) _

end Shapes

/-! ## What is reported -/

/-- A check over a list passes if no field of the list offends, and otherwise reports the first one
that does, at its place and with what was found there. A field that is not there is passed over by
the check of shapes. Further members of the object and the order of its members make no
difference. -/
theorem first_offender_reported (members : Members) (code : ErrorCode) (owner : String)
    (place : Location) :
    (∀ fields : List String,
      (present members fields code owner place = .ok () ↔
        ∀ field ∈ fields, field ∈ members.keys) ∧
      (∀ e, present members fields code owner place = .error e ↔
        ∃ before field after, fields = before ++ field :: after ∧
          (∀ earlier ∈ before, earlier ∈ members.keys) ∧ field ∉ members.keys ∧
          e = missing code owner field place ∧ e.path = place.path ++ "." ++ field ∧
          e.violation = ⟨"required_field", field ++ " to be present", "missing"⟩) ∧
      ∀ members', members.SameUnder fields members' →
        present members fields code owner place = present members' fields code owner place) ∧
    ∀ fields : List (String × Shape),
      (shaped members fields code owner place = .ok () ↔
        ∀ field ∈ fields, Fits members field) ∧
      (∀ e, shaped members fields code owner place = .error e ↔
        ∃ before field shape after value, fields = before ++ (field, shape) :: after ∧
          (∀ earlier ∈ before, Fits members earlier) ∧ members.get? field = some value ∧
          shape.accepts value = false ∧
          e = wrongShape code (owner ++ " property '" ++ field ++ "'") shape value
            (place.member field) ∧
          e.path = place.path ++ "." ++ field ∧
          e.violation = ⟨"value_shape", shape.name, value.kind.name⟩ ∧
          e.violation.expected ≠ e.violation.actual) ∧
      ∀ members', members.SameUnder (fields.map (·.1)) members' →
        shaped members fields code owner place = shaped members' fields code owner place := by
  refine ⟨fun fields => ⟨present_eq_ok_iff, fun e => ?_, fun _ => present_of_sameUnder⟩,
    fun fields => ⟨shaped_eq_ok_iff, fun e => ?_, fun _ => shaped_of_sameUnder⟩⟩
  · rw [present_eq_error_iff]
    constructor
    · rintro ⟨before, field, after, split, there, absent, rfl⟩
      exact ⟨before, field, after, split, there, absent, rfl, rfl, rfl⟩
    · rintro ⟨before, field, after, split, there, absent, reported, -⟩
      exact ⟨before, field, after, split, there, absent, reported⟩
  · rw [shaped_eq_error_iff]
    constructor
    · rintro ⟨before, field, shape, after, value, split, fit, found, other, rfl⟩
      exact ⟨before, field, shape, after, value, split, fit, found, other, rfl, rfl, rfl,
        Shape.name_ne_of_not_accepts other⟩
    · rintro ⟨before, field, shape, after, value, split, fit, found, other, reported, -⟩
      exact ⟨before, field, shape, after, value, split, fit, found, other, reported⟩

/-- Settings with two members of other shapes and a further key. -/
def looseSettings : Members := [("required", .bool true), ("note", .null), ("properties", .null)]

/-- The settings in another order and with another further key. -/
def looseSettingsShuffled : Members :=
  [("properties", .null), ("required", .bool true), ("label", .array [])]

theorem sameUnder_looseSettings_names :
    looseSettings.SameUnder ["required", "required", "title", "type"] looseSettingsShuffled where
  distinct := by decide
  perm := .refl _

theorem sameUnder_looseSettings_shapes :
    looseSettings.SameUnder ["title", "properties", "required"] looseSettingsShuffled where
  distinct := by decide
  perm := .swap ..

/-- A field that is listed twice and one that is absent stand before the offenders. -/
theorem first_offender_reported_looseSettings :
    looseSettings.SameUnder ["required", "required", "title", "type"] looseSettingsShuffled ∧
      looseSettings.SameUnder ["title", "properties", "required"] looseSettingsShuffled ∧
      present looseSettingsShuffled ["required", "required", "title", "type"]
          .settingsPropertyMissing "settings" .root =
        .error ⟨.settingsPropertyMissing, "Required settings property 'title' is missing",
          "$.title", ⟨"required_field", "title to be present", "missing"⟩⟩ ∧
      shaped looseSettingsShuffled
          [("title", .string), ("properties", .object), ("required", .array)]
          .settingsPropertyWrongType "settings" .root =
        .error ⟨.settingsPropertyWrongType,
          "Expected settings property 'properties' to be an object, found null",
          "$.properties", ⟨"value_shape", "object", "null"⟩⟩ := by
  obtain ⟨presence, -⟩ :=
    first_offender_reported looseSettings .settingsPropertyMissing "settings" .root
  obtain ⟨-, shapes⟩ :=
    first_offender_reported looseSettings .settingsPropertyWrongType "settings" .root
  obtain ⟨-, missing, seen⟩ := presence ["required", "required", "title", "type"]
  obtain ⟨-, misshapen, seenShapes⟩ :=
    shapes [("title", .string), ("properties", .object), ("required", .array)]
  refine ⟨sameUnder_looseSettings_names, sameUnder_looseSettings_shapes, ?_, ?_⟩
  · rw [← seen _ sameUnder_looseSettings_names, missing]
    exact ⟨["required", "required"], "title", ["type"], rfl, by decide, by decide, rfl, rfl, rfl⟩
  · rw [← seenShapes _ sameUnder_looseSettings_shapes, misshapen]
    refine ⟨[("title", .string)], "properties", .object, [("required", .array)], .null, rfl, ?_,
      rfl, rfl, rfl, rfl, rfl, by decide⟩
    intro earlier here value found
    rw [List.mem_singleton.1 here] at found
    cases found

end Check

end ServiceContract
