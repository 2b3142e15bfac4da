import ServiceContract.Proofs.Contract.Rule

/-!
# Documents that keep the contract

The grammar of services documents, stated without the check: what an entry, a group and a document
have to be. A document passes exactly when it conforms (`checkDocument_eq_ok_iff`); other members,
further keys and the contents of texts and lists do not matter.
-/

namespace ServiceContract

theorem Members.contains_iff_mem_keys {members : Members} {key : String} :
    members.contains key ↔ key ∈ members.keys := by
  rw [contains, get?, List.lookup_isSome_iff, keys, List.mem_map]
  exact exists_congr fun m => and_congr_right fun _ => by rw [beq_iff_eq, eq_comm]

namespace Contract

/-- An object with the keys `enabled` and `title`. -/
inductive IsProperties : Json → Prop
  | intro {members : Members} (enabled : "enabled" ∈ members.keys)
      (title : "title" ∈ members.keys) : IsProperties (.object members)

/-- A settings schema. The text of `type` and the items of `required` may be any. -/
inductive IsSettings : Json → Prop
  | intro {members : Members} {type : String} {required : List Json} {properties : Json}
      (hasType : members.get? "type" = some (.string type))
      (hasRequired : members.get? "required" = some (.array required))
      (hasProperties : members.get? "properties" = some properties)
      (conforms : IsProperties properties) : IsSettings (.object members)

/-- An entry of a service group. -/
inductive IsService : Json → Prop
  | intro {members : Members} {id description title : String} {settings : Json}
      (hasId : members.get? "id" = some (.string id))
      (hasDescription : members.get? "method_description" = some (.string description))
      (hasTitle : members.get? "method_title" = some (.string title))
      (hasSettings : members.get? "service_settings" = some settings)
      (conforms : IsSettings settings) : IsService (.object members)

/-- An array of entries. -/
inductive IsGroup : Json → Prop
  | intro {entries : List Json} (conform : ∀ entry ∈ entries, IsService entry) :
      IsGroup (.array entries)

/-- An object whose keys in scope hold service groups. -/
inductive IsDocument (scope : Scope) : Json → Prop
  | intro {members : Members}
      (conform : ∀ member ∈ members, scope.includes member.1 → IsGroup member.2) :
      IsDocument scope (.object members)

/-! ## Conforming values keep the rules -/

theorem isProperties_iff {value : Json} :
    IsProperties value ↔ ∀ r ∈ propertiesRules, r.holds value := by
  simp only [propertiesRules, List.map_cons, List.map_nil, List.forall_mem_cons, object_holds_iff]
  constructor
  · rintro @⟨members, enabled, title⟩
    exact ⟨⟨members, rfl⟩, Members.contains_iff_mem_keys.2 enabled,
      Members.contains_iff_mem_keys.2 title, by simp⟩
  · rintro ⟨⟨members, rfl⟩, enabled, title, -⟩
    exact ⟨Members.contains_iff_mem_keys.1 enabled, Members.contains_iff_mem_keys.1 title⟩

theorem isSettings_iff {value : Json} : IsSettings value ↔ ∀ r ∈ settingsRules, r.holds value := by
  simp only [settingsRules, List.map_cons, List.map_nil, List.cons_append, List.nil_append,
    List.forall_mem_cons, object_holds_iff]
  constructor
  · rintro @⟨members, _, _, _, hasType, hasRequired, hasProperties, conforms⟩
    exact ⟨⟨members, rfl⟩, member_holds_iff.2 ⟨_, hasType⟩, member_holds_iff.2 ⟨_, hasRequired⟩,
      member_holds_iff.2 ⟨_, hasProperties⟩, shape_holds_iff.2 ⟨_, hasType, rfl⟩,
      shape_holds_iff.2 ⟨_, hasRequired, rfl⟩,
      (forall_holds_under hasProperties).2 (isProperties_iff.1 conforms)⟩
  · rintro ⟨⟨members, rfl⟩, -, -, hasProperties, hasType, hasRequired, h⟩
    obtain ⟨properties, hasProperties⟩ := member_holds_iff.1 hasProperties
    obtain ⟨_, hasType, text⟩ := shape_holds_iff.1 hasType
    obtain ⟨_, hasRequired, array⟩ := shape_holds_iff.1 hasRequired
    obtain ⟨_, rfl⟩ := Shape.accepts_iff.1 text
    obtain ⟨_, rfl⟩ := Shape.accepts_iff.1 array
    exact ⟨hasType, hasRequired, hasProperties,
      isProperties_iff.2 ((forall_holds_under hasProperties).1 h)⟩

theorem isService_iff {value : Json} : IsService value ↔ ∀ r ∈ serviceRules, r.holds value := by
  simp only [serviceRules, List.map_cons, List.map_nil, List.cons_append, List.nil_append,
    List.forall_mem_cons, object_holds_iff]
  constructor
  · rintro @⟨members, _, _, _, _, hasId, hasDescription, hasTitle, hasSettings, conforms⟩
    exact ⟨⟨members, rfl⟩, member_holds_iff.2 ⟨_, hasId⟩, member_holds_iff.2 ⟨_, hasDescription⟩,
      member_holds_iff.2 ⟨_, hasTitle⟩, member_holds_iff.2 ⟨_, hasSettings⟩,
      shape_holds_iff.2 ⟨_, hasId, rfl⟩, shape_holds_iff.2 ⟨_, hasDescription, rfl⟩,
      shape_holds_iff.2 ⟨_, hasTitle, rfl⟩,
      (forall_holds_under hasSettings).2 (isSettings_iff.1 conforms)⟩
  · rintro ⟨⟨members, rfl⟩, -, -, -, hasSettings, hasId, hasDescription, hasTitle, h⟩
    obtain ⟨settings, hasSettings⟩ := member_holds_iff.1 hasSettings
    obtain ⟨_, hasId, text⟩ := shape_holds_iff.1 hasId
    obtain ⟨_, rfl⟩ := Shape.accepts_iff.1 text
    obtain ⟨_, hasDescription, text⟩ := shape_holds_iff.1 hasDescription
    obtain ⟨_, rfl⟩ := Shape.accepts_iff.1 text
    obtain ⟨_, hasTitle, text⟩ := shape_holds_iff.1 hasTitle
    obtain ⟨_, rfl⟩ := Shape.accepts_iff.1 text
    exact ⟨hasId, hasDescription, hasTitle, hasSettings,
      isSettings_iff.2 ((forall_holds_under hasSettings).1 h)⟩

/-! ## Passing the check -/

theorem seq_eq_ok_iff {x y : Except Defect Unit} :
    (do x; y) = .ok () ↔ x = .ok () ∧ y = .ok () := by
  rcases x with e | ⟨⟩
  · exact ⟨nofun, nofun⟩
  · exact ⟨fun h => ⟨rfl, h⟩, fun h => h.2⟩

variable {scope : Scope} {place : Location}

theorem checkService_eq_ok_iff {entry : Json} :
    checkService entry place = .ok () ↔ IsService entry := by
  rw [checkService_eq, enforce_eq_ok_iff, isService_iff]

theorem checkEntries_eq_ok_iff {index : Nat} {entries : List Json} :
    checkEntries place index entries = .ok () ↔ ∀ entry ∈ entries, IsService entry := by
  induction entries generalizing index with
  | nil => simp [checkEntries]
  | cons entry entries ih =>
    rw [checkEntries, seq_eq_ok_iff, checkService_eq_ok_iff, ih, List.forall_mem_cons]

theorem checkGroup_eq_ok_iff {key : String} {value : Json} :
    checkGroup key value place = .ok () ↔ IsGroup value := by
  cases value with
  | array entries =>
    refine checkEntries_eq_ok_iff.trans ⟨.intro, ?_⟩
    rintro ⟨conform⟩
    exact conform
  | _ => exact ⟨nofun, nofun⟩

theorem checkGroups_cons_of_includes {key : String} {value : Json} {members : Members}
    (h : scope.includes key) : checkGroups scope place ((key, value) :: members) =
      (do checkGroup key value (place.member key); checkGroups scope place members) := by
  rw [checkGroups, if_pos h]

theorem checkGroups_cons_of_not_includes {key : String} {value : Json} {members : Members}
    (h : ¬ scope.includes key) : checkGroups scope place ((key, value) :: members) =
      checkGroups scope place members := by
  rw [checkGroups, if_neg h]

theorem checkGroups_eq_ok_iff {members : Members} :
    checkGroups scope place members = .ok () ↔
      ∀ member ∈ members, scope.includes member.1 → IsGroup member.2 := by
  induction members with
  | nil => simp [checkGroups]
  | cons member members ih =>
    obtain ⟨key, value⟩ := member
    rw [List.forall_mem_cons]
    by_cases h : scope.includes key
    · rw [checkGroups_cons_of_includes h, seq_eq_ok_iff, checkGroup_eq_ok_iff, ih]
      simp [h]
    · rw [checkGroups_cons_of_not_includes h, ih]
      simp [h]

theorem checkDocument_eq_ok_iff {document : Json} :
    checkDocument scope document place = .ok () ↔ IsDocument scope document := by
  cases document with
  | object members =>
    refine checkGroups_eq_ok_iff.trans ⟨.intro, ?_⟩
    rintro ⟨conform⟩
    exact conform
  | _ => exact ⟨nofun, nofun⟩

/-- A document passes exactly when it conforms, wherever it stands. -/
theorem passes_iff_conforms (scope : Scope) (document : Json) :
    (∀ place, checkDocument scope document place = .ok () ↔ IsDocument scope document) ∧
      (check scope document = .ok () ↔ IsDocument scope document) :=
  ⟨fun _ => checkDocument_eq_ok_iff, checkDocument_eq_ok_iff⟩

end Contract

end ServiceContract
