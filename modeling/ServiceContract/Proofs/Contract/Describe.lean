import ServiceContract.Proofs.Contract.Place

/-!
# What defects say

A reported defect is true of the document: the value at its place is there and has another kind than
the contract asks for, or the object around its place lacks the member at the end of the path
(`FirstFault.describes`). Together with its code, its path tells the place of the fault.
-/

namespace ServiceContract

/-- No key of an object repeats. -/
def Json.KeysDistinct (value : Json) : Prop :=
  ∀ members : Members, value = .object members → members.keys.Nodup

theorem Kind.name_injective {a b : Kind} (h : a.name = b.name) : a = b := by
  revert h
  cases a <;> cases b <;> decide

theorem Json.at?_append (value : Json) (steps more : List Step) :
    value.at? (steps ++ more) = (value.at? steps).bind (·.at? more) := by
  induction steps generalizing value with
  | nil => rfl
  | cons step steps ih =>
    cases step with
    | member key => cases h : value.get? key <;> simp [at?, h, ih]
    | item index => cases h : value.items?.bind (·[index]?) <;> simp [at?, h, ih]

theorem Shape.name_ne_of_not_accepts {shape : Shape} {value : Json}
    (h : shape.accepts value = false) : shape.name ≠ value.kind.name := fun heq => by
  rw [Shape.accepts, Kind.name_injective heq.symm, beq_self_eq_true] at h
  cases h

theorem Members.get?_of_distinct {before after : Members} {key : String} {value : Json}
    (distinct : (before ++ (key, value) :: after : Members).keys.Nodup) :
    Members.get? (before ++ (key, value) :: after) key = some value := by
  refine List.lookup_eq_some_iff.2 ⟨before, after, rfl, fun member hm => ?_⟩
  rw [bne_iff_ne]
  rintro rfl
  simp only [Members.keys, List.map_append, List.map_cons] at distinct
  exact (List.nodup_append.1 distinct).2.2 _ (List.mem_map_of_mem hm) _ List.mem_cons_self rfl

namespace Contract

/-! ## What the contract asks for at a place -/

/-- The shape of the value at some steps from an entry. -/
def shapeInEntry? : List Step → Option Shape
  | [] | [.member "service_settings"] => some .object
  | [.member "id"] | [.member "method_description"] | [.member "method_title"] => some .string
  | [.member "service_settings", .member "type"] => some .string
  | [.member "service_settings", .member "required"] => some .array
  | [.member "service_settings", .member "properties"] => some .object
  | _ => none

/-- The members of the value at some steps from an entry. -/
def membersInEntry : List Step → List String
  | [] => ["id", "method_description", "method_title", "service_settings"]
  | [.member "service_settings"] => ["type", "required", "properties"]
  | [.member "service_settings", .member "properties"] => ["enabled", "title"]
  | _ => []

/-- The shape that the contract asks for at a place of a document. -/
def shapeAt? : List Step → Option Shape
  | [] => some .object
  | [.member _] => some .array
  | .member _ :: .item _ :: steps => shapeInEntry? steps
  | _ => none

/-- The members that the contract asks for at a place of a document. -/
def membersAt : List Step → List String
  | .member _ :: .item _ :: steps => membersInEntry steps
  | _ => []

/-- A violation that is there, at some steps from the root of a document. -/
inductive Describes (document : Json) : List Step → Violation → Prop
  | shape {steps : List Step} {node : Json} {shape : Shape}
      (there : document.at? steps = some node) (asked : shapeAt? steps = some shape)
      (differs : shape.name ≠ node.kind.name) :
      Describes document steps ⟨"value_shape", shape.name, node.kind.name⟩
  | missing {steps : List Step} {members : Members} {field : String}
      (there : document.at? steps = some (.object members)) (asked : field ∈ membersAt steps)
      (absent : field ∉ members.keys) :
      Describes document (steps ++ [.member field])
        ⟨"required_field", field ++ " to be present", "missing"⟩

/-! ## The places of broken rules -/

theorem Rule.exists_at?_steps {r : Rule} {value : Json} (h : r.holds value) :
    ∃ target, value.at? r.steps = some target := by
  obtain ⟨code, route, demand⟩ := r
  obtain ⟨target, hroute, hdemand⟩ := (Option.any_eq_true ..).1 h
  cases demand with
  | shape => exact ⟨target, hroute⟩
  | member field =>
    obtain ⟨inner, hinner⟩ := Option.isSome_iff_exists.1 hdemand
    refine ⟨inner, ?_⟩
    rw [steps, Json.at?_append, hroute]
    simp [Json.at?, hinner]

/-- Whether a rule asks for an object. -/
def Rule.asksForObject (r : Rule) : Bool :=
  match r.demand with
  | .shape .object _ => true
  | _ => false

/-- Whether a list of rules before it makes sure that the place of a rule is there, and that it is
an object where a member is asked for. -/
def Rule.isReady (kept : List Rule) (r : Rule) : Bool :=
  match r.demand with
  | .shape .. => r.route.isEmpty || kept.any fun q => q.steps == r.route
  | .member .. => kept.any fun q => q.route == r.route && q.asksForObject

theorem isReady_serviceRules : ∀ i (h : i < serviceRules.length),
    serviceRules[i].isReady (serviceRules.take i) := by
  decide +kernel

theorem isReady_of_split {kept rest : List Rule} {rule : Rule}
    (split : serviceRules = kept ++ rule :: rest) : rule.isReady kept := by
  have h := isReady_serviceRules kept.length (by rw [split]; simp)
  simpa [split] using h

theorem Rule.exists_shape_target {r : Rule} {kept : List Rule} {value : Json} {shape : Shape}
    {what : String} (ready : r.isReady kept) (keeps : ∀ q ∈ kept, q.holds value)
    (hd : r.demand = .shape shape what) : ∃ target, value.at? r.route = some target := by
  simp only [isReady, hd, Bool.or_eq_true, List.isEmpty_iff, List.any_eq_true, beq_iff_eq] at ready
  rcases ready with hroute | ⟨q, hq, hsteps⟩
  · exact ⟨value, by rw [hroute]; rfl⟩
  · rw [← hsteps]
    exact exists_at?_steps (keeps q hq)

theorem Rule.exists_object_target {r : Rule} {kept : List Rule} {value : Json}
    {field owner : String} (ready : r.isReady kept) (keeps : ∀ q ∈ kept, q.holds value)
    (hd : r.demand = .member field owner) :
    ∃ members : Members, value.at? r.route = some (.object members) := by
  simp only [isReady, hd, List.any_eq_true, Bool.and_eq_true, beq_iff_eq] at ready
  obtain ⟨q, hq, hroute, hobject⟩ := ready
  have hholds := keeps q hq
  unfold asksForObject at hobject
  split at hobject
  · next hdemand =>
    simp only [holds, hdemand, hroute] at hholds
    obtain ⟨target, ht, hshape⟩ := (Option.any_eq_true ..).1 hholds
    obtain ⟨members, rfl⟩ := Shape.accepts_iff.1 hshape
    exact ⟨members, ht⟩
  · cases hobject

/-- What a rule asks for is what the contract asks for at its place. -/
theorem asked_of_mem_serviceRules : ∀ r ∈ serviceRules,
    (match r.demand with
      | .shape shape _ => shapeInEntry? r.route == some shape
      | .member field _ => (membersInEntry r.route).contains field) = true := by
  decide +kernel

/-- The first rule that an entry breaks describes the document around it. -/
theorem Rule.describes {kept rest : List Rule} {rule : Rule} {entry document : Json} {key : String}
    {index : Nat} (place : Location)
    (there : ∀ steps, document.at? (.member key :: .item index :: steps) = entry.at? steps)
    (split : serviceRules = kept ++ rule :: rest) (keeps : ∀ r ∈ kept, r.holds entry)
    (breaks : rule.holds entry = false) :
    Describes document (.member key :: .item index :: rule.steps)
      (rule.defect entry place).violation := by
  have asked := asked_of_mem_serviceRules rule (by rw [split]; simp)
  have ready := isReady_of_split split
  obtain ⟨code, route, demand⟩ := rule
  cases demand with
  | shape shape what =>
    obtain ⟨target, ht⟩ := Rule.exists_shape_target ready keeps rfl
    have hshape : shape.accepts target = false := by simpa [holds, ht] using breaks
    have hdefect : (Rule.defect ⟨code, route, .shape shape what⟩ entry place).violation =
        ⟨"value_shape", shape.name, target.kind.name⟩ := by simp [defect, ht, Check.wrongShape]
    rw [hdefect]
    exact .shape ((there route).trans ht) (beq_iff_eq.1 asked) (Shape.name_ne_of_not_accepts hshape)
  | member field owner =>
    obtain ⟨members, ht⟩ := Rule.exists_object_target ready keeps rfl
    have hget : members.get? field = none := by simpa [holds, ht] using breaks
    have absent : field ∉ members.keys := by
      rw [← Members.contains_iff_mem_keys, Members.contains, hget]
      exact Bool.false_ne_true
    exact .missing ((there route).trans ht) (List.contains_iff_mem.1 asked) absent

/-- The defect of the first fault describes the document. -/
theorem FirstFault.describes {scope : Scope} {document : Json} {fault : Fault}
    (distinct : document.KeysDistinct) (h : FirstFault scope document fault) :
    Describes document fault.steps (fault.defect .root).violation := by
  cases h with
  | document notObject =>
    exact .shape rfl rfl (Shape.name_ne_of_not_accepts (beq_false_of_ne notObject))
  | group _ _ notArray =>
    have hget := Members.get?_of_distinct (distinct _ rfl)
    exact .shape (by simp [Fault.steps, Json.at?, hget]) rfl
      (Shape.name_ne_of_not_accepts (beq_false_of_ne notArray))
  | entry _ _ _ split keeps breaks =>
    have hget := Members.get?_of_distinct (distinct _ rfl)
    refine Rule.describes _ (fun steps => ?_) split keeps breaks
    simp [Json.at?, hget, Json.items?]

/-- The defect of a rejected document is true of it, and with its code its path tells the place: any
check of any document that ends with that code and that path ended at the same place. -/
theorem rejection_tells_place {scope : Scope} {document : Json} {e : Defect}
    (distinct : document.KeysDistinct) (rejected : check scope document = .error e) :
    ∃ fault, FirstFault scope document fault ∧
      e.path = (Location.root.follow fault.steps).path ∧
      Describes document fault.steps e.violation ∧
      ∀ scope' document' e' fault', check scope' document' = .error e' →
        FirstFault scope' document' fault' → e'.code = e.code → e'.path = e.path →
        fault'.steps = fault.steps := by
  obtain ⟨fault, hfault, rfl⟩ := checkDocument_eq_error_iff.1 rejected
  refine ⟨fault, hfault, fault.path_defect _, hfault.describes distinct, ?_⟩
  intro scope' document' e' fault' rejected' hfault' hcode hpath
  obtain rfl : e' = fault'.defect .root := Except.error.inj
    (rejected'.symm.trans (checkDocument_eq_error_iff.2 ⟨fault', hfault', rfl⟩))
  rw [Fault.code_defect, Fault.code_defect] at hcode
  rw [Fault.path_defect, Fault.path_defect] at hpath
  exact Fault.steps_injective hfault'.isRuled hfault.isRuled hcode hpath

/-- A group has the key that the first entry of another group seems to have. -/
def bracketedKeys : Json := .object [("a[0]", .array []), ("a", .array [.null])]

def bracketedKeysDefect : Defect :=
  { code := .serviceNotObject
    message := "Expected service entry to be an object, found null"
    path := "$.a[0]"
    violation := ⟨"value_shape", "object", "null"⟩ }

theorem bracketedKeys_keysDistinct : bracketedKeys.KeysDistinct := by
  intro members h
  cases h
  decide

theorem rejection_tells_place_bracketedKeys :
    bracketedKeys.KeysDistinct ∧ check .all bracketedKeys = .error bracketedKeysDefect ∧
      ∃ fault, FirstFault .all bracketedKeys fault ∧
        bracketedKeysDefect.path = (Location.root.follow fault.steps).path ∧
        Describes bracketedKeys fault.steps bracketedKeysDefect.violation ∧
        ∀ scope' document' e' fault', check scope' document' = .error e' →
          FirstFault scope' document' fault' → e'.code = bracketedKeysDefect.code →
          e'.path = bracketedKeysDefect.path → fault'.steps = fault.steps :=
  ⟨bracketedKeys_keysDistinct, by rfl, rejection_tells_place bracketedKeys_keysDistinct (by rfl)⟩

/-- The path alone tells less: a group can have the path of an entry. -/
example : check .all (.object [("a[0]", .null)]) =
    .error
      { code := .groupNotArray
        message := "Expected service group 'a[0]' to be an array, found null"
        path := "$.a[0]"
        violation := ⟨"value_shape", "array", "null"⟩ } := by rfl

end Contract

end ServiceContract
