import ServiceContract.Proofs.Contract.Conformance

/-!
# The first fault of a document

The walk through a document meets its groups in document order, the entries of a group in array
order and the rules for an entry in the order of `serviceRules`. `FirstFault` says what the walk
meets first that is not as it should be, everything before it being in order. A rejected document is
rejected for its first fault, with the defect of that fault (`checkDocument_eq_error_iff`).
-/

namespace ServiceContract.Contract

/-- Something that a document can be rejected for. -/
inductive Fault where
  /-- The document is no object. -/
  | document (value : Json)
  /-- The value of a group is no array. -/
  | group (key : String) (value : Json)
  /-- An entry of a group breaks a rule. -/
  | entry (key : String) (index : Nat) (value : Json) (rule : Rule)

namespace Fault

def code : Fault → ErrorCode
  | document _ => .documentNotObject
  | group .. => .groupNotArray
  | entry _ _ _ rule => rule.code

/-- The defect of a document at a place that has the fault. -/
def defect (place : Location) : Fault → Defect
  | document value => Check.wrongShape .documentNotObject "the services document" .object value place
  | group key value =>
    Check.wrongShape .groupNotArray ("service group '" ++ key ++ "'") .array value
      (place.member key)
  | entry key index value rule => rule.defect value ((place.member key).item index)

/-- The steps from the document to the place of the defect. -/
def steps : Fault → List Step
  | document _ => []
  | group key _ => [.member key]
  | entry key index _ rule => .member key :: .item index :: rule.steps

theorem code_defect (place : Location) (fault : Fault) :
    (fault.defect place).code = fault.code := by
  cases fault with
  | entry => exact Rule.code_defect ..
  | _ => rfl

theorem path_defect (place : Location) (fault : Fault) :
    (fault.defect place).path = (place.follow fault.steps).path := by
  cases fault with
  | entry => exact Rule.path_defect ..
  | _ => rfl

end Fault

/-- The first fault that the walk through a document meets. -/
inductive FirstFault (scope : Scope) : Json → Fault → Prop
  | document {value : Json} (notObject : value.kind ≠ .object) :
      FirstFault scope value (.document value)
  | group {before after : Members} {key : String} {value : Json}
      (inOrder : ∀ member ∈ before, scope.includes member.1 → IsGroup member.2)
      (inScope : scope.includes key) (notArray : value.kind ≠ .array) :
      FirstFault scope (.object (before ++ (key, value) :: after)) (.group key value)
  | entry {before after : Members} {key : String} {passed later : List Json} {entry : Json}
      {kept rest : List Rule} {rule : Rule}
      (inOrder : ∀ member ∈ before, scope.includes member.1 → IsGroup member.2)
      (inScope : scope.includes key) (conform : ∀ entry ∈ passed, IsService entry)
      (split : serviceRules = kept ++ rule :: rest) (keeps : ∀ r ∈ kept, r.holds entry)
      (breaks : rule.holds entry = false) :
      FirstFault scope (.object (before ++ (key, .array (passed ++ entry :: later)) :: after))
        (.entry key passed.length entry rule)

/-! ## Failing the check -/

theorem seq_eq_error_iff {x y : Except Defect Unit} {e : Defect} :
    (do x; y) = .error e ↔ x = .error e ∨ x = .ok () ∧ y = .error e := by
  rcases x with d | ⟨⟩
  · exact ⟨.inl, fun h => h.elim id nofun⟩
  · exact ⟨fun h => .inr ⟨rfl, h⟩, fun h => h.elim nofun (·.2)⟩

/-- An item of a list that stands after good ones is the first item, or the first one is good. -/
theorem exists_split_cons {α : Type} {good : α → Prop} {P : List α → α → Prop} {first : α}
    {list : List α} :
    (∃ before x after, first :: list = before ++ x :: after ∧ (∀ y ∈ before, good y) ∧
        P before x) ↔
      P [] first ∨ good first ∧ ∃ before x after, list = before ++ x :: after ∧
        (∀ y ∈ before, good y) ∧ P (first :: before) x := by
  constructor
  · rintro ⟨before, x, after, hsplit, hgood, hx⟩
    cases before with
    | nil =>
      obtain ⟨rfl, -⟩ := List.cons.inj hsplit
      exact .inl hx
    | cons y before =>
      obtain ⟨rfl, htail⟩ := List.cons.inj hsplit
      obtain ⟨hfirst, hgood⟩ := List.forall_mem_cons.1 hgood
      exact .inr ⟨hfirst, before, x, after, htail, hgood, hx⟩
  · rintro (hx | ⟨hfirst, before, x, after, hsplit, hgood, hx⟩)
    · exact ⟨[], first, list, rfl, by simp, hx⟩
    · exact ⟨first :: before, x, after, by rw [hsplit]; rfl,
        List.forall_mem_cons.2 ⟨hfirst, hgood⟩, hx⟩

variable {scope : Scope} {place : Location} {e : Defect}

theorem checkEntries_eq_error_iff {index : Nat} {entries : List Json} :
    checkEntries place index entries = .error e ↔
      ∃ passed entry later, entries = passed ++ entry :: later ∧
        (∀ entry ∈ passed, IsService entry) ∧
        checkService entry (place.item (index + passed.length)) = .error e := by
  induction entries generalizing index with
  | nil => simp [checkEntries]
  | cons first entries ih =>
    have shift (passed : List Json) :
        index + (first :: passed).length = index + 1 + passed.length := by
      rw [List.length_cons]; omega
    rw [checkEntries, seq_eq_error_iff, checkService_eq_ok_iff, ih, exists_split_cons]
    simp only [shift, List.length_nil, Nat.add_zero]

theorem checkGroups_eq_error_iff {members : Members} :
    checkGroups scope place members = .error e ↔
      ∃ before member after, members = before ++ member :: after ∧
        (∀ member ∈ before, scope.includes member.1 → IsGroup member.2) ∧
        scope.includes member.1 ∧ checkGroup member.1 member.2 (place.member member.1) = .error e := by
  induction members with
  | nil => simp [checkGroups]
  | cons first members ih =>
    obtain ⟨key, value⟩ := first
    rw [exists_split_cons]
    by_cases h : scope.includes key
    · rw [checkGroups_cons_of_includes h, seq_eq_error_iff, checkGroup_eq_ok_iff, ih]
      simp [h]
    · rw [checkGroups_cons_of_not_includes h, ih]
      simp [h]

theorem checkService_eq_error_iff {entry : Json} :
    checkService entry place = .error e ↔
      ∃ kept rule rest, serviceRules = kept ++ rule :: rest ∧ (∀ r ∈ kept, r.holds entry) ∧
        rule.holds entry = false ∧ e = rule.defect entry place := by
  rw [checkService_eq, enforce_eq_error_iff]

/-- A document is rejected for its first fault, with the defect of that fault. -/
theorem checkDocument_eq_error_iff {document : Json} :
    checkDocument scope document place = .error e ↔
      ∃ fault, FirstFault scope document fault ∧ e = fault.defect place := by
  constructor
  · intro h
    cases document with
    | object members =>
      obtain ⟨before, ⟨key, value⟩, after, rfl, inOrder, inScope, h⟩ := checkGroups_eq_error_iff.1 h
      cases value with
      | array entries =>
        obtain ⟨passed, entry, later, rfl, conform, h⟩ := checkEntries_eq_error_iff.1 h
        obtain ⟨kept, rule, rest, split, keeps, breaks, rfl⟩ := checkService_eq_error_iff.1 h
        refine ⟨_, .entry inOrder inScope conform split keeps breaks, ?_⟩
        rw [Nat.zero_add]; rfl
      | _ => exact ⟨_, .group inOrder inScope nofun, (Except.error.inj h).symm⟩
    | _ => exact ⟨_, .document nofun, (Except.error.inj h).symm⟩
  · rintro ⟨fault, h, rfl⟩
    cases h with
    | document notObject =>
      cases document with
      | object members => exact absurd rfl notObject
      | _ => rfl
    | group inOrder inScope notArray =>
      refine checkGroups_eq_error_iff.2 ⟨_, _, _, rfl, inOrder, inScope, ?_⟩
      dsimp only
      rename_i value
      cases value with
      | array entries => exact absurd rfl notArray
      | _ => rfl
    | entry inOrder inScope conform split keeps breaks =>
      refine checkGroups_eq_error_iff.2 ⟨_, _, _, rfl, inOrder, inScope, ?_⟩
      refine checkEntries_eq_error_iff.2 ⟨_, _, _, rfl, conform, ?_⟩
      refine checkService_eq_error_iff.2 ⟨_, _, _, split, keeps, breaks, ?_⟩
      rw [Nat.zero_add]; rfl

/-- The reported defect is the earliest one of the walk, with its code and at its place. -/
theorem rejected_iff_firstFault (scope : Scope) (document : Json) (place : Location) (e : Defect) :
    checkDocument scope document place = .error e ↔
      ∃ fault, FirstFault scope document fault ∧ e = fault.defect place ∧ e.code = fault.code ∧
        e.path = (place.follow fault.steps).path := by
  rw [checkDocument_eq_error_iff]
  refine exists_congr fun fault => and_congr_right fun _ => ⟨?_, And.left⟩
  rintro rfl
  exact ⟨rfl, fault.code_defect place, fault.path_defect place⟩

end ServiceContract.Contract
