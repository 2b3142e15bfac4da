import ServiceContract.Summary
import ServiceContract.Proofs.Contract.Fault

/-!
# Scopes as sets of keys

All that a check and a listing look at are the members in scope (`Scope.select`), so a scope counts
only as the set of the keys of a document that it includes. A narrower scope accepts what a wider
one accepts; and where it still includes the group that the wider one stopped at, it stops there
with the same defect, for the groups before that one are in order under either scope
(`FirstFault.narrow`).
-/

namespace ServiceContract

/-- The keys of a document, where it is an object. -/
def Json.keys (document : Json) : List String := document.members?.elim [] Members.keys

@[simp] theorem Json.keys_object (members : Members) : (Json.object members).keys = members.keys :=
  rfl

namespace Scope

@[simp] theorem includes_all (key : String) : Scope.all.includes key = true := rfl

@[simp] theorem includes_only (groups : List String) (key : String) :
    (Scope.only groups).includes key = groups.contains key := rfl

/-- The members in scope. -/
def select (scope : Scope) (members : Members) : Members :=
  members.filter fun member => scope.includes member.1

variable {scope a b : Scope} {key : String} {value : Json} {members : Members}

theorem select_cons_of_includes (h : scope.includes key) :
    scope.select ((key, value) :: members) = (key, value) :: scope.select members :=
  List.filter_cons_of_pos h

theorem select_cons_of_not_includes (h : ¬scope.includes key) :
    scope.select ((key, value) :: members) = scope.select members :=
  List.filter_cons_of_neg h

theorem select_append (scope : Scope) (before after : Members) :
    scope.select (before ++ after) = scope.select before ++ scope.select after :=
  List.filter_append ..

theorem select_congr (h : ∀ key ∈ members.keys, a.includes key = b.includes key) :
    a.select members = b.select members :=
  List.filter_congr fun _ hm => h _ (List.mem_map_of_mem hm)

end Scope

namespace Contract

variable {scope a b : Scope} {place : Location} {document : Json}

/-- The walk goes through the members in scope. -/
theorem checkGroups_eq_select (scope : Scope) (place : Location) (members : Members) :
    checkGroups scope place members = checkGroups .all place (scope.select members) := by
  induction members with
  | nil => rfl
  | cons member members ih =>
    obtain ⟨key, value⟩ := member
    by_cases h : scope.includes key
    · rw [Scope.select_cons_of_includes h, checkGroups_cons_of_includes h, ih,
        checkGroups_cons_of_includes (Scope.includes_all key)]
    · rw [Scope.select_cons_of_not_includes h, checkGroups_cons_of_not_includes h, ih]

theorem checkDocument_congr_scope
    (h : ∀ key ∈ document.keys, a.includes key = b.includes key) :
    checkDocument a document place = checkDocument b document place := by
  cases document with
  | object members =>
    show checkGroups a place members = checkGroups b place members
    rw [checkGroups_eq_select a, checkGroups_eq_select b, Scope.select_congr h]
  | _ => rfl

theorem ofDocument_congr_scope (h : ∀ key ∈ document.keys, a.includes key = b.includes key) :
    ServiceSummary.ofDocument a document = ServiceSummary.ofDocument b document := by
  cases document with
  | object members => exact congrArg (List.flatMap _) (Scope.select_congr h)
  | _ => rfl

/-- Scopes that include the same keys of a document are the same to it. -/
theorem check_summarize_congr_scope
    (h : ∀ key ∈ document.keys, a.includes key = b.includes key) :
    check a document = check b document ∧ summarize a document = summarize b document := by
  have hcheck : check a document = check b document := checkDocument_congr_scope h
  exact ⟨hcheck, by rw [summarize, summarize, hcheck, ofDocument_congr_scope h]⟩

/-! ## Narrower scopes -/

theorem IsDocument.narrow (h : ∀ key ∈ document.keys, b.includes key → a.includes key)
    (conforms : IsDocument a document) : IsDocument b document := by
  obtain ⟨conform⟩ := conforms
  exact .intro fun member hm hb => conform member hm (h _ (List.mem_map_of_mem hm) hb)

/-- The key of the group that a fault is in. -/
def Fault.group? : Fault → Option String
  | .document _ => none
  | .group key _ => some key
  | .entry key _ _ _ => some key

/-- What comes first in a scope comes first in a narrower one that still includes its group. -/
theorem FirstFault.narrow {fault : Fault}
    (h : ∀ key ∈ document.keys, b.includes key → a.includes key)
    (first : FirstFault a document fault) (kept : ∀ group ∈ fault.group?, b.includes group) :
    FirstFault b document fault := by
  cases first with
  | document notObject => exact .document notObject
  | group inOrder _ notArray =>
    refine .group (fun member hm hb => inOrder member hm ?_) (kept _ rfl) notArray
    exact h _ (List.mem_map_of_mem (List.mem_append_left _ hm)) hb
  | entry inOrder _ conform split keeps breaks =>
    refine .entry (fun member hm hb => inOrder member hm ?_) (kept _ rfl) conform split keeps breaks
    exact h _ (List.mem_map_of_mem (List.mem_append_left _ hm)) hb

theorem isDocument_only_append_iff {xs ys : List String} :
    IsDocument (.only (xs ++ ys)) document ↔
      IsDocument (.only xs) document ∧ IsDocument (.only ys) document := by
  constructor
  · intro conforms
    exact ⟨conforms.narrow fun key _ => by simp +contextual,
      conforms.narrow fun key _ => by simp +contextual⟩
  · rintro ⟨⟨hx⟩, hy⟩
    cases hy with
    | intro hy =>
      refine .intro fun member hm hin => ?_
      simp only [Scope.includes_only, List.contains_append, Bool.or_eq_true] at hin
      exact hin.elim (hx member hm) (hy member hm)

/-- A scope counts as the set of the keys that it includes, and narrowing it makes up no defect and
moves none. -/
theorem scope_is_set (document : Json) :
    -- Scopes that include the same keys of the document give the same verdict and listing,
    (∀ a b : Scope, (∀ key ∈ document.keys, a.includes key = b.includes key) →
      check a document = check b document ∧ summarize a document = summarize b document) ∧
    -- so order, repetition and names from elsewhere do not matter,
    (∀ xs ys : List String, (∀ key ∈ document.keys, key ∈ xs ↔ key ∈ ys) →
      check (.only xs) document = check (.only ys) document ∧
        summarize (.only xs) document = summarize (.only ys) document) ∧
    -- and every key is as good as the list of all keys.
    (check .all document = check (.only document.keys) document ∧
      summarize .all document = summarize (.only document.keys) document) ∧
    -- A narrower scope keeps acceptance, and the defect where it keeps its group.
    (∀ a b : Scope, (∀ key ∈ document.keys, b.includes key → a.includes key) →
      (check a document = .ok () → check b document = .ok ()) ∧
      ∀ e fault group, check a document = .error e → FirstFault a document fault →
        fault.group? = some group → b.includes group → check b document = .error e) ∧
    -- Two lists of groups together accept what each of them accepts.
    ∀ xs ys : List String, check (.only (xs ++ ys)) document = .ok () ↔
      check (.only xs) document = .ok () ∧ check (.only ys) document = .ok () := by
  refine ⟨fun a b h => check_summarize_congr_scope h,
    fun xs ys h => check_summarize_congr_scope fun key hk => ?_,
    check_summarize_congr_scope fun key hk => ?_, fun a b h => ⟨fun accepted => ?_, ?_⟩,
    fun xs ys => ?_⟩
  · rw [Bool.eq_iff_iff]
    simpa using h key hk
  · simpa using hk
  · exact checkDocument_eq_ok_iff.2 ((checkDocument_eq_ok_iff.1 accepted).narrow h)
  · intro e fault group rejected first hgroup kept
    obtain rfl : e = fault.defect .root := Except.error.inj
      (rejected.symm.trans (checkDocument_eq_error_iff.2 ⟨fault, first, rfl⟩))
    refine checkDocument_eq_error_iff.2 ⟨fault, first.narrow h ?_, rfl⟩
    rw [hgroup]
    rintro _ ⟨⟩
    exact kept
  · simp only [check, checkDocument_eq_ok_iff]
    exact isDocument_only_append_iff

/-- The second group is broken, and so is the third. -/
def brokenGroups : Json := .object [("sms", .array []), ("fax", .null), ("post", .bool true)]

theorem firstFault_brokenGroups :
    FirstFault .all brokenGroups (.group "fax" .null) := by
  show FirstFault .all (.object ([("sms", .array [])] ++ _ :: _)) _
  refine .group (fun member hm _ => ?_) rfl nofun
  obtain rfl := List.mem_singleton.1 hm
  exact .intro (by simp)

theorem scope_is_set_brokenGroups :
    ((∀ key ∈ brokenGroups.keys,
        (Scope.only ["fax", "none", "fax"]).includes key = (Scope.only ["fax"]).includes key) ∧
      check (.only ["fax", "none", "fax"]) brokenGroups = check (.only ["fax"]) brokenGroups) ∧
    ((∀ key ∈ brokenGroups.keys,
        (Scope.only ["post", "fax"]).includes key → Scope.all.includes key) ∧
      check .all brokenGroups = .error ((Fault.group "fax" .null).defect .root) ∧
      FirstFault .all brokenGroups (.group "fax" .null) ∧
      (Scope.only ["post", "fax"]).includes "fax" ∧
      check (.only ["post", "fax"]) brokenGroups =
        .error ((Fault.group "fax" .null).defect .root)) := by
  obtain ⟨same, -, -, narrower, -⟩ := scope_is_set brokenGroups
  have rejected : check .all brokenGroups = .error ((Fault.group "fax" .null).defect .root) := by
    rfl
  exact ⟨⟨by decide, (same _ _ (by decide)).1⟩, by decide, rejected, firstFault_brokenGroups,
    by decide, (narrower _ _ (by decide)).2 _ _ _ rejected firstFault_brokenGroups rfl (by decide)⟩

end Contract

end ServiceContract
