import ServiceContract.Proofs.Contract.Scope

/-!
# What a listing of services says

The listing of a document, stated without the walk that makes it: one summary for each entry of each
group in scope, in the order of the document, saying what the entry says (`Lists`). Nothing is
filled in, as a summary is asked for only where the texts and the properties are there. A document
is listed exactly when it passes its check, and is refused with the defect of the check
(`summarize_agrees`).
-/

namespace ServiceContract

namespace ServiceSummary

/-- A summary of the entry at a position of a group says what the entry says. -/
inductive Summarizes (group : String) (index : Nat) : Json → ServiceSummary → Prop
  | intro {members settings properties : Members} {id title : String}
      (hasId : members.get? "id" = some (.string id))
      (hasTitle : members.get? "method_title" = some (.string title))
      (hasSettings : members.get? "service_settings" = some (.object settings))
      (hasProperties : settings.get? "properties" = some (.object properties))
      (listsEnabled : "enabled" ∈ properties.keys) (listsTitle : "title" ∈ properties.keys) :
      Summarizes group index (.object members) ⟨group, index, id, title, properties.keys⟩

/-- One summary for each entry from a position on. -/
inductive ListsEntries (group : String) : (index : Nat) → List Json → List ServiceSummary → Prop
  | nil {index : Nat} : ListsEntries group index [] []
  | cons {index : Nat} {entry : Json} {entries : List Json} {s : ServiceSummary}
      {list : List ServiceSummary} (first : Summarizes group index entry s)
      (others : ListsEntries group (index + 1) entries list) :
      ListsEntries group index (entry :: entries) (s :: list)

/-- The groups in scope one after the other; what stands under other keys is passed over. -/
inductive ListsGroups (scope : Scope) : Members → List ServiceSummary → Prop
  | nil : ListsGroups scope [] []
  | passOver {key : String} {value : Json} {members : Members} {list : List ServiceSummary}
      (outOfScope : ¬scope.includes key) (others : ListsGroups scope members list) :
      ListsGroups scope ((key, value) :: members) list
  | group {key : String} {entries : List Json} {members : Members}
      {own list : List ServiceSummary} (inScope : scope.includes key)
      (each : ListsEntries key 0 entries own) (others : ListsGroups scope members list) :
      ListsGroups scope ((key, .array entries) :: members) (own ++ list)

/-- The listing of a document. -/
inductive Lists (scope : Scope) : Json → List ServiceSummary → Prop
  | intro {members : Members} {list : List ServiceSummary}
      (groups : ListsGroups scope members list) : Lists scope (.object members) list

section Listing

variable {scope : Scope} {group : String} {index : Nat} {entry document : Json}
  {entries : List Json} {members : Members} {s : ServiceSummary} {list : List ServiceSummary}

/-! ## There is one listing -/

theorem Summarizes.eq_ofEntry (h : Summarizes group index entry s) :
    s = ofEntry group index entry := by
  cases h with
  | intro hasId hasTitle hasSettings hasProperties =>
    simp [ofEntry, textField, propertyKeys, hasId, hasTitle, hasSettings, hasProperties,
      Json.text?, Json.members?]

theorem ListsEntries.eq_mapIdx (h : ListsEntries group index entries list) :
    list = entries.mapIdx fun i entry => ofEntry group (index + i) entry := by
  induction h with
  | nil => rfl
  | cons first _ ih =>
    rw [List.mapIdx_cons, first.eq_ofEntry, ih]
    simp [Nat.add_comm, Nat.add_left_comm]

theorem ListsGroups.eq_flatMap (h : ListsGroups scope members list) :
    list = (scope.select members).flatMap fun member => ofGroup member.1 member.2 := by
  induction h with
  | nil => rfl
  | passOver outOfScope _ ih => rw [Scope.select_cons_of_not_includes outOfScope, ih]
  | group inScope each _ ih =>
    rw [Scope.select_cons_of_includes inScope, List.flatMap_cons, ← ih, each.eq_mapIdx]
    simp [ofGroup, Json.items?]

theorem Lists.eq_ofDocument (h : Lists scope document list) : list = ofDocument scope document := by
  cases h with
  | intro groups => exact groups.eq_flatMap

/-! ## A document that conforms has a listing -/

open Contract (IsService IsSettings IsProperties IsGroup IsDocument)

theorem exists_summarizes (h : IsService entry) (group : String) (index : Nat) :
    ∃ s, Summarizes group index entry s := by
  obtain ⟨hasId, _, hasTitle, hasSettings, hasType, hasRequired, hasProperties, enabled, title⟩ := h
  exact ⟨_, .intro hasId hasTitle hasSettings hasProperties enabled title⟩

theorem exists_listsEntries (h : ∀ entry ∈ entries, IsService entry) (group : String)
    (index : Nat) : ∃ list, ListsEntries group index entries list := by
  induction entries generalizing index with
  | nil => exact ⟨[], .nil⟩
  | cons entry entries ih =>
    obtain ⟨hfirst, hothers⟩ := List.forall_mem_cons.1 h
    obtain ⟨s, first⟩ := exists_summarizes hfirst group index
    obtain ⟨list, others⟩ := ih hothers (index + 1)
    exact ⟨s :: list, .cons first others⟩

theorem exists_listsGroups
    (h : ∀ member ∈ members, scope.includes member.1 → IsGroup member.2) :
    ∃ list, ListsGroups scope members list := by
  induction members with
  | nil => exact ⟨[], .nil⟩
  | cons member members ih =>
    obtain ⟨key, value⟩ := member
    obtain ⟨hfirst, hothers⟩ := List.forall_mem_cons.1 h
    obtain ⟨list, others⟩ := ih hothers
    by_cases inScope : scope.includes key
    · obtain ⟨conform⟩ := hfirst inScope
      obtain ⟨own, each⟩ := exists_listsEntries conform key 0
      exact ⟨own ++ list, .group inScope each others⟩
    · exact ⟨list, .passOver inScope others⟩

theorem lists_ofDocument (h : IsDocument scope document) :
    Lists scope document (ofDocument scope document) := by
  obtain ⟨conform⟩ := h
  obtain ⟨list, groups⟩ := exists_listsGroups conform
  have lists : Lists scope _ list := .intro groups
  rwa [← lists.eq_ofDocument]

/-! ## What is listed -/

theorem ListsEntries.group_eq (h : ListsEntries group index entries list) :
    ∀ s ∈ list, s.group = group ∧ "enabled" ∈ s.propertyNames ∧ "title" ∈ s.propertyNames := by
  induction h with
  | nil => simp
  | cons first _ ih =>
    refine List.forall_mem_cons.2 ⟨?_, ih⟩
    cases first with
    | intro _ _ _ _ listsEnabled listsTitle => exact ⟨rfl, listsEnabled, listsTitle⟩

theorem ListsGroups.includes_group (h : ListsGroups scope members list) :
    ∀ s ∈ list, scope.includes s.group ∧ "enabled" ∈ s.propertyNames ∧
      "title" ∈ s.propertyNames := by
  induction h with
  | nil => simp
  | passOver _ _ ih => exact ih
  | group inScope each _ ih =>
    refine List.forall_mem_append.2 ⟨fun s hs => ?_, ih⟩
    obtain ⟨hgroup, names⟩ := each.group_eq s hs
    exact ⟨hgroup ▸ inScope, names⟩

theorem Lists.includes_group (h : Lists scope document list) :
    ∀ s ∈ list, scope.includes s.group ∧ "enabled" ∈ s.propertyNames ∧
      "title" ∈ s.propertyNames := by
  cases h with
  | intro groups => exact groups.includes_group

end Listing

end ServiceSummary

namespace Contract

open ServiceSummary (Lists)

variable {scope : Scope} {document : Json}

theorem summarize_eq_error_iff {e : Defect} :
    summarize scope document = .error e ↔ check scope document = .error e := by
  unfold summarize
  cases check scope document with
  | error d =>
    constructor
    · rintro ⟨⟩
      rfl
    · rintro ⟨⟩
      rfl
  | ok => exact ⟨nofun, nofun⟩

theorem summarize_eq_ok_iff {list : List ServiceSummary} :
    summarize scope document = .ok list ↔
      check scope document = .ok () ∧ Lists scope document list := by
  unfold summarize
  cases h : check scope document with
  | error e => exact ⟨nofun, nofun⟩
  | ok =>
    have conforms : IsDocument scope document := checkDocument_eq_ok_iff.1 h
    constructor
    · intro hlist
      obtain rfl : ServiceSummary.ofDocument scope document = list := Except.ok.inj hlist
      exact ⟨rfl, ServiceSummary.lists_ofDocument conforms⟩
    · rintro ⟨-, lists⟩
      rw [lists.eq_ofDocument]
      rfl

/-- A document is refused with the defect of its check, or else it is listed: entry by entry, with
what the entries say, and nothing from outside the scope. -/
theorem summarize_agrees (scope : Scope) (document : Json) :
    (∀ e, summarize scope document = .error e ↔ check scope document = .error e) ∧
      (∀ list, summarize scope document = .ok list ↔
        check scope document = .ok () ∧ Lists scope document list) ∧
      ∀ list, summarize scope document = .ok list → ∀ s ∈ list, scope.includes s.group ∧
        "enabled" ∈ s.propertyNames ∧ "title" ∈ s.propertyNames :=
  ⟨fun _ => summarize_eq_error_iff, fun _ => summarize_eq_ok_iff,
    fun _ h => (summarize_eq_ok_iff.1 h).2.includes_group⟩

/-- A service with a property of its own, after a key that is out of scope. -/
def oneService : Json :=
  .object [("note", .null), ("sms", .array [.object [("id", .string "x"),
    ("method_description", .string ""), ("method_title", .string "X"), ("service_settings",
      .object [("type", .string ""), ("required", .array []), ("properties",
        .object [("title", .null), ("port", .null), ("enabled", .null)])])]])]

theorem summarize_agrees_oneService :
    summarize (.only ["sms"]) oneService =
        .ok [⟨"sms", 0, "x", "X", ["title", "port", "enabled"]⟩] ∧
      Lists (.only ["sms"]) oneService [⟨"sms", 0, "x", "X", ["title", "port", "enabled"]⟩] ∧
      ∀ s ∈ [ServiceSummary.mk "sms" 0 "x" "X" ["title", "port", "enabled"]],
        (Scope.only ["sms"]).includes s.group ∧ "enabled" ∈ s.propertyNames ∧
          "title" ∈ s.propertyNames := by
  obtain ⟨-, accepted, listed⟩ := summarize_agrees (.only ["sms"]) oneService
  have summarized : summarize (.only ["sms"]) oneService =
      .ok [⟨"sms", 0, "x", "X", ["title", "port", "enabled"]⟩] := by rfl
  exact ⟨summarized, ((accepted _).1 summarized).2, listed _ summarized⟩

end Contract

end ServiceContract
