import Mathlib.Data.Setoid.Basic
import ServiceContract.Proofs.Contract.Describe
import ServiceContract.Proofs.Contract.Skeleton

/-!
# Changes that are overlooked

What changes a document and leaves its skeleton as it is: other keys and the order of keys, the
contents of texts and lists, the schemas of properties, and all that is out of scope. No chain of
such changes, made or taken back, has an effect on the verdict (`check_sees_skeleton`).
-/

namespace ServiceContract

theorem Members.get?_eq_some_iff_mem {members : Members} (distinct : members.keys.Nodup)
    {key : String} {value : Json} : members.get? key = some value ↔ (key, value) ∈ members := by
  rw [get?, List.lookup_eq_some_iff]
  constructor
  · rintro ⟨before, after, rfl, -⟩
    simp
  · intro h
    obtain ⟨before, after, rfl⟩ := List.append_of_mem h
    exact List.lookup_eq_some_iff.1 (get?_of_distinct distinct)

theorem Members.get?_perm {members members' : Members} (distinct : members.keys.Nodup)
    (perm : members.Perm members') (key : String) : members.get? key = members'.get? key := by
  have distinct' : members'.keys.Nodup := (perm.map _).nodup_iff.1 distinct
  refine Option.ext fun value => ?_
  rw [get?_eq_some_iff_mem distinct, get?_eq_some_iff_mem distinct', perm.mem_iff]

theorem Members.get?_insert {before after : Members} {key field : String} {value : Json}
    (h : field ≠ key) :
    Members.get? (before ++ (key, value) :: after) field =
      Members.get? (before ++ after) field := by
  simp [get?, List.lookup_append, List.lookup_cons, beq_false_of_ne h]

namespace Contract

/-- One change of a value: in an object a further member under none of some keys, another order, or
a change of what stands under a key; else another value of the same kind. -/
inductive Change (keys : List String) (inside : String → Json → Json → Prop) : Json → Json → Prop
  | insert {before after : Members} {key : String} {value : Json} (further : key ∉ keys) :
      Change keys inside (.object (before ++ after)) (.object (before ++ (key, value) :: after))
  | reorder {members members' : Members} (distinct : members.keys.Nodup)
      (perm : members.Perm members') : Change keys inside (.object members) (.object members')
  | replace {before after : Members} {key : String} {value value' : Json}
      (change : inside key value value') :
      Change keys inside (.object (before ++ (key, value) :: after))
        (.object (before ++ (key, value') :: after))
  | other {value value' : Json} (kind : value.kind = value'.kind)
      (notObject : value.kind ≠ .object) : Change keys inside value value'

/-- One change of the properties; their schemas may be any. -/
def PropertiesChange : Json → Json → Prop := Change propertyKeys fun _ _ _ => True

/-- What may change under the keys of an object: the contents of some of them within their kinds,
and whatever is overlooked under the key that the check goes down to. -/
inductive MemberChange (contents : List String) (down : String) (deeper : Json → Json → Prop) :
    String → Json → Json → Prop
  | content {key : String} {value value' : Json} (listed : key ∈ contents)
      (kind : value.kind = value'.kind) : MemberChange contents down deeper key value value'
  | deeper {value value' : Json} (change : deeper value value') :
      MemberChange contents down deeper down value value'

/-- One change of a settings schema: of the text of `type`, the items of `required`, and more. -/
def SettingsChange : Json → Json → Prop :=
  Change settingsFields (MemberChange ["type", "required"] "properties" PropertiesChange)

/-- One change of an entry: of its texts, its settings, and more. -/
def ServiceChange : Json → Json → Prop :=
  Change serviceFields (MemberChange ["id", "method_description", "method_title"]
    "service_settings" SettingsChange)

/-- One change of a document that the contract does not ask about: of what is out of scope, in an
entry, or of a value that the check goes no further into. -/
inductive Overlooked (scope : Scope) : Json → Json → Prop
  | outOfScope {members members' : Members} (same : scope.select members = scope.select members') :
      Overlooked scope (.object members) (.object members')
  | entry {before after : Members} {key : String} {passed later : List Json} {entry entry' : Json}
      (change : ServiceChange entry entry') :
      Overlooked scope (.object (before ++ (key, .array (passed ++ entry :: later)) :: after))
        (.object (before ++ (key, .array (passed ++ entry' :: later)) :: after))
  | group {before after : Members} {key : String} {value value' : Json}
      (kind : value.kind = value'.kind) (notArray : value.kind ≠ .array) :
      Overlooked scope (.object (before ++ (key, value) :: after))
        (.object (before ++ (key, value') :: after))
  | other {value value' : Json} (kind : value.kind = value'.kind)
      (notObject : value.kind ≠ .object) : Overlooked scope value value'

variable {value value' : Json} {keys : List String} {inside inside' : String → Json → Json → Prop}
  {scope : Scope}

/-- An object that is changed agrees with what it was, if what is changed inside does. -/
theorem Change.agree (sound : ∀ key value value', inside key value value' →
      inside' key value value') (refl : ∀ key value, inside' key value value)
    (h : Change keys inside value value') : Agree keys inside' value value' := by
  cases h with
  | insert further =>
    refine .object fun field hf => ?_
    rw [Members.get?_insert (ne_of_mem_of_not_mem hf further)]
    exact rel_self (refl field) _
  | reorder distinct perm =>
    refine .object fun field _ => ?_
    rw [Members.get?_perm distinct perm]
    exact rel_self (refl field) _
  | @replace before after key value value' change =>
    refine .object fun field _ => ?_
    by_cases h : field = key
    · subst h
      cases hb : before.lookup field with
      | some found =>
        simp [Members.get?, List.lookup_append, hb, refl]
      | none =>
        simp [Members.get?, List.lookup_append, hb, sound _ _ _ change]
    · rw [Members.get?_insert h, Members.get?_insert h]
      exact rel_self (refl field) _
  | other kind notObject => exact .other kind notObject

theorem PropertiesChange.same (h : PropertiesChange value value') : SameProperties value value' :=
  Change.agree (fun _ _ _ _ => trivial) (fun _ _ => trivial) h

theorem MemberChange.kindAnd {contents : List String} {down key : String}
    {deeper alike : Json → Json → Prop} (apart : down ∉ contents)
    (sound : ∀ value value', deeper value value' → value.kind = value'.kind ∧ alike value value')
    (h : MemberChange contents down deeper key value value') :
    KindAnd alike down key value value' := by
  cases h with
  | content listed kind =>
    refine ⟨kind, ?_⟩
    rintro rfl
    exact absurd listed apart
  | deeper change => exact ⟨(sound _ _ change).1, fun _ => (sound _ _ change).2⟩

theorem SettingsChange.same (h : SettingsChange value value') : SameSettings value value' :=
  Change.agree (fun _ _ _ => MemberChange.kindAnd (by decide)
      fun _ _ change => ⟨change.same.kind_eq, change.same⟩)
    (fun _ target => ⟨rfl, fun _ => .refl target⟩) h

theorem ServiceChange.same (h : ServiceChange value value') : SameService value value' :=
  Change.agree (fun _ _ _ => MemberChange.kindAnd (by decide)
      fun _ _ change => ⟨change.same.kind_eq, change.same⟩)
    (fun _ target => ⟨rfl, fun _ => .refl target⟩) h

/-- Another group instead of one that is like it leaves the skeleton as it is. -/
theorem sameSkeleton_of_sameGroup {before after : Members} {key : String}
    (group : SameGroup value value') :
    SameSkeleton scope (.object (before ++ (key, value) :: after))
      (.object (before ++ (key, value') :: after)) := by
  refine .object ?_
  rw [Scope.select_append, Scope.select_append]
  refine List.rel_append (SameGroups.refl _) ?_
  by_cases h : scope.includes key
  · rw [Scope.select_cons_of_includes h, Scope.select_cons_of_includes h]
    exact .cons ⟨rfl, group⟩ (SameGroups.refl _)
  · rw [Scope.select_cons_of_not_includes h, Scope.select_cons_of_not_includes h]
    exact SameGroups.refl _

/-- What is overlooked leaves the skeleton as it is. -/
theorem Overlooked.sameSkeleton (h : Overlooked scope value value') :
    SameSkeleton scope value value' := by
  have refl (entries : List Json) : List.Forall₂ SameService entries entries :=
    List.forall₂_same.2 fun entry _ => .refl entry
  cases h with
  | outOfScope same => exact .object (same ▸ SameGroups.refl _)
  | entry change =>
    exact sameSkeleton_of_sameGroup (.array (List.rel_append (refl _) (.cons change.same (refl _))))
  | group kind notArray => exact sameSkeleton_of_sameGroup (.other kind notArray)
  | other kind notObject => exact .other kind notObject

/-- The verdict on a document and the defect depend on its skeleton alone, so no chain of changes
that are overlooked, made or taken back, has an effect on them. -/
theorem check_sees_skeleton (scope : Scope) (document document' : Json) :
    (SameSkeleton scope document document' → check scope document = check scope document') ∧
      (Relation.EqvGen (Overlooked scope) document document' →
        check scope document = check scope document') := by
  refine ⟨checkDocument_congr, fun chain => ?_⟩
  have overlooked : ∀ d d', Overlooked scope d d' → Setoid.ker (check scope) d d' :=
    fun _ _ h => checkDocument_congr h.sameSkeleton
  exact Setoid.eqvGen_le overlooked chain

/-- An entry without its texts and settings, after a key that is out of scope. -/
def bareEntry : Json :=
  .object [("note", .null), ("sms", .array [.object [("id", .string "a"), ("port", .null)]])]

/-- The entry with its members in another order and with another text. -/
def bareEntryChanged : Json :=
  .object [("sms", .array [.object [("port", .null), ("id", .string "b")]])]

theorem sameSkeleton_bareEntry : SameSkeleton (.only ["sms"]) bareEntry bareEntryChanged := by
  refine .object (.cons ⟨rfl, .array (.cons (.object fun key hk => ?_) .nil)⟩ .nil)
  simp only [serviceFields, List.mem_cons, List.not_mem_nil, or_false] at hk
  obtain rfl | rfl | rfl | rfl := hk
  · exact .some ⟨rfl, fun h => absurd h (by decide)⟩
  · exact .none
  · exact .none
  · exact .none

theorem overlooked_bareEntry :
    Relation.EqvGen (Overlooked (.only ["sms"])) bareEntry bareEntryChanged := by
  have reordered : ServiceChange (.object [("id", .string "a"), ("port", .null)])
      (.object [("port", .null), ("id", .string "a")]) :=
    .reorder (by decide) (.swap ..)
  have reworded : ServiceChange (.object [("port", .null), ("id", .string "a")])
      (.object [("port", .null), ("id", .string "b")]) := by
    show Change _ _ (.object ([_] ++ _ :: [])) (.object ([_] ++ _ :: []))
    exact .replace (.content (by decide) rfl)
  have inEntry {entry entry' : Json} (change : ServiceChange entry entry') :
      Overlooked (.only ["sms"]) (.object [("sms", .array [entry])])
        (.object [("sms", .array [entry'])]) := by
    show Overlooked _ (.object ([] ++ (_, .array ([] ++ _ :: [])) :: []))
      (.object ([] ++ (_, .array ([] ++ _ :: [])) :: []))
    exact .entry change
  have dropped : Overlooked (.only ["sms"]) bareEntry
      (.object [("sms", .array [.object [("id", .string "a"), ("port", .null)]])]) :=
    .outOfScope rfl
  exact .trans _ _ _ (.rel _ _ dropped)
    (.trans _ _ _ (.rel _ _ (inEntry reordered)) (.rel _ _ (inEntry reworded)))

theorem check_sees_skeleton_bareEntry :
    SameSkeleton (.only ["sms"]) bareEntry bareEntryChanged ∧
      Relation.EqvGen (Overlooked (.only ["sms"])) bareEntry bareEntryChanged ∧
      check (.only ["sms"]) bareEntry = check (.only ["sms"]) bareEntryChanged :=
  ⟨sameSkeleton_bareEntry, overlooked_bareEntry,
    (check_sees_skeleton _ _ _).1 sameSkeleton_bareEntry⟩

end Contract

end ServiceContract
