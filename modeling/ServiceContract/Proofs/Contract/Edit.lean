import ServiceContract.Proofs.Contract.Describe

/-!
# Setting a value in a document

`Json.setAt` puts a value where some steps lead: in place of what stands there, or as a new member
at the end of its object. Behind the steps there is then what stands behind the new value
(`at?_setAt_append`). Elsewhere, what was there is still there: the same values beside the steps,
and on the way to them values of the same kinds with at least the same members (`Grows`).
-/

namespace ServiceContract

namespace Members

variable {members : Members} {key field : String} {value new : Json}

theorem get?_cons (members : Members) (key field : String) (value : Json) :
    get? ((key, value) :: members) field =
      if field = key then some value else members.get? field := by
  by_cases h : field = key
  · subst h
    simp [get?]
  · have other : (field == key) = false := beq_false_of_ne h
    simp [get?, List.lookup_cons, other, h]

theorem get?_put (members : Members) (key field : String) (new : Json) :
    (members.put key new).get? field = if field = key then some new else members.get? field := by
  induction members with
  | nil => rw [put, get?_cons]
  | cons member members ih =>
    obtain ⟨k, v⟩ := member
    rw [put]
    split
    · next same =>
      subst same
      rw [get?_cons, get?_cons]
      split <;> rfl
    · next different =>
      rw [get?_cons, get?_cons, ih]
      by_cases h : field = k
      · subst h
        simp [different]
      · rw [if_neg h, if_neg h]

theorem keys_put (known : key ∈ members.keys) : (members.put key new).keys = members.keys := by
  induction members with
  | nil => cases known
  | cons member members ih =>
    obtain ⟨k, v⟩ := member
    rw [put]
    split
    · rfl
    · next different =>
      exact congrArg (k :: ·) (ih ((List.mem_cons.1 known).resolve_left (Ne.symm different)))

/-- Setting a key leaves the members under other keys as they are. -/
theorem mem_put (distinct : members.keys.Nodup) (h : (field, value) ∈ members.put key new) :
    (field = key ∧ value = new) ∨ (field ≠ key ∧ (field, value) ∈ members) := by
  induction members with
  | nil => exact .inl (Prod.mk.inj (List.mem_singleton.1 h))
  | cons member members ih =>
    obtain ⟨k, v⟩ := member
    obtain ⟨absent, distinct⟩ := List.nodup_cons.1 distinct
    rw [put] at h
    split at h
    · next same =>
      subst same
      rcases List.mem_cons.1 h with same | mem
      · exact .inl (Prod.mk.inj same)
      · refine .inr ⟨fun same => absent ?_, List.mem_cons_of_mem _ mem⟩
        exact same ▸ List.mem_map_of_mem (f := (·.1)) mem
    · next different =>
      rcases List.mem_cons.1 h with same | mem
      · obtain ⟨rfl, rfl⟩ := Prod.mk.inj same
        exact .inr ⟨different, List.mem_cons_self⟩
      · exact (ih distinct mem).imp_right fun h => ⟨h.1, List.mem_cons_of_mem _ h.2⟩

end Members

namespace Json

/-- The value with another one where some steps lead. A member that is not there is added. -/
def setAt : List Step → (new : Json) → Json → Json
  | [], new, _ => new
  | .member key :: steps, new, .object members =>
    .object (Members.put members key (setAt steps new ((Members.get? members key).getD .null)))
  | .item index :: steps, new, .array items => .array (items.modify index (setAt steps new))
  | _, _, value => value

/-- Steps lead to a value, or from an object to a member that it lacks. -/
def CanSet : List Step → Json → Prop
  | [], _ => True
  | .member key :: steps, value => ∃ members : Members, value = .object members ∧
    match members.get? key with
    | some inner => CanSet steps inner
    | none => steps = []
  | .item index :: steps, value => ∃ items inner, value = .array items ∧
    items[index]? = some inner ∧ CanSet steps inner

/-- A value of the same kind with at least the same members. -/
structure Grows (value value' : Json) : Prop where
  kind : value.kind = value'.kind
  member : ∀ field, (value.get? field).isSome → (value'.get? field).isSome

theorem Grows.refl (value : Json) : Grows value value := ⟨rfl, fun _ => id⟩

variable {steps more route : List Step} {value target new : Json} {members : Members} {key : String}

theorem at?_member_eq_some : value.at? (.member key :: steps) = some target ↔
    ∃ (members : Members) (inner : Json), value = .object members ∧
      members.get? key = some inner ∧ inner.at? steps = some target := by
  rw [at?, Option.bind_eq_some_iff]
  constructor
  · rintro ⟨inner, hinner, h⟩
    cases value with
    | object members => exact ⟨members, inner, rfl, hinner, h⟩
    | null | bool | number | string | array => cases hinner
  · rintro ⟨members, inner, rfl, hinner, h⟩
    exact ⟨inner, hinner, h⟩

theorem at?_item_eq_some {index : Nat} : value.at? (.item index :: steps) = some target ↔
    ∃ items inner, value = .array items ∧ items[index]? = some inner ∧
      inner.at? steps = some target := by
  rw [at?, Option.bind_eq_some_iff]
  constructor
  · rintro ⟨inner, hinner, h⟩
    cases value with
    | array items => exact ⟨items, inner, rfl, hinner, h⟩
    | null | bool | number | string | object => cases hinner
  · rintro ⟨items, inner, rfl, hinner, h⟩
    exact ⟨inner, hinner, h⟩

/-- What can be set further on can be set from the start. -/
theorem CanSet.append (h : value.at? steps = some target) (further : CanSet more target) :
    CanSet (steps ++ more) value := by
  induction steps generalizing value with
  | nil =>
    obtain rfl := Option.some.inj h
    exact further
  | cons step steps ih =>
    cases step with
    | member key =>
      obtain ⟨members, inner, rfl, hinner, h⟩ := at?_member_eq_some.1 h
      refine ⟨members, rfl, ?_⟩
      rw [hinner]
      exact ih h
    | item index =>
      obtain ⟨items, inner, rfl, hinner, h⟩ := at?_item_eq_some.1 h
      exact ⟨items, inner, rfl, hinner, ih h⟩

theorem canSet_of_at? (h : value.at? steps = some target) : CanSet steps value := by
  have here : CanSet [] target := trivial
  simpa using CanSet.append h here

/-- A member can be set in any object. -/
theorem canSet_member (h : value.at? steps = some (.object members)) (key : String) :
    CanSet (steps ++ [.member key]) value := by
  refine .append h ⟨members, rfl, ?_⟩
  split
  · trivial
  · rfl

/-- Behind the steps stands the new value. -/
theorem at?_setAt_append (h : CanSet steps value) (new : Json) (more : List Step) :
    (setAt steps new value).at? (steps ++ more) = new.at? more := by
  induction steps generalizing value with
  | nil => rw [setAt, List.nil_append]
  | cons step steps ih =>
    cases step with
    | member key =>
      obtain ⟨members, rfl, h⟩ := h
      rw [setAt, List.cons_append, at?, get?_object, Members.get?_put, if_pos rfl, Option.bind_some]
      split at h
      · next inner hinner => rw [hinner, Option.getD_some, ih h]
      · subst h
        rw [setAt, List.nil_append]
    | item index =>
      obtain ⟨items, inner, rfl, hinner, h⟩ := h
      rw [setAt, List.cons_append, at?]
      simp [items?, hinner, ih h]

theorem at?_setAt (h : CanSet steps value) (new : Json) :
    (setAt steps new value).at? steps = some new := by
  have behind := at?_setAt_append h new []
  rwa [List.append_nil] at behind

/-- What the steps do not lead to or past is still there, and may only have grown. -/
theorem exists_grown (h : CanSet steps value) (apart : ¬steps <+: route)
    (there : value.at? route = some target) (new : Json) :
    ∃ grown, (setAt steps new value).at? route = some grown ∧ Grows target grown := by
  induction steps generalizing value route with
  | nil => exact absurd List.nil_prefix apart
  | cons step steps ih =>
    cases step with
    | member key =>
      obtain ⟨members, rfl, h⟩ := h
      rw [setAt]
      cases route with
      | nil =>
        obtain rfl := Option.some.inj there
        refine ⟨_, rfl, rfl, fun field hfield => ?_⟩
        rw [get?_object, Members.get?_put]
        split
        · rfl
        · exact hfield
      | cons other route =>
        cases other with
        | member field =>
          obtain ⟨_, inner, hobject, hinner, there⟩ := at?_member_eq_some.1 there
          obtain rfl := Json.object.inj hobject
          by_cases same : field = key
          · subst same
            rw [hinner] at h
            rw [at?, get?_object, Members.get?_put, if_pos rfl, hinner]
            exact ih h (fun within => apart (List.cons_prefix_cons.2 ⟨rfl, within⟩)) there
          · rw [at?, get?_object, Members.get?_put, if_neg same, hinner]
            exact ⟨target, there, .refl target⟩
        | item => cases there
    | item index =>
      obtain ⟨items, inner, rfl, hinner, h⟩ := h
      rw [setAt]
      cases route with
      | nil =>
        obtain rfl := Option.some.inj there
        exact ⟨_, rfl, rfl, fun field hfield => by cases hfield⟩
      | cons other route =>
        cases other with
        | member => cases there
        | item position =>
          obtain ⟨_, found, harray, hfound, there⟩ := at?_item_eq_some.1 there
          obtain rfl := Json.array.inj harray
          by_cases same : index = position
          · subst same
            obtain rfl : inner = found := Option.some.inj (hinner.symm.trans hfound)
            have later := ih h (fun within => apart (List.cons_prefix_cons.2 ⟨rfl, within⟩)) there
            simpa [at?, items?, hinner] using later
          · refine ⟨target, ?_, .refl target⟩
            simpa [at?, items?, same, hfound] using there

end Json

end ServiceContract
