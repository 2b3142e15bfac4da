import ServiceContract.Form

/-!
# Values that a form keeps

A form need not keep the value it writes: a count may be too large, a choice may spell two values
alike, a field that is left out may have another fallback. `Form.Keeps` says of a value that nothing
of this kind happens to it or to a part of it. Every reader of a notation that fills the slots of a
record one after the other then meets with the same states, which are `Fields.slots`.
-/

namespace ServiceContract

variable {α β σ : Type}

/-- A form whose values are never written as null. -/
def Form.IsSolid : Form α → Prop
  | .option _ => False
  | _ => True

mutual

/-- A value that can be told from its tree. -/
def Form.Keeps : {α : Type} → Form α → α → Prop
  | _, .text, _ => True
  | _, .flag, _ => True
  | _, .count, n => n < Word.size64
  | _, .choice variants spell, a => variants.lookup (spell a) = some a
  | _, .list item, xs => ∀ x ∈ xs, item.Keeps x
  | _, .option item, x => ∀ a ∈ x, item.IsSolid ∧ item.Keeps a
  | _, .record _ _ fields build parts, a =>
    build (parts a) = a ∧ fields.names.Nodup ∧ fields.Keep (parts a)

/-- Values for the fields of a record that can be told from its members. -/
def Fields.Keep : {β σ : Type} → Fields β σ → β → Prop
  | _, _, .nil, _ => True
  | _, _, .cons _ form fallback rest, (a, b) =>
    form.Keeps a ∧ ((form.toJson a).kind = .null → fallback = some a) ∧ rest.Keep b

end

theorem Form.IsSolid.kind_ne_null {form : Form α} (solid : form.IsSolid) (a : α) :
    (form.toJson a).kind ≠ .null := by
  cases form with
  | option => exact solid.elim
  | text | flag | count | choice | list | record =>
    rw [Form.toJson]
    intro h
    cases h

/-- What may be left out of a record has its fallback. -/
theorem Form.kind_option_eq_null {item : Form α} {x : Option α} (keeps : (Form.option item).Keeps x)
    (null : ((Form.option item).toJson x).kind = .null) : x = none := by
  cases x with
  | none => rfl
  | some a =>
    rw [Form.Keeps] at keeps
    rw [Form.toJson] at null
    exact absurd null ((keeps a rfl).1.kind_ne_null a)

namespace Fields

theorem keep_nil : Fields.nil.Keep () := by
  rw [Keep]
  trivial

theorem keep_cons {name : String} {form : Form α} {rest : Fields β σ} {a : α} {b : β}
    (fallback : Option α) (solid : form.IsSolid) (keeps : form.Keeps a) (keep : rest.Keep b) :
    (Fields.cons name form fallback rest).Keep (a, b) := by
  rw [Keep]
  exact ⟨keeps, fun null => absurd null (solid.kind_ne_null a), keep⟩

theorem keep_cons_option {name : String} {item : Form α} {rest : Fields β σ} {x : Option α} {b : β}
    (keeps : (Form.option item).Keeps x) (keep : rest.Keep b) :
    (Fields.cons name (.option item) (some none) rest).Keep (x, b) := by
  rw [Keep]
  refine ⟨keeps, fun null => ?_, keep⟩
  rw [Form.kind_option_eq_null keeps null]

/-- The slots of a record when the fields with some names have been read. -/
def slots : {β σ : Type} → Fields β σ → (seen : List String) → β → σ
  | _, _, .nil, _, _ => ()
  | _, _, .cons name _ _ rest, seen, (a, b) =>
    (if name ∈ seen then some a else none, rest.slots seen b)

theorem slots_nil : {β σ : Type} → (fields : Fields β σ) → (b : β) →
    fields.slots [] b = fields.empty
  | _, _, .nil, _ => rfl
  | _, _, .cons _ _ _ rest, (a, b) => by rw [slots, slots_nil rest b, if_neg (by simp), empty]

/-- Names of other records do not matter. -/
theorem slots_cons_of_not_mem {name : String} {seen : List String} :
    {β σ : Type} → (fields : Fields β σ) → (b : β) → name ∉ fields.names →
      fields.slots (name :: seen) b = fields.slots seen b
  | _, _, .nil, _, _ => rfl
  | _, _, .cons other form fallback rest, (a, b), absent => by
    simp only [names, List.mem_cons, not_or] at absent
    obtain ⟨different, absent⟩ := absent
    have same : other ∈ name :: seen ↔ other ∈ seen := by
      rw [List.mem_cons]
      constructor
      · rintro (equal | h)
        · exact absurd equal.symm different
        · exact h
      · exact Or.inr
    simp only [slots, same, slots_cons_of_not_mem rest b absent]

theorem filled?_slots {seen : List String} {key : String} :
    {β σ : Type} → (fields : Fields β σ) → (b : β) → key ∈ fields.names →
      fields.filled? (fields.slots seen b) key = some (decide (key ∈ seen))
  | _, _, .nil, _, h => absurd h (by simp [names])
  | _, _, .cons name form fallback rest, (a, b), h => by
    rw [slots, filled?]
    by_cases here : name = key
    · subst here
      rw [if_pos rfl]
      by_cases read : name ∈ seen
      · simp [read]
      · simp [read]
    · have later : key ∈ rest.names := by
        simp only [names, List.mem_cons] at h
        rcases h with rfl | h
        · exact absurd rfl here
        · exact h
      rw [if_neg here]
      exact filled?_slots rest b later

/-- When all fields have been read that are written, the record is complete. -/
theorem complete_slots {seen : List String} :
    {β σ : Type} → (fields : Fields β σ) → (b : β) → fields.Keep b →
      (∀ member ∈ Members.present (fields.toMembers b), member.1 ∈ seen) →
      fields.complete (fields.slots seen b) = .ok b
  | _, _, .nil, _, _, _ => rfl
  | _, _, .cons name form fallback rest, (a, b), keep, read => by
    rw [Keep] at keep
    obtain ⟨-, absent, keep⟩ := keep
    have later : ∀ member ∈ Members.present (rest.toMembers b), member.1 ∈ seen := by
      intro member hm
      refine read member ?_
      rw [toMembers, Members.present, List.filter_cons]
      split
      · exact List.mem_cons_of_mem _ hm
      · exact hm
    have here : (if name ∈ seen then some a else none).or fallback = some a := by
      by_cases h : name ∈ seen
      · rw [if_pos h, Option.some_or]
      · have null : (form.toJson a).kind = .null := by
          refine Decidable.byContradiction fun written => ?_
          refine h (read (name, form.toJson a) ?_)
          rw [toMembers, Members.present, List.filter_cons_of_pos (by simp [written])]
          exact List.mem_cons_self
        rw [if_neg h, Option.none_or, absent null]
    rw [slots, complete, here]
    simp only [complete_slots rest b keep later]
    rfl

theorem keys_toMembers : {β σ : Type} → (fields : Fields β σ) → (b : β) →
    (fields.toMembers b).map (·.1) = fields.names
  | _, _, .nil, _ => rfl
  | _, _, .cons name form fallback rest, (a, b) => by
    rw [toMembers, List.map_cons, keys_toMembers rest b, names]

/-- The members of a record have the names of its fields, in order. -/
theorem keys_present_sublist (fields : Fields β σ) (b : β) :
    (Members.present (fields.toMembers b)).keys.Sublist fields.names := by
  rw [← fields.keys_toMembers b]
  exact List.Sublist.map _ List.filter_sublist

theorem mem_names_of_present (fields : Fields β σ) (b : β) :
    ∀ member ∈ Members.present (fields.toMembers b), member.1 ∈ fields.names := by
  intro member hm
  exact (fields.keys_present_sublist b).subset (List.mem_map_of_mem hm)

end Fields

end ServiceContract
