import ServiceContract.Form.Tree
import ServiceContract.Proofs.Contract.Edit
import ServiceContract.Proofs.Contract.Overlooked
import ServiceContract.Proofs.Form

/-!
# Trees with some fields left out

The tree of a value may lose fields that have a fallback, whole records among them; it may gain
members under names that no field has, and the members of a record may come in any order
(`Form.Edits`). What is read from such a tree is the value with fallbacks in the fields that were
left out and nothing else changed (`Form.ofJson?_of_edits`). In particular a value is read back from
its own tree (`Form.ofJson?_toJson`).
-/

namespace ServiceContract

/-- The fields that are left out, by the names that lead to them. -/
abbrev Omission := List String → Bool

namespace Omission

/-- What is left out of the record under a name. -/
def within (omitted : Omission) (name : String) : Omission := fun path => omitted (name :: path)

def nothing : Omission := fun _ => false

theorem within_nothing (name : String) : nothing.within name = nothing := rfl

end Omission

mutual

/-- The value with fallbacks in the fields that are left out. -/
def Form.overlay : {α : Type} → Form α → Omission → α → α
  | _, .record _ _ fields build parts, omitted, a => build (fields.overlay omitted (parts a))
  | _, .text, _, s => s
  | _, .flag, _, b => b
  | _, .count, _, n => n
  | _, .choice _ _, _, a => a
  | _, .list _, _, xs => xs
  | _, .option _, _, x => x

def Fields.overlay : {β σ : Type} → Fields β σ → Omission → β → β
  | _, _, .nil, _, b => b
  | _, _, .cons name form fallback rest, omitted, (a, b) =>
    (if omitted [name] then fallback.getD a else form.overlay (omitted.within name) a,
      rest.overlay omitted b)

end

mutual

/-- A tree of a value with some fields left out. A record may have further members, under names
that no field has, and its members may come in any order. -/
def Form.Edits : {α : Type} → Form α → α → Omission → Json → Prop
  | _, .record _ _ fields _ parts, a, omitted, tree =>
    ∃ kept further members, tree = .object members ∧ members.Perm (kept ++ further) ∧
      (∀ member ∈ further, member.1 ∉ fields.names) ∧ fields.Edits (parts a) omitted kept
  | _, .text, s, _, tree => tree = Form.text.toJson s
  | _, .flag, b, _, tree => tree = Form.flag.toJson b
  | _, .count, n, _, tree => tree = Form.count.toJson n
  | _, .choice variants spell, a, _, tree => tree = (Form.choice variants spell).toJson a
  | _, .list item, xs, _, tree => tree = (Form.list item).toJson xs
  | _, .option item, x, _, tree => tree = (Form.option item).toJson x

/-- The members that are left of some fields, in the order of the fields. A field that is left out
has a fallback. -/
def Fields.Edits : {β σ : Type} → Fields β σ → β → Omission → Members → Prop
  | _, _, .nil, _, _, kept => kept = []
  | _, _, .cons name form fallback rest, (a, b), omitted, kept =>
    if omitted [name] then fallback.isSome ∧ rest.Edits b omitted kept
    else if (form.toJson a).kind = .null then rest.Edits b omitted kept
    else ∃ tree later, kept = (name, tree) :: later ∧ form.Edits a (omitted.within name) tree ∧
      rest.Edits b omitted later

end

namespace Fields

variable {α β σ : Type} {name : String} {form : Form α} {fallback : Option α} {rest : Fields β σ}
  {a : α} {b : β} {omitted : Omission} {tree : Json} {kept : Members}

theorem edits_nil : Fields.nil.Edits () omitted [] := by
  rw [Edits]

theorem edits_cons_omitted (out : omitted [name] = true) (replaced : fallback.isSome)
    (later : rest.Edits b omitted kept) :
    (Fields.cons name form fallback rest).Edits (a, b) omitted kept := by
  rw [Edits, if_pos out]
  exact ⟨replaced, later⟩

theorem edits_cons_kept (within : omitted [name] = false) (written : (form.toJson a).kind ≠ .null)
    (edits : form.Edits a (omitted.within name) tree) (later : rest.Edits b omitted kept) :
    (Fields.cons name form fallback rest).Edits (a, b) omitted ((name, tree) :: kept) := by
  rw [Edits, if_neg (by simp [within]), if_neg written]
  exact ⟨tree, kept, rfl, edits, later⟩

end Fields

mutual

theorem Form.overlay_nothing : {α : Type} → (form : Form α) → (a : α) → form.Keeps a →
    form.overlay .nothing a = a
  | _, .record _ _ fields build parts, a, keeps => by
    rw [Form.Keeps] at keeps
    rw [Form.overlay, fields.overlay_nothing (parts a) keeps.2.2, keeps.1]
  | _, .text, _, _ | _, .flag, _, _ | _, .count, _, _ | _, .choice _ _, _, _
  | _, .list _, _, _ | _, .option _, _, _ => by rw [Form.overlay]

theorem Fields.overlay_nothing : {β σ : Type} → (fields : Fields β σ) → (b : β) → fields.Keep b →
    fields.overlay .nothing b = b
  | _, _, .nil, _, _ => by rw [Fields.overlay]
  | _, _, .cons name form fallback rest, (a, b), keep => by
    rw [Fields.Keep] at keep
    rw [Fields.overlay, if_neg (by simp [Omission.nothing]), Omission.within_nothing,
      form.overlay_nothing a keep.1, rest.overlay_nothing b keep.2.2]

end

mutual

/-- The tree of a value is one with nothing left out. -/
theorem Form.edits_toJson : {α : Type} → (form : Form α) → (a : α) →
    form.Edits a .nothing (form.toJson a)
  | _, .record _ _ fields _ parts, a => by
    rw [Form.Edits, Form.toJson]
    exact ⟨Members.present (fields.toMembers (parts a)), [], _, rfl, by simp, nofun,
      fields.edits_present (parts a)⟩
  | _, .text, _ | _, .flag, _ | _, .count, _ | _, .choice _ _, _ | _, .list _, _
  | _, .option _, _ => by rw [Form.Edits]

theorem Fields.edits_present : {β σ : Type} → (fields : Fields β σ) → (b : β) →
    fields.Edits b .nothing (Members.present (fields.toMembers b))
  | _, _, .nil, _ => Fields.edits_nil
  | _, _, .cons name form fallback rest, (a, b) => by
    rw [Fields.toMembers, Members.present, List.filter_cons]
    split
    · next written =>
      exact Fields.edits_cons_kept rfl (by simpa using written) (form.edits_toJson a)
        (rest.edits_present b)
    · next null =>
      rw [Fields.Edits, if_neg (by simp [Omission.nothing]), if_pos (by simpa using null)]
      exact rest.edits_present b

end

/-! ## Reading an edited tree -/

/-- Members under other names and another order do not matter to a lookup. -/
theorem Members.get?_of_perm_append {members kept further : Members}
    (perm : members.Perm (kept ++ further)) (distinct : kept.keys.Nodup) {name : String}
    (known : name ∉ further.keys) : members.get? name = kept.get? name := by
  have keptOf {value : Json} (h : (name, value) ∈ members) : kept.get? name = some value := by
    rcases List.mem_append.1 (perm.mem_iff.1 h) with hkept | hfurther
    · exact (get?_eq_some_iff_mem distinct).2 hkept
    · exact absurd (List.mem_map_of_mem (f := (·.1)) hfurther) known
  have member {members : Members} {value : Json} (h : members.get? name = some value) :
      (name, value) ∈ members := by
    obtain ⟨before, after, rfl, -⟩ := List.lookup_eq_some_iff.1 h
    simp
  cases found : members.get? name with
  | some value => exact (keptOf (member found)).symm
  | none =>
    refine (Option.eq_none_iff_forall_ne_some.2 fun value h => ?_).symm
    have there := perm.mem_iff.2 (List.mem_append_left _ (member h))
    have absent := List.lookup_eq_none_iff.1 found (name, value) there
    simp at absent

/-- What is left stands under names of the fields, in their order. -/
theorem Fields.keys_sublist_of_edits {omitted : Omission} : {β σ : Type} → (fields : Fields β σ) →
    (b : β) → {kept : Members} → fields.Edits b omitted kept → kept.keys.Sublist fields.names
  | _, _, .nil, _, kept, h => by
    rw [Fields.Edits] at h
    subst h
    exact .slnil
  | _, _, .cons name form fallback rest, (a, b), kept, h => by
    rw [Fields.Edits] at h
    rw [Fields.names]
    split at h
    · exact (rest.keys_sublist_of_edits b h.2).cons _
    split at h
    · exact (rest.keys_sublist_of_edits b h).cons _
    · obtain ⟨tree, later, rfl, -, h⟩ := h
      exact (rest.keys_sublist_of_edits b h).cons_cons _

theorem Fields.get?_eq_none_of_edits {β σ : Type} {fields : Fields β σ} {b : β}
    {omitted : Omission} {kept : Members} {name : String} (h : fields.Edits b omitted kept)
    (absent : name ∉ fields.names) : kept.get? name = none := by
  refine List.lookup_eq_none_iff.2 fun member hm => ?_
  have known := (fields.keys_sublist_of_edits b h).subset (List.mem_map_of_mem hm)
  exact bne_iff_ne.2 fun same => absent (same ▸ known)

/-- What is written as null has no parts. -/
theorem Form.overlay_of_null {α : Type} (form : Form α) (a : α) (omitted : Omission)
    (null : (form.toJson a).kind = .null) : form.overlay omitted a = a := by
  cases form with
  | record => cases null
  | text | flag | count | choice | list | option => rw [Form.overlay]

theorem mapM_map_eq_some {α β : Type} {write : α → β} {read : β → Option α} {xs : List α}
    (h : ∀ x ∈ xs, read (write x) = some x) : (xs.map write).mapM read = some xs := by
  induction xs with
  | nil => rfl
  | cons x xs ih =>
    obtain ⟨first, later⟩ := List.forall_mem_cons.1 h
    rw [List.map_cons, List.mapM_cons, first, ih later]
    rfl

mutual

/-- From an edited tree of a value, the value is read with fallbacks where fields were left out. -/
theorem Form.ofJson?_of_edits : {α : Type} → (form : Form α) → (a : α) → form.Keeps a →
    (omitted : Omission) → (tree : Json) → form.Edits a omitted tree →
    form.ofJson? tree = some (form.overlay omitted a)
  | _, .text, _, _, _, _, h | _, .flag, _, _, _, _, h => by
    rw [Form.Edits] at h
    subst h
    rfl
  | _, .count, n, fits, _, _, h => by
    rw [Form.Edits] at h
    subst h
    rw [Form.Keeps] at fits
    have fits : Word.isUnsigned64 n = true := by
      simp [Word.isUnsigned64]
      omega
    simp [Form.toJson, Form.ofJson?, Json.ofNat, Json.count?, fits, Form.overlay]
  | _, .choice variants spell, a, known, _, _, h => by
    rw [Form.Edits] at h
    subst h
    rw [Form.Keeps] at known
    simp [Form.toJson, Form.ofJson?, Json.text?, known, Form.overlay]
  | _, .list item, xs, keeps, _, _, h => by
    rw [Form.Edits] at h
    subst h
    rw [Form.Keeps] at keeps
    rw [Form.toJson, Form.ofJson?, Json.items?, Option.bind_some, Form.overlay]
    refine mapM_map_eq_some fun x hx => ?_
    rw [item.ofJson?_of_edits x (keeps x hx) .nothing _ (item.edits_toJson x),
      item.overlay_nothing x (keeps x hx)]
  | _, .option item, none, _, _, _, h => by
    rw [Form.Edits] at h
    subst h
    rfl
  | _, .option item, some a, keeps, _, _, h => by
    rw [Form.Edits] at h
    subst h
    rw [Form.Keeps] at keeps
    obtain ⟨solid, keeps⟩ := keeps a rfl
    have inner := item.ofJson?_of_edits a keeps .nothing _ (item.edits_toJson a)
    rw [item.overlay_nothing a keeps] at inner
    have written := solid.kind_ne_null a
    rw [Form.toJson, Form.overlay]
    cases tree : item.toJson a with
    | null =>
      rw [tree] at written
      exact absurd rfl written
    | bool | number | string | array | object =>
      rw [Form.ofJson?, ← tree, inner]
      · rfl
      · exact nofun
  | _, .record name mayEndEarly fields build parts, a, keeps, omitted, tree, h => by
    rw [Form.Edits] at h
    obtain ⟨kept, further, members, rfl, perm, unknown, h⟩ := h
    rw [Form.Keeps] at keeps
    obtain ⟨-, distinct, keep⟩ := keeps
    have keptDistinct := (fields.keys_sublist_of_edits (parts a) h).nodup distinct
    have found : ∀ name ∈ fields.names, Members.get? members name = Members.get? kept name := by
      intro name known
      refine Members.get?_of_perm_append perm keptDistinct fun mem => ?_
      obtain ⟨member, hm, rfl⟩ := List.mem_map.1 mem
      exact unknown member hm known
    rw [Form.ofJson?,
      fields.ofMembers?_of_edits (parts a) keep distinct omitted kept members h found, Form.overlay]
    rfl

theorem Fields.ofMembers?_of_edits : {β σ : Type} → (fields : Fields β σ) → (b : β) →
    fields.Keep b → fields.names.Nodup → (omitted : Omission) → (kept members : Members) →
    fields.Edits b omitted kept → (∀ name ∈ fields.names, members.get? name = kept.get? name) →
    fields.ofMembers? members = some (fields.overlay omitted b)
  | _, _, .nil, _, _, _, _, _, _, _, _ => rfl
  | _, _, .cons name form fallback rest, (a, b), keep, distinct, omitted, kept, members, h,
      found => by
    rw [Fields.Keep] at keep
    obtain ⟨keeps, absent, keep⟩ := keep
    obtain ⟨notLater, distinctLater⟩ := List.nodup_cons.1 distinct
    obtain ⟨here, foundLater⟩ := List.forall_mem_cons.1 found
    rw [Fields.Edits] at h
    rw [Fields.ofMembers?, Fields.overlay, here]
    split at h
    · next out =>
      obtain ⟨hfallback, h⟩ := h
      obtain ⟨value, rfl⟩ := Option.isSome_iff_exists.1 hfallback
      have later := rest.ofMembers?_of_edits b keep distinctLater omitted kept members h
        foundLater
      rw [Fields.get?_eq_none_of_edits h notLater, later, if_pos out]
      rfl
    next within =>
    rw [if_neg within]
    split at h
    · next null =>
      have later := rest.ofMembers?_of_edits b keep distinctLater omitted kept members h
        foundLater
      rw [Fields.get?_eq_none_of_edits h notLater, later, absent null,
        form.overlay_of_null a _ null]
      rfl
    · obtain ⟨tree, later, rfl, tree', h⟩ := h
      have others : ∀ field ∈ rest.names, members.get? field = Members.get? later field := by
        intro field known
        rw [foundLater field known, Members.get?_cons, if_neg]
        rintro rfl
        exact notLater known
      have read := form.ofJson?_of_edits a keeps (omitted.within name) tree tree'
      rw [Members.get?_cons, if_pos rfl,
        rest.ofMembers?_of_edits b keep distinctLater omitted later members h others]
      simp only [read]
      rfl

end

/-- A value is read back from its tree. -/
theorem Form.ofJson?_toJson {α : Type} {form : Form α} {a : α} (keeps : form.Keeps a) :
    form.ofJson? (form.toJson a) = some a := by
  rw [form.ofJson?_of_edits a keeps .nothing _ (form.edits_toJson a), form.overlay_nothing a keeps]

end ServiceContract
