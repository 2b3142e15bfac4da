import Mathlib.Data.List.Forall2
import ServiceContract.Proofs.Contract.Scope

/-!
# The skeleton of a document

All that the check sees of a document is its skeleton: the keys in scope in their order, how many
entries a group has, and at each level which of the keys of the contract are there, with values of
which kinds. Documents with the same skeleton are judged alike, down to the defect
(`checkDocument_congr`).
-/

namespace ServiceContract

section Rel

variable {α : Type} {R S : α → α → Prop} {x y : Option α}

theorem isSome_eq_of_rel (h : Option.Rel R x y) : x.isSome = y.isSome := by
  cases h with
  | none => rfl
  | some => rfl

theorem rel_imp (imp : ∀ a b, R a b → S a b) (h : Option.Rel R x y) : Option.Rel S x y := by
  cases h with
  | none => exact .none
  | some h => exact .some (imp _ _ h)

theorem rel_self (refl : ∀ a, R a a) (x : Option α) : Option.Rel R x x := by
  cases x with
  | none => exact .none
  | some a => exact .some (refl a)

end Rel

namespace Contract

/-! ## What a check sees of an object -/

/-- Two objects agree on what they have under some keys, or two other values are of one kind. -/
inductive Agree (keys : List String) (inside : String → Json → Json → Prop) : Json → Json → Prop
  | object {members members' : Members}
      (under : ∀ key ∈ keys, Option.Rel (inside key) (members.get? key) (members'.get? key)) :
      Agree keys inside (.object members) (.object members')
  | other {value value' : Json} (kind : value.kind = value'.kind)
      (notObject : value.kind ≠ .object) : Agree keys inside value value'

/-- Values of one kind, which are alike besides under the key that the check goes down to. -/
def KindAnd (alike : Json → Json → Prop) (down key : String) (value value' : Json) : Prop :=
  value.kind = value'.kind ∧ (key = down → alike value value')

/-- The same of the keys `enabled` and `title` are there. -/
def SameProperties : Json → Json → Prop := Agree propertyKeys fun _ _ _ => True

/-- The same fields are there with values of the same kinds, and the properties are alike. -/
def SameSettings : Json → Json → Prop := Agree settingsFields (KindAnd SameProperties "properties")

/-- The same fields are there with values of the same kinds, and the settings are alike. -/
def SameService : Json → Json → Prop :=
  Agree serviceFields (KindAnd SameSettings "service_settings")

/-- Two groups have as many entries, each like the other's, or two other values are of one kind. -/
inductive SameGroup : Json → Json → Prop
  | array {entries entries' : List Json} (each : List.Forall₂ SameService entries entries') :
      SameGroup (.array entries) (.array entries')
  | other {value value' : Json} (kind : value.kind = value'.kind)
      (notArray : value.kind ≠ .array) : SameGroup value value'

/-- The same keys in the same order, with groups alike. -/
def SameGroups : Members → Members → Prop :=
  List.Forall₂ fun member member' => member.1 = member'.1 ∧ SameGroup member.2 member'.2

/-- Two documents have the same groups in scope, or two other values are of one kind. -/
inductive SameSkeleton (scope : Scope) : Json → Json → Prop
  | object {members members' : Members}
      (groups : SameGroups (scope.select members) (scope.select members')) :
      SameSkeleton scope (.object members) (.object members')
  | other {value value' : Json} (kind : value.kind = value'.kind)
      (notObject : value.kind ≠ .object) : SameSkeleton scope value value'

variable {code : ErrorCode} {what owner : String} {place : Location} {shape : Shape}
  {value value' : Json} {members members' : Members} {keys : List String}
  {inside : String → Json → Json → Prop} {scope : Scope}

theorem Agree.kind_eq (h : Agree keys inside value value') : value.kind = value'.kind := by
  cases h with
  | object => rfl
  | other kind => exact kind

theorem Agree.refl (refl : ∀ key value, inside key value value) (value : Json) :
    Agree keys inside value value := by
  cases value with
  | object members => exact .object fun key _ => rel_self (refl key) _
  | _ => exact .other rfl nofun

theorem SameProperties.refl (value : Json) : SameProperties value value :=
  Agree.refl (fun _ _ => trivial) value

theorem SameSettings.refl (value : Json) : SameSettings value value :=
  Agree.refl (fun _ target => ⟨rfl, fun _ => .refl target⟩) value

theorem SameService.refl (value : Json) : SameService value value :=
  Agree.refl (fun _ target => ⟨rfl, fun _ => .refl target⟩) value

theorem SameGroup.refl (value : Json) : SameGroup value value := by
  cases value with
  | array entries => exact .array (List.forall₂_same.2 fun entry _ => .refl entry)
  | _ => exact .other rfl nofun

theorem SameGroups.refl (members : Members) : SameGroups members members :=
  List.forall₂_same.2 fun member _ => ⟨rfl, .refl member.2⟩

/-! ## What is seen decides -/

theorem Shape.accepts_congr (h : value.kind = value'.kind) :
    shape.accepts value = shape.accepts value' := by
  rw [Shape.accepts, h, Shape.accepts]

theorem wrongShape_congr (h : value.kind = value'.kind) :
    Check.wrongShape code what shape value place =
      Check.wrongShape code what shape value' place := by
  rw [Check.wrongShape, h, Check.wrongShape]

/-- Only whether the listed fields are there matters to their presence. -/
theorem present_congr {fields : List String}
    (h : ∀ field ∈ fields, members.contains field = members'.contains field) :
    Check.present members fields code owner place =
      Check.present members' fields code owner place := by
  rw [Check.present, Check.present, ← List.head?_filter, ← List.head?_filter,
    List.filter_congr fun field hf => by rw [h field hf]]

/-- Only which of the listed fields are there, and the kinds of their values, matter to their
shapes. -/
theorem shaped_congr {fields : List (String × Shape)}
    (h : ∀ f ∈ fields, Option.Rel (fun value value' => value.kind = value'.kind)
      (members.get? f.1) (members'.get? f.1)) :
    Check.shaped members fields code owner place =
      Check.shaped members' fields code owner place := by
  induction fields with
  | nil => rfl
  | cons f fields ih =>
    obtain ⟨field, shape⟩ := f
    obtain ⟨hfield, hfields⟩ := List.forall_mem_cons.1 h
    rw [Check.shaped, Check.shaped, ih hfields, Check.misshapen?, Check.misshapen?]
    generalize members.get? field = found, members'.get? field = found' at hfield
    cases hfield with
    | none => rfl
    | @some value value' kind =>
      rw [Option.filter_some, Option.filter_some, Shape.accepts_congr kind]
      cases shape.accepts value' with
      | true => rfl
      | false => exact congrArg Except.error (wrongShape_congr kind)

theorem object_eq_error (h : value.kind ≠ .object) : Check.object value code what place =
    .error (Check.wrongShape code what .object value place) := by
  cases value with
  | object members => exact absurd rfl h
  | _ => rfl

theorem array_eq_error (h : value.kind ≠ .array) : Check.array value code what place =
    .error (Check.wrongShape code what .array value place) := by
  cases value with
  | array items => exact absurd rfl h
  | _ => rfl

/-- What is done with the members of an object gives one result for objects that agree, if it looks
at nothing else. -/
theorem object_bind_congr {next : Members → Except Defect Unit}
    (agree : Agree keys inside value value')
    (h : ∀ members members' : Members,
      (∀ key ∈ keys, Option.Rel (inside key) (members.get? key) (members'.get? key)) →
      next members = next members') :
    (Check.object value code what place >>= next) =
      (Check.object value' code what place >>= next) := by
  cases agree with
  | object under => exact h _ _ under
  | other kind notObject =>
    rw [object_eq_error notObject, object_eq_error (kind ▸ notObject), wrongShape_congr kind]

theorem checkProperties_congr (h : SameProperties value value') :
    checkProperties value place = checkProperties value' place :=
  object_bind_congr h fun _ _ under =>
    present_congr fun key hk => isSome_eq_of_rel (under key hk)

/-- A stage that looks for fields, at their shapes, and then goes down to one of them. -/
theorem stage_congr {alike : Json → Json → Prop} {down : String} {fields : List String}
    {shapes : List (String × Shape)} {code' code'' : ErrorCode} {next : Json → Except Defect Unit}
    (listed : ∀ f ∈ shapes, f.1 ∈ fields) (downIn : down ∈ fields)
    (agree : Agree fields (KindAnd alike down) value value')
    (h : ∀ target target', alike target target' → next target = next target') :
    let stage (value : Json) : Except Defect Unit := do
      let members ← Check.object value code what place
      Check.present members fields code' owner place
      Check.shaped members shapes code'' owner place
      match members.get? down with
      | some target => next target
      | none => .ok ()
    stage value = stage value' := by
  refine object_bind_congr agree fun members members' under => ?_
  have kinds : ∀ f ∈ shapes, Option.Rel (fun value value' => value.kind = value'.kind)
      (members.get? f.1) (members'.get? f.1) := fun f hf =>
    rel_imp (fun _ _ => And.left) (under f.1 (listed f hf))
  rw [present_congr fun key hk => isSome_eq_of_rel (under key hk), shaped_congr kinds]
  have target := under down downIn
  generalize members.get? down = found, members'.get? down = found' at target
  cases target with
  | none => rfl
  | some alike => simp only [h _ _ (alike.2 rfl)]

theorem checkSettings_congr (h : SameSettings value value') :
    checkSettings value place = checkSettings value' place :=
  stage_congr (by decide) (by decide) h fun _ _ => checkProperties_congr

theorem checkService_congr (h : SameService value value') :
    checkService value place = checkService value' place :=
  stage_congr (by decide) (by decide) h fun _ _ => checkSettings_congr

theorem checkEntries_congr {entries entries' : List Json}
    (each : List.Forall₂ SameService entries entries') (index : Nat) :
    checkEntries place index entries = checkEntries place index entries' := by
  induction each generalizing index with
  | nil => rfl
  | cons alike _ ih => rw [checkEntries, checkEntries, checkService_congr alike, ih]

theorem checkGroup_congr (h : SameGroup value value') (key : String) :
    checkGroup key value place = checkGroup key value' place := by
  cases h with
  | array each => exact checkEntries_congr each 0
  | other kind notArray =>
    rw [checkGroup, checkGroup, array_eq_error notArray, array_eq_error (kind ▸ notArray),
      wrongShape_congr kind]

theorem checkGroups_congr (h : SameGroups members members') :
    checkGroups scope place members = checkGroups scope place members' := by
  induction h with
  | nil => rfl
  | @cons member member' _ _ alike _ ih =>
    obtain ⟨key, value⟩ := member
    obtain ⟨key', value'⟩ := member'
    obtain ⟨rfl, group⟩ := alike
    rw [checkGroups, checkGroups, checkGroup_congr group, ih]

/-- Documents with the same skeleton are judged alike. -/
theorem checkDocument_congr (h : SameSkeleton scope value value') :
    checkDocument scope value place = checkDocument scope value' place := by
  cases h with
  | object groups =>
    show checkGroups scope place _ = checkGroups scope place _
    rw [checkGroups_eq_select, checkGroups_congr groups, ← checkGroups_eq_select]
  | other kind notObject =>
    rw [checkDocument, checkDocument, object_eq_error notObject,
      object_eq_error (kind ▸ notObject), wrongShape_congr kind]

end Contract

end ServiceContract
