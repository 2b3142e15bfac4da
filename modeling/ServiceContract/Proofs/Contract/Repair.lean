import ServiceContract.Proofs.Contract.Edit
import ServiceContract.Proofs.Contract.Scope
import ServiceContract.Proofs.Contract.Stages

/-!
# Repairing the first fault

The place of a defect can be repaired: what stands there is replaced by a value that conforms there,
or the missing member is added. All that the walk had found in order is in order still, and so is
everything at the place and behind it (`holds_setAt`). So the next fault, if there is one, comes
later in the walk, and however many repairs follow, no place is met twice (`repairs_move_on`).
-/

namespace ServiceContract.Contract

/-! ## What conforms at a place -/

/-- A value that conforms at some steps from an entry. Where the contract asks for no shape, every
value does. -/
def ConformsInEntry (steps : List Step) (value : Json) : Prop :=
  match steps with
  | [] => IsService value
  | [.member "service_settings"] => IsSettings value
  | [.member "service_settings", .member "properties"] => IsProperties value
  | steps => ∀ shape ∈ shapeInEntry? steps, shape.accepts value

/-- A value that conforms at some steps from a document. -/
def ConformsAt (scope : Scope) : List Step → Json → Prop
  | [], value => IsDocument scope value
  | [.member _], value => IsGroup value
  | .member _ :: .item _ :: steps, value => ConformsInEntry steps value
  | _, _ => False

/-- The rules that look at a place in an entry or past it, as rules for what stands there. -/
def rulesAt (steps : List Step) : List Rule :=
  (serviceRules.filter fun r => steps.isPrefixOf r.route).map fun r =>
    { r with route := r.route.drop steps.length }

theorem rulesAt_settings : rulesAt [.member "service_settings"] = settingsRules := by decide

theorem rulesAt_properties :
    rulesAt [.member "service_settings", .member "properties"] = propertiesRules := by decide

theorem mem_rulesAt {r : Rule} {steps more : List Step} (hr : r ∈ serviceRules)
    (route : r.route = steps ++ more) : { r with route := more } ∈ rulesAt steps := by
  refine List.mem_map.2 ⟨r, List.mem_filter.2 ⟨hr, ?_⟩, ?_⟩
  · rw [route]
    exact List.isPrefixOf_iff_prefix.2 (List.prefix_append ..)
  · rw [route, List.drop_left]

/-- Deeper in an entry than the properties, and beside them, a shape is all that is asked for. -/
theorem rulesAt_leaf : ∀ r ∈ serviceRules, r.steps = [] ∨ r.steps = [.member "service_settings"] ∨
    r.steps = [.member "service_settings", .member "properties"] ∨
    (rulesAt r.steps).all fun q => q.route.isEmpty && match q.demand with
      | .shape shape _ => shapeInEntry? r.steps == some shape
      | .member .. => false := by
  decide +kernel

variable {scope : Scope} {document entry value : Json} {r q : Rule} {key : String} {index : Nat}

/-- A value that conforms at the place of a rule keeps all rules for that place and behind it. -/
theorem ConformsInEntry.holds (conforms : ConformsInEntry r.steps value) (hr : r ∈ serviceRules) :
    ∀ q ∈ rulesAt r.steps, q.holds value := by
  have leaf := rulesAt_leaf r hr
  unfold ConformsInEntry at conforms
  split at conforms
  · next steps =>
    rw [steps]
    intro q hq
    obtain ⟨p, hp, rfl⟩ := List.mem_map.1 hq
    exact isService_iff.1 conforms p (List.mem_filter.1 hp).1
  · next steps =>
    rw [steps, rulesAt_settings]
    exact isSettings_iff.1 conforms
  · next steps =>
    rw [steps, rulesAt_properties]
    exact isProperties_iff.1 conforms
  · next notEntry notSettings notProperties =>
    have asked := ((leaf.resolve_left notEntry).resolve_left notSettings).resolve_left notProperties
    intro q hq
    have hshape := List.all_eq_true.1 asked q hq
    rw [Bool.and_eq_true, List.isEmpty_iff] at hshape
    obtain ⟨here, hshape⟩ := hshape
    cases hdemand : q.demand with
    | shape shape what =>
      rw [hdemand] at hshape
      rw [Rule.holds, here, hdemand]
      exact conforms shape (beq_iff_eq.1 hshape)
    | member => simp [hdemand] at hshape

/-! ## Repairing an entry -/

theorem Rule.steps_of_shape {shape : Shape} {what : String} (h : r.demand = .shape shape what) :
    r.steps = r.route := by
  rw [steps, h]

theorem Rule.steps_of_member {field owner : String} (h : r.demand = .member field owner) :
    r.steps = r.route ++ [.member field] := by
  rw [steps, h]

/-- After a repair a rule holds that held before, and so does every rule about the place. -/
theorem holds_setAt (canSet : Json.CanSet r.steps entry) (conforms : ConformsInEntry r.steps value)
    (hr : r ∈ serviceRules) (hq : q ∈ serviceRules) (h : q.holds entry ∨ q.steps = r.steps) :
    q.holds (Json.setAt r.steps value entry) := by
  by_cases within : r.steps <+: q.route
  · obtain ⟨more, route⟩ := within
    have holds := conforms.holds hr _ (mem_rulesAt hq route.symm)
    rw [Rule.holds, ← route, Json.at?_setAt_append canSet]
    exact holds
  · rcases h with held | same
    · obtain ⟨target, there, met⟩ := (Option.any_eq_true ..).1 held
      obtain ⟨grown, hgrown, grows⟩ := Json.exists_grown canSet within there value
      rw [Rule.holds, hgrown, Option.any_some]
      cases hdemand : q.demand with
      | shape shape what =>
        rw [hdemand] at met
        dsimp only
        rw [Shape.accepts, ← grows.kind]
        exact met
      | member field owner =>
        rw [hdemand] at met
        exact grows.member field met
    · -- The rule asks for the very member that was set.
      cases hdemand : q.demand with
      | shape shape what =>
        rw [Rule.steps_of_shape hdemand] at same
        exact absurd (same ▸ List.prefix_rfl) within
      | member field owner =>
        have there : (Json.setAt r.steps value entry).at? (q.route ++ [.member field]) =
            some value := by
          rw [← Rule.steps_of_member hdemand, same]
          exact Json.at?_setAt canSet value
        rw [Json.at?_append] at there
        obtain ⟨target, htarget, hfield⟩ := Option.bind_eq_some_iff.1 there
        obtain ⟨_, inner, rfl, hinner, -⟩ := Json.at?_member_eq_some.1 hfield
        rw [Rule.holds, htarget, hdemand, Option.any_some]
        exact Option.isSome_iff_exists.2 ⟨inner, hinner⟩

/-- The place of the first rule that an entry breaks can be repaired. -/
theorem FirstBroken.canSet (first : FirstBroken serviceRules entry r) :
    Json.CanSet r.steps entry := by
  obtain ⟨kept, rest, split, keeps, -⟩ := first
  have ready := isReady_of_split split
  cases hdemand : r.demand with
  | shape shape what =>
    obtain ⟨target, there⟩ := Rule.exists_shape_target ready keeps hdemand
    rw [Rule.steps_of_shape hdemand]
    exact Json.canSet_of_at? there
  | member field owner =>
    obtain ⟨members, there⟩ := Rule.exists_object_target ready keeps hdemand
    rw [Rule.steps_of_member hdemand]
    exact Json.canSet_member there field

theorem FirstBroken.mem {rules : List Rule} (first : FirstBroken rules entry r) : r ∈ rules := by
  obtain ⟨kept, rest, rfl, -⟩ := first
  simp

/-! ## Later in a list -/

theorem idxOf_of_split {α : Type} [BEq α] [LawfulBEq α] {before after : List α} {x : α}
    (distinct : (before ++ x :: after).Nodup) : (before ++ x :: after).idxOf x = before.length := by
  have absent : x ∉ before := fun h =>
    (List.nodup_append.1 distinct).2.2 x h x List.mem_cons_self rfl
  rw [List.idxOf_append, if_neg absent, List.idxOf_cons_self, Nat.zero_add]

/-- An item that is neither among the first ones of a list nor the next one comes later. -/
theorem idxOf_lt_of_split {α : Type} [BEq α] [LawfulBEq α] {before after : List α} {x y : α}
    (distinct : (before ++ x :: after).Nodup) (notBefore : y ∉ before) (other : y ≠ x) :
    (before ++ x :: after).idxOf x < (before ++ x :: after).idxOf y := by
  rw [idxOf_of_split distinct, List.idxOf_append, if_neg notBefore, List.idxOf_cons,
    beq_false_of_ne (Ne.symm other), cond_false]
  omega

theorem serviceRules_nodup : serviceRules.Nodup := by decide +kernel

/-- Another rule that an entry breaks comes behind the first one. -/
theorem FirstBroken.idxOf_lt (first : FirstBroken serviceRules entry r)
    (breaks : q.holds entry = false) (other : q ≠ r) :
    serviceRules.idxOf r < serviceRules.idxOf q := by
  obtain ⟨kept, rest, split, keeps, -⟩ := first
  have distinct := serviceRules_nodup
  rw [split] at distinct ⊢
  refine idxOf_lt_of_split distinct (fun mem => ?_) other
  rw [keeps q mem] at breaks
  cases breaks

/-- What a repaired entry breaks it has broken before, at another place. -/
theorem FirstBroken.breaks_of_setAt (first : FirstBroken serviceRules entry r)
    (conforms : ConformsInEntry r.steps value) (asked : q ∈ serviceRules)
    (breaks : q.holds (Json.setAt r.steps value entry) = false) :
    q.holds entry = false ∧ q.steps ≠ r.steps := by
  have mended (h : q.holds entry ∨ q.steps = r.steps) : False := by
    rw [holds_setAt first.canSet conforms first.mem asked h] at breaks
    cases breaks
  exact ⟨Bool.eq_false_iff.2 fun h => mended (.inl h), fun same => mended (.inr same)⟩

/-! ## Where something is wrong -/

/-- Where the contract can be broken. -/
inductive Site where
  | document
  | group (key : String)
  | entry (key : String) (index : Nat) (rule : Rule)

namespace Site

/-- The steps from the document to the place of the defect. -/
def steps : Site → List Step
  | .document => []
  | .group key => [.member key]
  | .entry key index rule => .member key :: .item index :: rule.steps

/-- When the walk through a document with some keys comes there: the position of the group, that of
the entry, and the rank of the rule. Positions are compared from the left. -/
def position (keys : List String) : Site → List Nat
  | .document => []
  | .group key => [keys.idxOf key]
  | .entry key index rule => [keys.idxOf key, index, serviceRules.idxOf rule]

end Site

/-- Where the fault is. -/
def Fault.site : Fault → Site
  | .document _ => .document
  | .group key _ => .group key
  | .entry key index _ rule => .entry key index rule

theorem Fault.steps_site (fault : Fault) : fault.site.steps = fault.steps := by
  cases fault <;> rfl

/-- A document breaks the contract at a site, whether or not the walk gets that far. -/
inductive Broken (scope : Scope) : Json → Site → Prop
  | document {value : Json} (notObject : value.kind ≠ .object) : Broken scope value .document
  | group {members : Members} {key : String} {value : Json} (mem : (key, value) ∈ members)
      (inScope : scope.includes key) (notArray : value.kind ≠ .array) :
      Broken scope (.object members) (.group key)
  | entry {members : Members} {key : String} {entries : List Json} {index : Nat} {entry : Json}
      {rule : Rule} (mem : (key, .array entries) ∈ members) (inScope : scope.includes key)
      (there : entries[index]? = some entry) (asked : rule ∈ serviceRules)
      (breaks : rule.holds entry = false) : Broken scope (.object members) (.entry key index rule)

variable {fault next : Fault} {site : Site} {members : Members}

theorem not_isService_of_breaks (asked : q ∈ serviceRules) (breaks : q.holds entry = false) :
    ¬IsService entry := fun conforms => by
  rw [isService_iff.1 conforms q asked] at breaks
  cases breaks

theorem not_isGroup_of_breaks {entries : List Json} (there : entries[index]? = some entry)
    (asked : q ∈ serviceRules) (breaks : q.holds entry = false) : ¬IsGroup (.array entries) := by
  rintro ⟨conform⟩
  exact not_isService_of_breaks asked breaks (conform entry (List.mem_of_getElem? there))

theorem not_isGroup_of_notArray (notArray : value.kind ≠ .array) : ¬IsGroup value := by
  rintro ⟨-⟩
  exact notArray rfl

/-- A broken site of an object is in one of its groups. -/
theorem Broken.exists_group (h : Broken scope (.object members) site) :
    ∃ key value steps, (key, value) ∈ members ∧ scope.includes key ∧ ¬IsGroup value ∧
      site.steps = .member key :: steps := by
  cases h with
  | document notObject => exact absurd rfl notObject
  | group mem inScope notArray =>
    exact ⟨_, _, _, mem, inScope, not_isGroup_of_notArray notArray, rfl⟩
  | entry mem inScope there asked breaks =>
    exact ⟨_, _, _, mem, inScope, not_isGroup_of_breaks there asked breaks, rfl⟩

theorem Broken.not_isDocument (h : Broken scope document site) : ¬IsDocument scope document := by
  rintro ⟨conform⟩
  obtain ⟨key, value, -, mem, inScope, bad, -⟩ := h.exists_group
  exact bad (conform (key, value) mem inScope)

theorem FirstFault.broken (h : FirstFault scope document fault) :
    Broken scope document fault.site := by
  cases h with
  | document notObject => exact .document notObject
  | group _ inScope notArray => exact .group (by simp) inScope notArray
  | @entry _ _ _ passed later entry _ _ _ _ inScope _ split _ breaks =>
    have there : (passed ++ entry :: later)[passed.length]? = some entry := by simp
    exact .entry (by simp) inScope there (by rw [split]; simp) breaks

/-! ## The first of the broken sites -/

/-- Once the groups up to some group are in order, what is broken is in it or comes later. -/
theorem Broken.here_or_later {before after : Members}
    (distinct : (before ++ (key, value) :: after : Members).keys.Nodup)
    (inOrder : ∀ member ∈ before, scope.includes member.1 → IsGroup member.2)
    (h : Broken scope (.object (before ++ (key, value) :: after)) site) :
    Broken scope (.object [(key, value)]) site ∨
      ∃ later inside, site.position (before ++ (key, value) :: after : Members).keys =
        later :: inside ∧ (before ++ (key, value) :: after : Members).keys.idxOf key < later := by
  have later {other : String} {value' : Json} (mem : (other, value') ∈ after) :
      (before ++ (key, value) :: after : Members).keys.idxOf key <
        (before ++ (key, value) :: after : Members).keys.idxOf other := by
    have mem : other ∈ after.map (·.1) := List.mem_map_of_mem mem
    simp only [Members.keys, List.map_append, List.map_cons] at distinct ⊢
    obtain ⟨-, following, apart⟩ := List.nodup_append.1 distinct
    refine idxOf_lt_of_split distinct (fun h => ?_) fun same => ?_
    · exact apart other h other (List.mem_cons_of_mem _ mem) rfl
    · exact (List.nodup_cons.1 following).1 (same ▸ mem)
  cases h with
  | document notObject => exact absurd rfl notObject
  | group mem inScope notArray =>
    rcases List.mem_append.1 mem with mem | mem
    · exact absurd (inOrder _ mem inScope) (not_isGroup_of_notArray notArray)
    · rcases List.mem_cons.1 mem with same | mem
      · obtain ⟨rfl, rfl⟩ := Prod.mk.inj same
        exact .inl (.group (by simp) inScope notArray)
      · exact .inr ⟨_, _, rfl, later mem⟩
  | entry mem inScope there asked breaks =>
    rcases List.mem_append.1 mem with mem | mem
    · exact absurd (inOrder _ mem inScope) (not_isGroup_of_breaks there asked breaks)
    · rcases List.mem_cons.1 mem with same | mem
      · obtain ⟨rfl, rfl⟩ := Prod.mk.inj same
        exact .inl (.entry (by simp) inScope there asked breaks)
      · exact .inr ⟨_, _, rfl, later mem⟩

/-- The walk meets the first fault before it comes to any other broken site. -/
theorem FirstFault.before (distinct : document.KeysDistinct)
    (first : FirstFault scope document fault) (h : Broken scope document site)
    (elsewhere : site.steps ≠ fault.steps) :
    fault.site.position document.keys < site.position document.keys := by
  cases first with
  | document notObject =>
    cases h with
    | document => exact absurd rfl elsewhere
    | group | entry => exact absurd rfl notObject
  | group inOrder inScope notArray =>
    rcases h.here_or_later (distinct _ rfl) inOrder with here | ⟨later, inside, position, lt⟩
    · exfalso
      cases here with
      | document notObject => exact notObject rfl
      | group mem =>
        obtain rfl := (Prod.mk.inj (List.mem_singleton.1 mem)).1
        exact elsewhere rfl
      | entry mem =>
        obtain rfl := (Prod.mk.inj (List.mem_singleton.1 mem)).2
        exact notArray rfl
    · show _ < site.position (Members.keys _)
      rw [position]
      exact List.cons_lt_cons_iff.2 (.inl lt)
  | @entry before after key passed later entry kept rest rule inOrder inScope conform split keeps
      breaks =>
    have broken : FirstBroken serviceRules entry rule := ⟨kept, rest, split, keeps, breaks⟩
    rcases h.here_or_later (distinct _ rfl) inOrder with here | ⟨later, inside, position, lt⟩
    · cases here with
      | document notObject => exact absurd rfl notObject
      | group mem inScope notArray =>
        obtain rfl := (Prod.mk.inj (List.mem_singleton.1 mem)).2
        exact absurd rfl notArray
      | @entry _ _ entries index entry' q mem inScope there asked breaks =>
        obtain ⟨rfl, harray⟩ := Prod.mk.inj (List.mem_singleton.1 mem)
        obtain rfl := Json.array.inj harray
        refine List.cons_lt_cons_iff.2 (.inr ⟨rfl, List.cons_lt_cons_iff.2 ?_⟩)
        rcases Nat.lt_trichotomy passed.length index with after | same | before
        · exact .inl after
        · -- In the same entry it is a rule behind the one that is broken first.
          subst same
          obtain rfl : entry = entry' := by simpa using there
          have other : q ≠ rule := by
            rintro rfl
            exact elsewhere rfl
          exact .inr ⟨rfl, List.cons_lt_cons_iff.2 (.inl (broken.idxOf_lt breaks other))⟩
        · rw [List.getElem?_append_left before] at there
          exact absurd (conform entry' (List.mem_of_getElem? there))
            (not_isService_of_breaks asked breaks)
    · show _ < site.position (Members.keys _)
      rw [position]
      exact List.cons_lt_cons_iff.2 (.inl lt)

/-! ## Repairs -/

/-- What a repaired document breaks it has broken before, and elsewhere. -/
theorem FirstFault.broken_of_setAt (distinct : document.KeysDistinct)
    (first : FirstFault scope document fault) (conforms : ConformsAt scope fault.steps value)
    (h : Broken scope (Json.setAt fault.steps value document) site) :
    Broken scope document site ∧ site.steps ≠ fault.steps := by
  have elsewhere {key field : String} {steps more : List Step} (different : field ≠ key) :
      Step.member field :: steps ≠ .member key :: more := fun same =>
    different (Step.member.inj (List.cons.inj same).1)
  cases first with
  | document notObject => exact absurd conforms h.not_isDocument
  | group inOrder inScope notArray =>
    cases h with
    | document notObject => exact absurd rfl notObject
    | group mem inScope notArray =>
      rcases Members.mem_put (distinct _ rfl) mem with ⟨-, rfl⟩ | ⟨different, mem⟩
      · exact absurd conforms (not_isGroup_of_notArray notArray)
      · exact ⟨.group mem inScope notArray, elsewhere different⟩
    | entry mem inScope there asked breaks =>
      rcases Members.mem_put (distinct _ rfl) mem with ⟨-, rfl⟩ | ⟨different, mem⟩
      · exact absurd conforms (not_isGroup_of_breaks there asked breaks)
      · exact ⟨.entry mem inScope there asked breaks, elsewhere different⟩
  | @entry before after key passed later entry kept rest rule inOrder inScope conform split keeps
      breaks =>
    have first : FirstBroken serviceRules entry rule := ⟨kept, rest, split, keeps, breaks⟩
    have there := Members.get?_of_distinct (distinct _ rfl)
    rw [Fault.steps, Json.setAt, there, Option.getD_some, Json.setAt] at h
    cases h with
    | document notObject => exact absurd rfl notObject
    | group mem inScope notArray =>
      rcases Members.mem_put (distinct _ rfl) mem with ⟨-, rfl⟩ | ⟨different, mem⟩
      · exact absurd rfl notArray
      · exact ⟨.group mem inScope notArray, elsewhere different⟩
    | @entry _ field _ index entry' q mem inScope there asked breaks =>
      rcases Members.mem_put (distinct _ rfl) mem with ⟨same, harray⟩ | ⟨different, mem⟩
      · subst same
        obtain rfl := Json.array.inj harray
        have old {entry' : Json} (there : (passed ++ entry :: later)[index]? = some entry')
            (breaks : q.holds entry' = false) :
            Broken scope (.object (before ++ (field, .array (passed ++ entry :: later)) :: after))
              (.entry field index q) :=
          .entry (by simp) inScope there asked breaks
        by_cases same : index = passed.length
        · subst same
          obtain rfl : Json.setAt rule.steps value entry = entry' := by simpa using there
          obtain ⟨broken, other⟩ := first.breaks_of_setAt conforms asked breaks
          exact ⟨old (by simp) broken, fun same => other (List.cons.inj (List.cons.inj same).2).2⟩
        · refine ⟨old (by simpa [Ne.symm same] using there) breaks, fun h => same ?_⟩
          exact Step.item.inj (List.cons.inj (List.cons.inj h).2).1
      · exact ⟨.entry mem inScope there asked breaks, elsewhere different⟩

/-- The groups keep their order, so positions before and after a repair can be compared. -/
theorem FirstFault.keys_setAt (distinct : document.KeysDistinct)
    (first : FirstFault scope document fault) (conforms : ConformsAt scope fault.steps value)
    (h : Broken scope (Json.setAt fault.steps value document) site) :
    (Json.setAt fault.steps value document).KeysDistinct ∧
      (Json.setAt fault.steps value document).keys = document.keys := by
  have inGroup {members : Members} {key : String} (distinct : (Json.object members).KeysDistinct)
      (known : key ∈ members.keys) (steps : List Step) :
      (Json.setAt (.member key :: steps) value (.object members)).KeysDistinct ∧
        (Json.setAt (.member key :: steps) value (.object members)).keys = members.keys := by
    have keys (new : Json) : (members.put key new).keys = members.keys := Members.keys_put known
    refine ⟨fun members' h => ?_, keys _⟩
    obtain rfl := Json.object.inj h
    rw [keys]
    exact distinct _ rfl
  cases first with
  | document => exact absurd conforms h.not_isDocument
  | group => exact inGroup distinct (by simp [Members.keys]) _
  | entry => exact inGroup distinct (by simp [Members.keys]) _

/-- One fault is met before another one in a document with some keys, and elsewhere. -/
def Fault.Precedes (keys : List String) (fault later : Fault) : Prop :=
  fault.site.position keys < later.site.position keys ∧ fault.steps ≠ later.steps

theorem FirstFault.precedes (distinct : document.KeysDistinct)
    (first : FirstFault scope document fault) (conforms : ConformsAt scope fault.steps value)
    (h : Broken scope (Json.setAt fault.steps value document) next.site) :
    fault.Precedes document.keys next := by
  obtain ⟨old, elsewhere⟩ := first.broken_of_setAt distinct conforms h
  rw [Fault.steps_site] at elsewhere
  exact ⟨first.before distinct old (by rwa [Fault.steps_site]), Ne.symm elsewhere⟩

/-- Documents that become one another by repairing first faults, with these faults. -/
inductive Repairs (scope : Scope) : Json → List Fault → Json → Prop
  | none (document : Json) : Repairs scope document [] document
  | repair {document document' value : Json} {fault : Fault} {faults : List Fault}
      (first : FirstFault scope document fault) (conforms : ConformsAt scope fault.steps value)
      (rest : Repairs scope (Json.setAt fault.steps value document) faults document') :
      Repairs scope document (fault :: faults) document'

variable {document' : Json} {faults : List Fault}

/-- What is found in the course of repairs was broken from the start. -/
theorem Repairs.broken (h : Repairs scope document faults document')
    (distinct : document.KeysDistinct) : ∀ fault ∈ faults, Broken scope document fault.site := by
  induction h with
  | none => exact nofun
  | @repair document document' value fault faults first conforms rest ih =>
    intro later mem
    rcases List.mem_cons.1 mem with rfl | mem
    · exact first.broken
    · cases rest with
      | none => cases mem
      | repair next =>
        have distinct' := (first.keys_setAt distinct conforms next.broken).1
        exact (first.broken_of_setAt distinct conforms (ih distinct' later mem)).1

/-- In the course of repairs the faults come later and later, each at a new place. -/
theorem Repairs.pairwise (h : Repairs scope document faults document')
    (distinct : document.KeysDistinct) : faults.Pairwise (Fault.Precedes document.keys) := by
  induction h with
  | none => exact .nil
  | @repair document document' value fault faults first conforms rest ih =>
    cases rest with
    | none => exact List.pairwise_singleton ..
    | repair next conforms' rest' =>
      obtain ⟨distinct', keys⟩ := first.keys_setAt distinct conforms next.broken
      refine .cons (fun later mem => ?_) (keys ▸ ih distinct')
      exact first.precedes distinct conforms
        ((Repairs.repair next conforms' rest').broken distinct' later mem)

/-- A repair of the first fault leaves a document that passes, or whose first fault is met later and
elsewhere. However many repairs follow, the faults come later and later, each at a new place. -/
theorem repairs_move_on (distinct : document.KeysDistinct) {e : Defect}
    (rejected : check scope document = .error e) :
    (∃ fault, FirstFault scope document fault) ∧ ∀ fault, FirstFault scope document fault →
      e = fault.defect .root ∧
      (∀ value, ConformsAt scope fault.steps value →
        check scope (Json.setAt fault.steps value document) = .ok () ∨
        ∃ next, FirstFault scope (Json.setAt fault.steps value document) next ∧
          check scope (Json.setAt fault.steps value document) = .error (next.defect .root) ∧
          fault.Precedes document.keys next) ∧
      ∀ faults document', Repairs scope document faults document' →
        faults.Pairwise (Fault.Precedes document.keys) := by
  obtain ⟨fault, first, -⟩ := checkDocument_eq_error_iff.1 rejected
  refine ⟨⟨fault, first⟩, fun fault first => ⟨?_, fun value conforms => ?_, fun _ _ h => ?_⟩⟩
  · exact Except.error.inj
      (rejected.symm.trans (checkDocument_eq_error_iff.2 ⟨fault, first, rfl⟩))
  · cases verdict : check scope (Json.setAt fault.steps value document) with
    | ok => exact .inl rfl
    | error e =>
      obtain ⟨next, hnext, rfl⟩ := checkDocument_eq_error_iff.1 verdict
      exact .inr ⟨next, hnext, rfl, first.precedes distinct conforms hnext.broken⟩
  · exact h.pairwise distinct

/-- A document with an entry that has nothing, and a group that is none. -/
def bareDocument : Json := .object [("shipping", .array [.object []]), ("taxes", .null)]

/-- The entry lacks its first member. -/
def bareFault : Fault :=
  .entry "shipping" 0 (.object []) (.member .servicePropertyMissing "service" "id")

theorem firstFault_bareDocument : FirstFault .all bareDocument bareFault := by
  show FirstFault _ (.object ([] ++ ("shipping", .array ([] ++ .object [] :: [])) ::
    [("taxes", .null)])) (.entry "shipping" ([] : List Json).length (.object []) _)
  have split : serviceRules = serviceRules.take 1 ++
      .member .servicePropertyMissing "service" "id" :: serviceRules.drop 2 := by rfl
  exact .entry (by simp) rfl (by simp) split (by decide) (by decide)

theorem repairs_move_on_bareDocument :
    bareDocument.KeysDistinct ∧ check .all bareDocument = .error (bareFault.defect .root) ∧
    FirstFault .all bareDocument bareFault ∧ ConformsAt .all bareFault.steps (.string "flat") ∧
    ∃ next, FirstFault .all (Json.setAt bareFault.steps (.string "flat") bareDocument) next ∧
      check .all (Json.setAt bareFault.steps (.string "flat") bareDocument) =
        .error (next.defect .root) ∧
      bareFault.Precedes bareDocument.keys next := by
  have distinct : bareDocument.KeysDistinct := by
    intro members h
    cases h
    decide
  have rejected : check .all bareDocument = .error (bareFault.defect .root) := by rfl
  have conforms : ConformsAt .all bareFault.steps (.string "flat") := by
    intro shape h
    cases h
    rfl
  obtain ⟨-, repaired, -⟩ := (repairs_move_on distinct rejected).2 _ firstFault_bareDocument
  refine ⟨distinct, rejected, firstFault_bareDocument, conforms, ?_⟩
  exact (repaired _ conforms).resolve_left (fun passed => by cases passed)

end ServiceContract.Contract
