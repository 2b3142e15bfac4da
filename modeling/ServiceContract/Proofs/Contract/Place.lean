import ServiceContract.Proofs.Contract.Fault

/-!
# The places of faults

Paths are plain concatenations, so a path alone can be read in several ways: `$.a[0]` is the first
entry of `a` and also the group `a[0]`. The code of a fault tells such readings apart, and then the
last brackets of the path enclose the position of the entry, whatever the keys are
(`Fault.steps_injective`).
-/

namespace ServiceContract

/-! ## Paths as texts -/

/-- The text of a step. -/
def Step.chars : Step → List Char
  | .member key => '.' :: key.toList
  | .item index => '[' :: (Nat.toDigits 10 index ++ [']'])

theorem Location.toList_follow (place : Location) (steps : List Step) :
    (place.follow steps).path.toList = place.path.toList ++ steps.flatMap Step.chars := by
  induction steps generalizing place with
  | nil => simp
  | cons step steps ih =>
    rw [follow_cons, ih, List.flatMap_cons, ← List.append_assoc]
    congr 1
    cases step <;> simp [Location.step, member, item, Step.chars, Nat.toList_repr]

/-- A list has one split at the last place of an item. -/
theorem split_at_last {α : Type} {c : α} {before after before' after' : List α}
    (h : c ∉ after) (h' : c ∉ after') (heq : before ++ c :: after = before' ++ c :: after') :
    before = before' ∧ after = after' := by
  rcases List.append_eq_append_iff.1 heq with ⟨d, rfl, hd⟩ | ⟨d, rfl, hd⟩
  · cases d with
    | nil => exact ⟨by simp, (List.cons.inj hd).2⟩
    | cons x d => exact absurd (by rw [(List.cons.inj hd).2]; simp) h
  · cases d with
    | nil => exact ⟨by simp, (List.cons.inj hd).2.symm⟩
    | cons x d => exact absurd (by rw [(List.cons.inj hd).2]; simp) h'

theorem bracket_notMem_toDigits (n : Nat) : '[' ∉ Nat.toDigits 10 n := fun h => by
  simpa using Nat.isDigit_of_mem_toDigits (by decide) (by decide) h

theorem toDigits_injective {m n : Nat} (h : Nat.toDigits 10 m = Nat.toDigits 10 n) : m = n :=
  calc m = Nat.ofDigitChars 10 (Nat.toDigits 10 m) 0 := Nat.ofDigitChars_ten_toDigits.symm
    _ = Nat.ofDigitChars 10 (Nat.toDigits 10 n) 0 := by rw [h]
    _ = n := Nat.ofDigitChars_ten_toDigits

namespace Contract

theorem bracket_notMem_steps : ∀ r ∈ serviceRules, ']' ∉ r.steps.flatMap Step.chars := by
  decide +kernel

theorem steps_of_chars : ∀ r ∈ serviceRules, ∀ q ∈ serviceRules,
    r.steps.flatMap Step.chars = q.steps.flatMap Step.chars → r.steps = q.steps := by
  decide +kernel

/-- The rule that a fault breaks is one of the rules for an entry. -/
def Fault.IsRuled : Fault → Prop
  | .entry _ _ _ rule => rule ∈ serviceRules
  | _ => True

theorem FirstFault.isRuled {scope : Scope} {document : Json} {fault : Fault}
    (h : FirstFault scope document fault) : fault.IsRuled := by
  cases h with
  | entry _ _ _ split =>
    show _ ∈ serviceRules
    rw [split]
    exact List.mem_append_right _ List.mem_cons_self
  | _ => trivial

/-- The codes of the rules are no codes of documents and groups. -/
theorem code_of_mem_serviceRules : ∀ r ∈ serviceRules,
    r.code ≠ .documentNotObject ∧ r.code ≠ .groupNotArray := by
  decide

theorem toList_path_group (key : String) :
    (Location.root.follow [.member key]).path.toList = '$' :: '.' :: key.toList := by
  rw [Location.toList_follow]
  simp [Location.root, Step.chars]

/-- The path from the root to a place in an entry, its three parts apart. -/
theorem toList_path_entry (key : String) (index : Nat) (steps : List Step) :
    (Location.root.follow (.member key :: .item index :: steps)).path.toList =
      (('$' :: '.' :: key.toList) ++ '[' :: Nat.toDigits 10 index) ++
        ']' :: steps.flatMap Step.chars := by
  rw [Location.toList_follow]
  simp [Location.root, Step.chars]

/-- The code and the path of a fault determine its place. -/
theorem Fault.steps_injective {f g : Fault} (hf : f.IsRuled) (hg : g.IsRuled)
    (hcode : f.code = g.code)
    (hpath : (Location.root.follow f.steps).path = (Location.root.follow g.steps).path) :
    f.steps = g.steps := by
  have hchars := congrArg String.toList hpath
  cases f with
  | document =>
    cases g with
    | document => rfl
    | group => cases hcode
    | entry _ _ _ rule => exact absurd hcode.symm (code_of_mem_serviceRules rule hg).1
  | group key =>
    cases g with
    | document => cases hcode
    | group key' =>
      simp only [steps] at hchars
      rw [toList_path_group, toList_path_group] at hchars
      have hkey : key = key' := String.toList_inj.1 (by simpa using hchars)
      rw [steps, steps, hkey]
    | entry _ _ _ rule => exact absurd hcode.symm (code_of_mem_serviceRules rule hg).2
  | entry key index value rule =>
    cases g with
    | document => exact absurd hcode (code_of_mem_serviceRules rule hf).1
    | group => exact absurd hcode (code_of_mem_serviceRules rule hf).2
    | entry key' index' value' rule' =>
      simp only [steps] at hchars
      rw [toList_path_entry, toList_path_entry] at hchars
      obtain ⟨hentry, hsteps⟩ := split_at_last (bracket_notMem_steps rule hf)
        (bracket_notMem_steps rule' hg) hchars
      obtain ⟨hkey, hindex⟩ := split_at_last (bracket_notMem_toDigits index)
        (bracket_notMem_toDigits index') hentry
      have hkey : key = key' := String.toList_inj.1 (by simpa using hkey)
      rw [steps, steps, hkey, toDigits_injective hindex, steps_of_chars rule hf rule' hg hsteps]

end Contract

end ServiceContract
