import ServiceContract.Proofs.Digits
import ServiceContract.Proofs.Form
import ServiceContract.Yaml.Reader

/-!
# The node of a tree

A tree is printed so that its text has one node for each of its values (`Yaml.toNode`): the node has
neither anchor nor tag, and its style is the one the text was written in. A value that its form
keeps is read back from the node of its tree, and no alias is followed on the way
(`Form.ofNode?_toNode`). The induction is the one for a JSON text: on the form, with a record going
through the states `Fields.slots`.
-/

namespace ServiceContract

namespace Yaml

/-- The style that a text of a style is read in. -/
def Style.scalarStyle : Style → ScalarStyle
  | plain => .plain
  | singleQuoted => .singleQuoted
  | doubleQuoted => .doubleQuoted
  | literal => .literal

/-- The node of a plain scalar. -/
def plainNode (text : String) : Node := .scalar none none .plain text

mutual

/-- The node of a value. -/
def toNode : Json → Node
  | .null => plainNode "null"
  | .bool true => plainNode "true"
  | .bool false => plainNode "false"
  | .number n => plainNode (String.ofList (numberChars n))
  | .string s => .scalar none none (Style.of false s).scalarStyle s
  | .array items => .sequence none none (toNodes items)
  | .object members => .mapping none none (toPairs members)

/-- The nodes of the items of a list. -/
def toNodes : List Json → List Node
  | [] => []
  | item :: items => toNode item :: toNodes items

/-- The nodes of the members of an object. -/
def toPairs : Members → List (Node × Node)
  | [] => []
  | (key, value) :: members => (plainNode key, toNode value) :: toPairs members

end

/-! ## Scalars -/

theorem foldl_digits (cs : List Char) (digits : ∀ c ∈ cs, c.isDigit = true) (value : Nat) :
    cs.foldl (fun value c => value.bind fun n => (Meaning.digit? 10 c).map (n * 10 + ·))
      (some value) = some (Nat.ofDigitChars 10 cs value) := by
  induction cs generalizing value with
  | nil => rfl
  | cons c cs ih =>
    obtain ⟨hc, hcs⟩ := List.forall_mem_cons.1 digits
    simp only [Char.isDigit, Bool.and_eq_true, decide_eq_true_eq, ge_iff_le] at hc
    have range : '0' ≤ c ∧ c ≤ '9' := hc
    have small : c.toNat - 48 < 10 := by
      have : c.toNat ≤ 57 := hc.2
      omega
    have digit : Meaning.digit? 10 c = some (c.toNat - 48) := by
      simp only [Meaning.digit?, if_pos range, if_pos small]
    rw [List.foldl_cons, Option.bind_some, digit, Option.map_some, ih hcs, Nat.ofDigitChars_cons,
      Nat.mul_comm]
    rfl

theorem unsigned?_toDigits (n : Nat) : Meaning.unsigned? (Nat.toDigits 10 n) = some n := by
  have value : Meaning.digits? 10 (Nat.toDigits 10 n) = some n := by
    obtain ⟨d, ds, h, -⟩ := exists_digit_toDigits n
    have := foldl_digits (Nat.toDigits 10 n) (isDigit_toDigits n) 0
    rw [Nat.ofDigitChars_ten_toDigits] at this
    rw [h] at this ⊢
    exact this
  by_cases zero : n = 0
  · subst zero
    rfl
  · obtain ⟨d, ds, h, first⟩ := head_toDigits n (by omega)
    have digit : d.isDigit = true := isDigit_toDigits n d (by simp [h])
    have unsigned : d ≠ '+' ∧ d ≠ '-' := by
      constructor <;> (rintro rfl; simp at digit)
    have padded : Meaning.isPaddedDigits (d :: ds) = false := by
      simp [Meaning.isPaddedDigits, first, unsigned]
    rw [h] at value ⊢
    unfold Meaning.unsigned?
    split
    · simp_all
    · simp_all
    · simp_all
    · rw [padded]
      exact value

theorem whole?_toDigits {n : Nat} (fits : n < Word.size64) :
    Meaning.whole? (Nat.toDigits 10 n) = some (n : Int) := by
  have small : n < Word.size128 := by
    simp only [Word.size64, Word.size128] at *
    omega
  have value := unsigned?_toDigits n
  obtain ⟨d, ds, h, digit⟩ := exists_digit_toDigits n
  rw [h] at value ⊢
  unfold Meaning.whole?
  split
  · simp_all
  · simp_all
  · rw [value, Option.bind_some, if_pos small]

theorem numberChars_ofNat (n : Nat) : numberChars (.whole n) = Nat.toDigits 10 n := by
  rw [numberChars, Json.intChars, if_neg (by omega), Int.natAbs_natCast]

/-- Only a text that means one is written plainly. -/
theorem ofPlain_of_plain {s : String} (h : Style.of false s = .plain) :
    Meaning.ofPlain s = .text := by
  have wanted : Style.wanted s = .plain := by
    unfold Style.of at h
    cases hw : Style.wanted s with
    | plain => rfl
    | singleQuoted | literal =>
      rw [hw] at h
      dsimp only at h
      repeat' split at h
      all_goals cases h
    | doubleQuoted =>
      rw [hw] at h
      cases h
  unfold Style.wanted at wanted
  split at wanted
  · cases wanted
  · split at wanted
    · assumption
    · cases wanted

theorem count?_toNode {n : Nat} (fits : n < Word.size64) : count? (toNode (.ofNat n)) = some n := by
  have unsigned : Word.isUnsigned64 n = true := by
    simp only [Word.isUnsigned64, Bool.and_eq_true, decide_eq_true_eq]
    omega
  simp [Json.ofNat, toNode, plainNode, count?, isPlainOr, numberChars_ofNat, whole?_toDigits fits,
    unsigned]

theorem flag?_toNode (b : Bool) : flag? (toNode (.bool b)) = some b := by
  cases b <;> rfl

/-- A plain text is not one of the words for nothing. -/
theorem not_null_of_text {s : String} (h : Meaning.ofPlain s = .text) :
    (s.isEmpty || Meaning.nullWords.contains s) = false := by
  cases null : s.isEmpty || Meaning.nullWords.contains s with
  | false => rfl
  | true =>
    rw [Meaning.ofPlain, if_pos null] at h
    cases h

theorem isAbsent?_text (s : String) : isAbsent? (toNode (.string s)) = some false := by
  rw [toNode]
  cases style : Style.of false s with
  | plain =>
    have notNull := not_null_of_text (ofPlain_of_plain style)
    simp only [Style.scalarStyle, isAbsent?, notNull]
  | singleQuoted | doubleQuoted | literal => rfl

theorem isAbsent?_ofNat (n : Nat) : isAbsent? (toNode (.ofNat n)) = some false := by
  obtain ⟨d, ds, h, digit⟩ := exists_digit_toDigits n
  have notWord : String.ofList (Nat.toDigits 10 n) ∉ Meaning.nullWords := by
    intro hm
    have words : ∀ w ∈ Meaning.nullWords, w.toList.head?.any Char.isDigit = false := by decide
    have first := words _ hm
    rw [String.toList_ofList, h, List.head?_cons, Option.any_some, digit] at first
    cases first
  have notEmpty : String.ofList (Nat.toDigits 10 n) ≠ "" := by
    intro empty
    have := congrArg String.toList empty
    simp [h] at this
  simp [Json.ofNat, toNode, plainNode, numberChars_ofNat, isAbsent?, notWord, notEmpty]

/-- What is written is not taken for nothing. -/
theorem isAbsent?_toNode {α : Type} {form : Form α} (solid : form.IsSolid) (a : α) :
    isAbsent? (toNode (form.toJson a)) = some false := by
  cases form with
  | option => exact solid.elim
  | text =>
    rw [Form.toJson]
    exact isAbsent?_text a
  | choice variants spell =>
    rw [Form.toJson]
    exact isAbsent?_text (spell a)
  | flag =>
    cases a <;> rfl
  | count =>
    exact isAbsent?_ofNat a
  | list | record =>
    rw [Form.toJson, toNode]
    rfl

theorem resolve?_toNode (source : Source) (jumps : Nat) (tree : Json) :
    source.resolve? jumps (toNode tree) = some (toNode tree, jumps) := by
  cases tree with
  | bool b => cases b <;> rfl
  | _ => rfl

end Yaml

open Yaml

variable {α β σ : Type} {source : Source}

theorem readItems_toNodes {read : Nat → Node → Option (α × Nat)} {write : α → Json} (xs : List α)
    (each : ∀ x ∈ xs, ∀ jumps, read jumps (toNode (write x)) = some (x, jumps)) (jumps : Nat) :
    readItems read jumps (toNodes (xs.map write)) = some (xs, jumps) := by
  induction xs with
  | nil => rfl
  | cons x xs ih =>
    obtain ⟨hx, hxs⟩ := List.forall_mem_cons.1 each
    rw [List.map_cons, toNodes, readItems]
    simp [hx, ih hxs]

/-- The pairs of a mapping fill their slots one after the other. -/
theorem foldlM_toPairs {fields : Fields β σ} {b : β} {jumps : Nat} {seen : List String}
    {step : σ × Nat → Node × Node → Option (σ × Nat)} (members : Members)
    (each : ∀ seen, ∀ m ∈ members, m.1 ∉ seen →
      step (fields.slots seen b, jumps) (plainNode m.1, toNode m.2) =
        some (fields.slots (m.1 :: seen) b, jumps))
    (distinct : members.keys.Nodup) (fresh : ∀ key ∈ members.keys, key ∉ seen) :
    (toPairs members).foldlM step (fields.slots seen b, jumps) =
      some (fields.slots (members.keys.reverse ++ seen) b, jumps) := by
  induction members generalizing seen with
  | nil => rfl
  | cons member members ih =>
    obtain ⟨key, value⟩ := member
    obtain ⟨hother, hdistinct⟩ := List.nodup_cons.1 distinct
    obtain ⟨hfresh, hfreshes⟩ := List.forall_mem_cons.1 fresh
    have unseen : ∀ k ∈ Members.keys members, k ∉ key :: seen := by
      intro k hk hseen
      rcases List.mem_cons.1 hseen with rfl | hseen
      · exact hother hk
      · exact hfreshes k hk hseen
    have later := ih (fun seen m hm => each seen m (List.mem_cons_of_mem _ hm)) hdistinct unseen
    have read : (Members.keys ((key, value) :: members)).reverse ++ seen =
        (Members.keys members).reverse ++ key :: seen := by
      simp [Members.keys]
    rw [toPairs, List.foldlM_cons, each seen (key, value) List.mem_cons_self hfresh, read]
    exact later

mutual

/-- A value is read from the node of its tree. -/
theorem Form.ofNode?_toNode : {α : Type} → (form : Form α) → (a : α) → form.Keeps a →
    ∀ jumps, form.ofNode? source jumps (toNode (form.toJson a)) = some (a, jumps)
  | _, .text, s, _, jumps => by
    rw [Form.toJson, toNode, Form.ofNode?]
    rfl
  | _, .flag, b, _, jumps => by
    rw [Form.toJson, Form.ofNode?, resolve?_toNode]
    simp only [Option.bind_some, flag?_toNode, Option.map_some]
  | _, .count, n, fits, jumps => by
    rw [Form.Keeps] at fits
    rw [Form.toJson, Form.ofNode?, resolve?_toNode]
    simp only [Option.bind_some, count?_toNode fits, Option.map_some]
  | _, .choice variants spell, a, known, jumps => by
    rw [Form.Keeps] at known
    rw [Form.toJson, toNode, Form.ofNode?]
    simp [Source.text?, Source.resolve?, known]
  | _, .list item, xs, keeps, jumps => by
    rw [Form.Keeps] at keeps
    rw [Form.toJson, Form.ofNode?, resolve?_toNode]
    simp only [Option.bind_some, toNode]
    exact readItems_toNodes xs (fun x hx jumps => item.ofNode?_toNode x (keeps x hx) jumps) jumps
  | _, .option item, none, _, jumps => by
    rw [Form.toJson, Form.ofNode?, resolve?_toNode, Option.bind_some]
    rfl
  | _, .option item, some a, keeps, jumps => by
    rw [Form.Keeps] at keeps
    obtain ⟨solid, keeps⟩ := keeps a rfl
    rw [Form.toJson, Form.ofNode?, resolve?_toNode]
    simp only [Option.bind_some, isAbsent?_toNode solid, item.ofNode?_toNode a keeps,
      Option.map_some]
  | _, .record name mayEndEarly fields build parts, a, keeps, jumps => by
    rw [Form.Keeps] at keeps
    obtain ⟨same, distinct, keep⟩ := keeps
    have complete : fields.complete
        (fields.slots (Members.present (fields.toMembers (parts a))).keys.reverse (parts a)) =
          .ok (parts a) := by
      refine fields.complete_slots (parts a) keep fun member hm => ?_
      rw [List.mem_reverse]
      exact List.mem_map_of_mem hm
    rw [Form.toJson, Form.ofNode?, resolve?_toNode]
    simp only [Option.bind_some, toNode]
    rw [← fields.slots_nil (parts a), foldlM_toPairs]
    · simp [complete, same]
    · intro seen member hm hfresh
      have hname := fields.mem_names_of_present (parts a) member hm
      have here := fields.fillFrom?_toNode (parts a) keep distinct seen jumps member
        (List.mem_filter.1 hm).1
      simp [Source.text?, Source.resolve?, plainNode, fields.filled?_slots (parts a) hname, hfresh,
        here]
    · exact (fields.keys_present_sublist (parts a)).nodup distinct
    · simp

/-- The slot of a field is filled from the node of its member. -/
theorem Fields.fillFrom?_toNode : {β σ : Type} → (fields : Fields β σ) → (b : β) →
    fields.Keep b → fields.names.Nodup → ∀ seen jumps, ∀ member ∈ fields.toMembers b,
    fields.fillFrom? source (fields.slots seen b) member.1 jumps (toNode member.2) =
      some (fields.slots (member.1 :: seen) b, jumps)
  | _, _, .nil, _, _, _, _, _, member, h => by
    rw [Fields.toMembers] at h
    cases h
  | _, _, .cons name form fallback rest, (a, b), keep, distinct, seen, jumps, member, h => by
    rw [Fields.Keep] at keep
    obtain ⟨keeps, -, keep⟩ := keep
    obtain ⟨absent, distinct⟩ := List.nodup_cons.1 distinct
    rw [Fields.toMembers] at h
    rcases List.mem_cons.1 h with rfl | h
    · have others : rest.slots (name :: seen) b = rest.slots seen b :=
        rest.slots_cons_of_not_mem b absent
      simp only [Fields.slots, Fields.fillFrom?, if_pos, form.ofNode?_toNode a keeps, others,
        List.mem_cons_self, Option.map_some]
    · have hname : member.1 ∈ rest.names := by
        rw [← rest.keys_toMembers b]
        exact List.mem_map_of_mem h
      have different : name ≠ member.1 := by
        rintro rfl
        exact absent hname
      simp only [Fields.slots, Fields.fillFrom?, List.mem_cons, different, false_or,
        rest.fillFrom?_toNode b keep distinct seen jumps member h, Option.map_some]
      rfl

end

/-! ## Other nodes -/

/-- A record whose last member has a node of its own, behind some of those that are written. -/
theorem Form.ofNode?_concat {name field : String} {mayEndEarly : Bool} {fields : Fields β σ}
    {build : β → α} {parts : α → β} {a read : α} {members : Members} {last : Node}
    {jumps left : Nat} (keeps : (Form.record name mayEndEarly fields build parts).Keeps a)
    (written : ∀ m ∈ members, m ∈ fields.toMembers (parts a))
    (distinct : (members.keys ++ [field]).Nodup) (known : field ∈ fields.names)
    (h : (Form.record name mayEndEarly fields build parts).ofNode? source jumps
      (.mapping none none (toPairs members ++ [(plainNode field, last)])) = some (read, left)) :
    ∃ slots b, fields.fillFrom? source (fields.slots members.keys.reverse (parts a)) field jumps
        last = some (slots, left) ∧ fields.complete slots = .ok b ∧ build b = read := by
  rw [Form.Keeps] at keeps
  obtain ⟨-, names, keep⟩ := keeps
  obtain ⟨keys, -, fresh⟩ := List.nodup_append.1 distinct
  have unread : field ∉ members.keys := fun hm => fresh field hm field (by simp) rfl
  have named : ∀ m ∈ members, m.1 ∈ fields.names := by
    intro m hm
    rw [← fields.keys_toMembers (parts a)]
    exact List.mem_map_of_mem (written m hm)
  have resolved (pairs : List (Node × Node)) :
      source.resolve? jumps (.mapping none none pairs) = some (.mapping none none pairs, jumps) :=
    rfl
  rw [Form.ofNode?, resolved, Option.bind_some] at h
  dsimp only at h
  rw [Option.bind_some, List.foldlM_append, ← fields.slots_nil (parts a), foldlM_toPairs] at h
  · have filled : fields.filled? (fields.slots members.keys.reverse (parts a)) field =
        some false := by
      rw [fields.filled?_slots (parts a) known]
      simpa using unread
    rw [List.append_nil] at h
    simp only [List.foldlM_cons, List.foldlM_nil, Source.text?, Source.resolve?, plainNode,
      Option.bind_some, Option.bind_eq_bind, filled, Option.bind_assoc] at h
    obtain ⟨⟨slots, jumps⟩, fill, h⟩ := Option.bind_eq_some_iff.1 h
    rw [Option.pure_def, Option.bind_some] at h
    dsimp only at h
    cases complete : fields.complete slots with
    | error missing =>
      rw [complete] at h
      cases h
    | ok b =>
      rw [complete] at h
      obtain ⟨rfl, rfl⟩ := Prod.mk.inj (Option.some.inj h)
      exact ⟨slots, b, fill, complete, rfl⟩
  · intro seen member hm hfresh
    have here : fields.fillFrom? source (fields.slots seen (parts a)) member.1 jumps _ = _ :=
      fields.fillFrom?_toNode (parts a) keep names seen jumps member (written member hm)
    have filled : fields.filled? (fields.slots seen (parts a)) member.1 = _ :=
      fields.filled?_slots (parts a) (named member hm)
    simp [Source.text?, Source.resolve?, plainNode, filled, hfresh, here]
  · exact keys
  · simp


/-- What an optional text is read as. -/
theorem Form.ofNode?_option_text_ne {style : ScalarStyle} {text t : String} {x : Option String}
    {jumps left : Nat} (differs : text ≠ t)
    (h : (Form.option .text).ofNode? source jumps (.scalar none none style text) = some (x, left)) :
    x ≠ some t := by
  rintro rfl
  rw [Form.ofNode?] at h
  simp only [Source.resolve?, Option.bind_some] at h
  split at h
  · cases h
  · cases h
  · rw [Form.ofNode?] at h
    simp only [Source.text?, Source.resolve?, Option.bind_some, Option.map_some,
      Option.some.injEq, Prod.mk.injEq] at h
    exact differs h.1

end ServiceContract
