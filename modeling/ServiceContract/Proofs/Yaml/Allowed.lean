import ServiceContract.Proofs.Yaml.Tokens

/-!
# What is written is allowed

A text may hold only some characters at all. The printer writes printable ones and escapes the
others, so whatever a tree holds, its text can be read.
-/

namespace ServiceContract.Yaml

variable {c : Char} {cs cs' : List Char} {n : Nat}

/-- A text of characters that may be read. -/
def Allowed (cs : List Char) : Prop := ∀ c ∈ cs, isAllowed c = true

instance (cs : List Char) : Decidable (Allowed cs) :=
  decidable_of_iff (cs.all isAllowed = true) List.all_eq_true

theorem isAllowed_of_printable (h : isPrintable c = true) : isAllowed c = true := by
  simp only [isPrintable, isAllowed, Bool.or_eq_true, Bool.and_eq_true, decide_eq_true_eq,
    beq_iff_eq] at h ⊢
  omega

theorem allowed_of_printable (h : ∀ c ∈ cs, isPrintable c = true) : Allowed cs :=
  fun c hc => isAllowed_of_printable (h c hc)

@[simp] theorem allowed_nil : Allowed [] := nofun

@[simp] theorem allowed_cons : Allowed (c :: cs) ↔ isAllowed c = true ∧ Allowed cs := by
  simp [Allowed]

@[simp] theorem allowed_append : Allowed (cs ++ cs') ↔ Allowed cs ∧ Allowed cs' := by
  simp [Allowed, or_imp, forall_and]

@[simp] theorem allowed_spaces (n : Nat) : Allowed (spaces n) := by
  intro c hc
  rw [List.eq_of_mem_replicate hc]
  rfl

theorem allowed_endLine (h : Allowed cs) : Allowed (endLine cs) := by
  unfold endLine
  split
  · exact h
  · exact allowed_append.2 ⟨h, by simp; rfl⟩

/-! ## Texts -/

theorem allowed_indentLines {write : Char → List Char} (each : ∀ c ∈ cs, Allowed (write c))
    (breaks : Allowed cs) (fresh : Bool) : Allowed (indentLines n write fresh cs) := by
  induction cs generalizing fresh with
  | nil => exact allowed_nil
  | cons c cs ih =>
    obtain ⟨hc, hcs⟩ := List.forall_mem_cons.1 each
    obtain ⟨here, others⟩ := allowed_cons.1 breaks
    rw [indentLines]
    split
    · exact allowed_cons.2 ⟨here, ih hcs others true⟩
    · have indentation : Allowed (if fresh then spaces n else []) := by
        split
        · exact allowed_spaces n
        · exact allowed_nil
      exact allowed_append.2 ⟨allowed_append.2 ⟨indentation, hc⟩, ih hcs others false⟩

theorem allowed_singleQuoted (h : Allowed cs) : Allowed (singleQuoted n cs) := by
  have each : ∀ c ∈ cs, Allowed (writeSingle c) := by
    intro c hc
    unfold writeSingle
    split
    · decide
    · exact allowed_cons.2 ⟨h c hc, allowed_nil⟩
  have lines := allowed_indentLines each h false (n := n)
  rw [singleQuoted]
  split <;> simp [lines] <;> rfl

theorem allowed_upperHex (width n : Nat) : Allowed (upperHex width n) := by
  have digit : ∀ d < 16, isAllowed d.digitChar.toUpper = true := by decide
  have digits (n : Nat) : Allowed ((Nat.toDigits 16 n).map Char.toUpper) := by
    induction n using Nat.strongRecOn with
    | ind n ih =>
      rw [Nat.toDigits_eq_if (by omega)]
      split
      · rename_i small
        simpa using digit n small
      · rw [List.map_append]
        refine allowed_append.2 ⟨ih (n / 16) (by omega), ?_⟩
        simpa using digit (n % 16) (by omega)
  rw [upperHex]
  refine allowed_append.2 ⟨?_, digits n⟩
  intro c hc
  rw [List.eq_of_mem_replicate hc]
  rfl

theorem allowed_writeDouble (c : Char) : Allowed (writeDouble c) := by
  unfold writeDouble
  split
  · rename_i plain
    simp only [Bool.and_eq_true] at plain
    exact allowed_cons.2 ⟨isAllowed_of_printable plain.1.1.1, allowed_nil⟩
  · split
    case h_15 =>
      repeat' split
      all_goals
        exact allowed_cons.2 ⟨rfl, allowed_cons.2 ⟨rfl, allowed_upperHex _ _⟩⟩
    all_goals decide

theorem allowed_doubleQuoted (cs : List Char) : Allowed (doubleQuoted cs) := by
  have body : Allowed (cs.flatMap writeDouble) := by
    intro c hc
    obtain ⟨d, -, hd⟩ := List.mem_flatMap.1 hc
    exact allowed_writeDouble d c hd
  rw [doubleQuoted]
  simp [body]
  rfl

theorem allowed_literalBlock (h : Allowed cs) : Allowed (literalBlock n cs) := by
  have lines : Allowed (indentLines n (fun c => [c]) true cs) :=
    allowed_indentLines (fun c hc => allowed_cons.2 ⟨h c hc, allowed_nil⟩) h true
  rw [literalBlock]
  rcases Cursor.chomping_cases cs with mark | mark | mark <;> rw [mark]
  all_goals
    split
    all_goals
      simp only [allowed_append, allowed_cons, lines, and_true]
      decide

theorem allowed_scalar (n : Nat) (inKey : Bool) (s : String) : Allowed (scalar n inKey s) := by
  unfold scalar
  cases h : Style.of inKey s with
  | plain => exact allowed_of_printable fun c hc => ((isPlain_of_style h).printable c hc).1
  | singleQuoted =>
    exact allowed_singleQuoted (allowed_of_printable (isQuotable_of_style h).printable)
  | doubleQuoted => exact allowed_doubleQuoted _
  | literal => exact allowed_literalBlock (allowed_of_printable (isLiteral_of_style h).printable)

/-! ## Trees -/

mutual

theorem allowed_node : (value : Json) → IsSimple value → ∀ n, Allowed (node n value)
  | .null, _, n => by
    rw [node]
    decide
  | .bool true, _, n => by
    rw [node]
    decide
  | .bool false, _, n => by
    rw [node]
    decide
  | .number (.whole i), _, n => by
    rw [node, numberChars]
    exact allowed_endLine
      (allowed_of_printable fun c hc => ((isPlain_intChars i).printable c hc).1)
  | .string s, _, n => by
    rw [node]
    exact allowed_endLine (allowed_scalar n false s)
  | .array [], _, n => by
    rw [node]
    decide
  | .array (item :: items), simple, n => by
    rw [IsSimple, ItemsSimple] at simple
    have first := allowed_node item simple.1 (n + 2)
    have later := allowed_laterItems items simple.2 n
    rw [node]
    simp only [allowed_append, allowed_cons, first, later, and_true]
    decide
  | .object [], _, n => by
    rw [node]
    decide
  | .object ((key, value) :: members), simple, n => by
    rw [IsSimple, MembersSimple] at simple
    rw [node]
    exact allowed_append.2 ⟨allowed_member key value simple.1 simple.2.1 n,
      allowed_laterMembers members simple.2.2 n⟩

theorem allowed_laterItems : (items : List Json) → ItemsSimple items →
    ∀ n, Allowed (laterItems n items)
  | [], _, n => by
    rw [laterItems]
    exact allowed_nil
  | item :: items, simple, n => by
    rw [ItemsSimple] at simple
    have first := allowed_node item simple.1 (n + 2)
    have later := allowed_laterItems items simple.2 n
    rw [laterItems]
    simp only [allowed_append, allowed_cons, allowed_spaces, first, later, and_true, true_and]
    decide

theorem allowed_laterMembers : (members : List (String × Json)) → MembersSimple members →
    ∀ n, Allowed (laterMembers n members)
  | [], _, n => by
    rw [laterMembers]
    exact allowed_nil
  | (key, value) :: members, simple, n => by
    rw [MembersSimple] at simple
    have first := allowed_member key value simple.1 simple.2.1 n
    have later := allowed_laterMembers members simple.2.2 n
    rw [laterMembers]
    simp only [allowed_append, allowed_spaces, first, later, and_self]

theorem allowed_member (key : String) (value : Json) (word : IsWord key) (simple : IsSimple value)
    (n : Nat) : Allowed (member n key value) := by
  have name : Allowed key.toList :=
    allowed_of_printable fun c hc => (word.isPlain.printable c hc).1
  have line : Allowed [':', '\n'] ∧ Allowed [':', ' '] := by decide
  simp only [allowed_cons, allowed_nil, and_true] at line
  rw [member_eq word]
  match value with
  | .array (item :: items) =>
    rw [IsSimple] at simple
    have lines := allowed_laterItems (item :: items) simple n
    simp only [valueText, allowed_append, allowed_cons, name, line, lines, and_self]
  | .object (m :: members) =>
    rw [IsSimple] at simple
    have lines := allowed_laterMembers (m :: members) simple (n + 2)
    simp only [valueText, allowed_append, allowed_cons, name, line, lines, and_self]
  | .null | .bool _ | .number _ | .string _ | .array [] | .object [] =>
    have here := allowed_node _ simple (n + 2)
    simp only [valueText, allowed_append, allowed_cons, name, line, here, and_self]

end

end ServiceContract.Yaml
