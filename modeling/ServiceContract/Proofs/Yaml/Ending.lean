import ServiceContract.Proofs.Yaml.Tokens

/-!
# Where a text ends
-/

namespace ServiceContract.Yaml

open Text (EndsLine EndsSolid dropBlankEnd trimEnd)

variable {s : String} {cs : List Char}

/-- What a text without quotes ends with can be told from its last line: behind its last character
that is no blank stands nothing or a single line feed. -/
def KeepsEnd (s : String) : Prop :=
  Style.of false s = .singleQuoted ∨ Style.of false s = .doubleQuoted ∨
    trimEnd s ≠ "" ∧ (s = trimEnd s ∨ s = trimEnd s ++ "\n")

instance (s : String) : Decidable (KeepsEnd s) := by
  unfold KeepsEnd
  infer_instance

theorem isBlank_of_isBreak {c : Char} (h : isBreak c = true) : Text.isBlank c = true := by
  simp only [isBreak, Bool.or_eq_true, decide_eq_true_eq] at h
  rcases h with (((rfl | rfl) | rfl) | rfl) | rfl <;> rfl

theorem endLine_closed_eq (cs : List Char) : endLine (cs ++ ['\n']) = cs ++ ['\n'] := by
  rw [endLine, List.getLast?_concat]
  rfl

theorem endLine_of_solid (solid : EndsSolid cs) : endLine cs = cs ++ ['\n'] := by
  refine endLine_of_inside fun c hc => Bool.eq_false_iff.2 fun broken => ?_
  have blank := isBlank_of_isBreak broken
  rw [solid c hc] at blank
  cases blank

theorem endsLine_endLine_iff : EndsLine (endLine cs) ↔
    dropBlankEnd cs ≠ [] ∧ (cs = dropBlankEnd cs ∨ cs = dropBlankEnd cs ++ ['\n']) := by
  constructor
  · rintro ⟨body, c, split, solid⟩
    have dropped (blanks : List Char) (white : ∀ d ∈ blanks, Text.isBlank d = true) :
        dropBlankEnd ((body ++ [c]) ++ blanks) = body ++ [c] :=
      Text.dropBlankEnd_append (by simpa [EndsSolid] using solid) white
    have split : endLine cs = (body ++ [c]) ++ ['\n'] := by simpa using split
    unfold endLine at split
    split at split
    · rw [split, dropped ['\n'] (List.forall_mem_singleton.2 rfl)]
      exact ⟨by simp, .inr rfl⟩
    · obtain rfl := List.append_cancel_right split
      rw [Text.dropBlankEnd_of_solid (by simpa [EndsSolid] using solid)]
      exact ⟨by simp, .inl rfl⟩
  · rintro ⟨nonempty, same⟩
    have solid := Text.endsSolid_dropBlankEnd cs
    have ends : EndsLine (dropBlankEnd cs ++ ['\n']) := Text.endsLine_of_solid nonempty solid
    rcases same with inside | closed
    · rwa [inside, endLine_of_solid solid]
    · rwa [closed, endLine_closed_eq]

/-- How the text of a literal block ends, so does the block. -/
theorem endsLine_blockBody (n : Nat) (ends : EndsLine cs) : EndsLine (blockBody n true cs) := by
  obtain ⟨body, c, rfl, solid⟩ := ends
  have split : body ++ [c, '\n'] = (body ++ [c]) ++ ['\n'] := by simp
  have last : (blockBody n true (body ++ [c])).getLast? = some c := by
    rw [getLast?_blockBody, List.getLast?_concat]
  rw [split, blockBody_append]
  refine Text.endsLine_of_solid (fun empty => ?_) fun d hd => ?_
  · rw [empty] at last
    cases last
  · obtain rfl : c = d := Option.some.inj (last.symm.trans hd)
    exact solid

theorem keepsEnd_iff {s : String} : KeepsEnd s ↔ Style.of false s = .singleQuoted ∨
    Style.of false s = .doubleQuoted ∨ EndsLine (endLine s.toList) := by
  have trimmed : (trimEnd s).toList = dropBlankEnd s.toList := String.toList_ofList
  rw [KeepsEnd, endsLine_endLine_iff, ← trimmed, Ne, ← String.toList_inj, ← String.toList_inj,
    ← String.toList_inj, String.toList_append]
  rfl

/-- A text that keeps its end is written up to the end of its last line. -/
theorem endsLine_scalar (n : Nat) (keeps : KeepsEnd s) : EndsLine (endLine (scalar n false s)) := by
  have own (unquoted : Style.of false s = .plain ∨ Style.of false s = .literal) :
      EndsLine (endLine s.toList) := by
    rcases keepsEnd_iff.1 keeps with quoted | quoted | ends
    · rw [quoted] at unquoted
      simp at unquoted
    · rw [quoted] at unquoted
      simp at unquoted
    · exact ends
  unfold scalar
  cases style : Style.of false s with
  | plain => exact own (.inl style)
  | singleQuoted =>
    dsimp only
    rw [endLine_singleQuoted]
    exact ⟨'\'' :: singleBody n false s.toList, '\'', by simp, rfl⟩
  | doubleQuoted =>
    dsimp only
    rw [endLine_doubleQuoted]
    exact ⟨'"' :: s.toList.flatMap writeDouble, '"', by simp, rfl⟩
  | literal =>
    dsimp only
    rw [Cursor.endLine_literalBlock n (isLiteral_of_style style).nonempty]
    exact (((endsLine_blockBody n (own (.inr style))).cons '\n').append _).cons '|'

/-! ## The last text of a document -/

theorem laterMembers_append (n : Nat) (members more : Members) :
    laterMembers n (members ++ more) = laterMembers n members ++ laterMembers n more := by
  induction members with
  | nil => rw [laterMembers, List.nil_append, List.nil_append]
  | cons m members ih =>
    obtain ⟨key, value⟩ := m
    rw [List.cons_append, laterMembers, laterMembers, ih]
    simp only [List.append_assoc]

/-- A member behind others. -/
theorem laterMembers_concat {n : Nat} {key : String} (word : IsWord key) (members : Members)
    (value : Json) : laterMembers n (members ++ [(key, value)]) =
      laterMembers n members ++ (spaces n ++ (key.toList ++ ':' :: valueText n value)) := by
  rw [laterMembers_append, laterMembers, laterMembers, member_eq word, List.append_nil]

/-- A section behind others, up to the colon of its last member. -/
def upToLast (members : Members) (name : String) (inner : Members) (key : String) : List Char :=
  laterMembers 0 members ++ (name.toList ++ ':' :: '\n' ::
    (laterMembers 2 inner ++ (spaces 2 ++ (key.toList ++ [':']))))

theorem toList_print_concat {name : String} (word : IsWord name) (members : Members)
    (value : Json) : (print (.object (members ++ [(name, value)]))).toList =
      laterMembers 0 members ++ (name.toList ++ ':' :: valueText 0 value) := by
  have nonempty : members ++ [(name, value)] ≠ [] := by simp
  obtain ⟨m, more, split⟩ := List.exists_cons_of_ne_nil nonempty
  have text : (print (.object (members ++ [(name, value)]))).toList =
      laterMembers 0 (members ++ [(name, value)]) := by
    rw [split, Lexer.laterMembers_cons]
    exact String.toList_ofList
  rw [text, laterMembers_concat word]
  simp [spaces]

theorem toList_print_last {name key : String} (word : IsWord name) (lastWord : IsWord key)
    (members inner : Members) (s : String) :
    (print (.object (members ++ [(name, .object (inner ++ [(key, .string s)]))]))).toList =
      upToLast members name inner key ++ ' ' :: endLine (scalar 4 false s) := by
  have nonempty : inner ++ [(key, .string s)] ≠ [] := by simp
  obtain ⟨m, more, split⟩ := List.exists_cons_of_ne_nil nonempty
  have text : valueText 0 (.object (inner ++ [(key, .string s)])) =
      '\n' :: laterMembers 2 (inner ++ [(key, .string s)]) := by
    rw [split, valueText]
  rw [toList_print_concat word, text, laterMembers_concat lastWord, valueText, node]
  · simp [upToLast]
  all_goals simp

end ServiceContract.Yaml
