import Mathlib.Data.List.DropRight
import ServiceContract.Text.Blank

/-!
# The extent of a text

A text has no more characters than bytes. Without the blanks at its end it is the start of the text
up to the last character that is no blank (`Text.isTrimmed_trimEnd`).
-/

namespace ServiceContract.Text

theorem length_le_utf8ByteSize (s : String) : s.length ≤ s.utf8ByteSize := by
  have each (cs : List Char) : cs.length ≤ (String.ofList cs).utf8ByteSize := by
    induction cs with
    | nil => exact Nat.zero_le _
    | cons c cs ih =>
      have positive := c.utf8Size_pos
      rw [String.ofList_cons, String.utf8ByteSize_append, String.utf8ByteSize_singleton,
        List.length_cons]
      omega
  have size := each s.toList
  rwa [String.ofList_toList, String.length_toList] at size

/-! ## Blanks at the end -/

variable {cs blanks : List Char}

/-- Some characters do not end with a blank. -/
def EndsSolid (cs : List Char) : Prop := ∀ c ∈ cs.getLast?, isBlank c = false

theorem endsSolid_dropBlankEnd (cs : List Char) : EndsSolid (dropBlankEnd cs) := by
  intro c hc
  obtain ⟨nonempty, last⟩ := List.mem_getLast?_eq_getLast hc
  rw [last]
  exact Bool.eq_false_iff.2 (List.rdropWhile_last_not isBlank cs nonempty)

/-- The blanks at the end are all that is dropped. -/
theorem exists_blanks (cs : List Char) :
    ∃ blanks, cs = dropBlankEnd cs ++ blanks ∧ ∀ c ∈ blanks, isBlank c = true :=
  ⟨cs.rtakeWhile isBlank, List.rdropWhile_append_rtakeWhile.symm,
    fun _ => List.mem_rtakeWhile_imp⟩

theorem dropBlankEnd_append (solid : EndsSolid cs) (h : ∀ c ∈ blanks, isBlank c = true) :
    dropBlankEnd (cs ++ blanks) = cs := by
  induction blanks using List.reverseRecOn with
  | nil =>
    rw [List.append_nil]
    refine List.rdropWhile_eq_self_iff.2 fun nonempty => ?_
    simp [solid _ (List.getLast?_eq_some_getLast nonempty)]
  | append_singleton blanks c ih =>
    rw [← List.append_assoc]
    exact (List.rdropWhile_concat_pos _ _ _ (h c (by simp))).trans
      (ih fun d hd => h d (List.mem_append_left _ hd))

theorem dropBlankEnd_of_solid (solid : EndsSolid cs) : dropBlankEnd cs = cs := by
  have kept := dropBlankEnd_append solid (List.forall_mem_nil _)
  rwa [List.append_nil] at kept

/-- What a solid end stands behind is kept. -/
theorem dropBlankEnd_append_of_ne_nil (before : List Char) (h : dropBlankEnd cs ≠ []) :
    dropBlankEnd (before ++ cs) = before ++ dropBlankEnd cs := by
  obtain ⟨blanks, split, white⟩ := exists_blanks cs
  have solid : EndsSolid (before ++ dropBlankEnd cs) := by
    intro c hc
    rw [List.getLast?_append_of_ne_nil _ h] at hc
    exact endsSolid_dropBlankEnd cs c hc
  rw [split, ← List.append_assoc, dropBlankEnd_append solid white, ← split]

/-- Blanks behind a solid end are all that is dropped. -/
theorem EndsSolid.dropBlankEnd_append {before : List Char} (solid : EndsSolid before)
    (cs : List Char) : dropBlankEnd (before ++ cs) = before ++ dropBlankEnd cs := by
  by_cases h : dropBlankEnd cs = []
  · obtain ⟨blanks, split, white⟩ := exists_blanks cs
    rw [h, List.nil_append] at split
    rw [h, List.append_nil, split, Text.dropBlankEnd_append solid white]
  · exact dropBlankEnd_append_of_ne_nil before h

/-- More blanks at the end make no difference. -/
theorem dropBlankEnd_append_blanks (cs : List Char) (white : ∀ c ∈ blanks, isBlank c = true) :
    dropBlankEnd (cs ++ blanks) = dropBlankEnd cs := by
  obtain ⟨own, split, ownWhite⟩ := exists_blanks cs
  have all : ∀ c ∈ own ++ blanks, isBlank c = true := List.forall_mem_append.2 ⟨ownWhite, white⟩
  have dropped := dropBlankEnd_append (endsSolid_dropBlankEnd cs) all
  rwa [← List.append_assoc, ← split] at dropped

/-! ## Ends of lines -/

/-- Some characters end with a line feed right behind a character that is no blank. -/
def EndsLine (cs : List Char) : Prop := ∃ body c, cs = body ++ [c, '\n'] ∧ isBlank c = false

theorem EndsLine.append (ends : EndsLine cs) (before : List Char) : EndsLine (before ++ cs) := by
  obtain ⟨body, c, rfl, solid⟩ := ends
  exact ⟨before ++ body, c, (List.append_assoc ..).symm, solid⟩

theorem EndsLine.cons (ends : EndsLine cs) (c : Char) : EndsLine (c :: cs) := ends.append [c]

theorem endsLine_of_solid (nonempty : cs ≠ []) (solid : EndsSolid cs) :
    EndsLine (cs ++ ['\n']) := by
  obtain ⟨body, c, rfl⟩ := List.eq_nil_or_concat cs |>.resolve_left nonempty
  exact ⟨body, c, by simp, solid c (by simp)⟩

/-- No characters, or ones that end a line. -/
def EndsLines (cs : List Char) : Prop := cs = [] ∨ EndsLine cs

theorem EndsLine.append_lines {more : List Char} (ends : EndsLine cs) (lines : EndsLines more) :
    EndsLine (cs ++ more) := by
  rcases lines with rfl | lines
  · rwa [List.append_nil]
  · exact lines.append cs

/-- Such characters are what remains of them without the blanks, and one line feed. -/
theorem EndsLine.dropBlankEnd_append (ends : EndsLine cs) : dropBlankEnd cs ++ ['\n'] = cs := by
  obtain ⟨body, c, rfl, solid⟩ := ends
  have split : body ++ [c, '\n'] = (body ++ [c]) ++ ['\n'] := by simp
  have blank : ∀ d ∈ ['\n'], isBlank d = true := List.forall_mem_singleton.2 rfl
  rw [split, Text.dropBlankEnd_append (by simpa [EndsSolid] using solid) blank]

/-- One text is another one without the blanks at its end. -/
def IsTrimmed (trimmed s : String) : Prop :=
  EndsSolid trimmed.toList ∧
    ∃ blanks, s.toList = trimmed.toList ++ blanks ∧ ∀ c ∈ blanks, isBlank c = true

theorem isTrimmed_trimEnd (s : String) : IsTrimmed (trimEnd s) s := by
  unfold IsTrimmed trimEnd
  rw [String.toList_ofList]
  exact ⟨endsSolid_dropBlankEnd _, exists_blanks _⟩

end ServiceContract.Text
