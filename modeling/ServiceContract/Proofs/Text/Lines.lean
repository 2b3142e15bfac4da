import Mathlib.Data.List.Infix
import ServiceContract.Text.Lines

/-!
# How a text falls into lines

A text of whole lines can be taken apart where they end (`lines_append`), and what stands between
two line feeds is one line (`lines_line`). What a line can begin with is what stands at the start of
the text or behind a line feed (`exists_line_iff`).
-/

namespace ServiceContract.Text

/-! ## Whole lines -/

/-- A text whose last line has ended. -/
def IsWhole (s : String) : Prop := s = "" ∨ ∃ before, s = before ++ "\n"

theorem isWhole_empty : IsWhole "" := .inl rfl

theorem isWhole_line (s : String) : IsWhole (s ++ "\n") := .inr ⟨s, rfl⟩

theorem IsWhole.append {s t : String} (hs : IsWhole s) (ht : IsWhole t) : IsWhole (s ++ t) := by
  rcases ht with rfl | ⟨before, rfl⟩
  · rwa [String.append_empty]
  · exact .inr ⟨s ++ before, (String.append_assoc ..).symm⟩

theorem isWhole_join {texts : List String} (each : ∀ s ∈ texts, IsWhole s) :
    IsWhole (String.join texts) := by
  induction texts with
  | nil => exact isWhole_empty
  | cons s texts ih =>
    obtain ⟨hs, others⟩ := List.forall_mem_cons.1 each
    rw [String.join_cons]
    exact hs.append (ih others)

theorem linesFrom_cons {c : Char} (h : c ≠ '\n') (cs reversed : List Char) :
    linesFrom (c :: cs) reversed = linesFrom cs (c :: reversed) := by
  rw [linesFrom]
  exact h

theorem linesFrom_append (cs rest reversed : List Char) :
    linesFrom (cs ++ '\n' :: rest) reversed =
      linesFrom (cs ++ ['\n']) reversed ++ linesFrom rest [] := by
  induction cs generalizing reversed with
  | nil => simp [linesFrom]
  | cons c cs ih =>
    by_cases h : c = '\n'
    · subst h
      simp only [List.cons_append, linesFrom, ih]
    · rw [List.cons_append, List.cons_append, linesFrom_cons h, linesFrom_cons h, ih]

@[simp] theorem lines_empty : lines "" = [] := rfl

theorem lines_append {s : String} (whole : IsWhole s) (t : String) :
    lines (s ++ t) = lines s ++ lines t := by
  rcases whole with rfl | ⟨before, rfl⟩
  · simp
  · have feed : "\n".toList = ['\n'] := rfl
    simp only [lines, String.toList_append, feed]
    rw [List.append_assoc, List.singleton_append, linesFrom_append, List.map_append]

theorem lines_join_append {texts : List String} (each : ∀ s ∈ texts, IsWhole s) (t : String) :
    lines (String.join texts ++ t) = texts.flatMap lines ++ lines t := by
  induction texts with
  | nil => simp
  | cons s texts ih =>
    obtain ⟨hs, others⟩ := List.forall_mem_cons.1 each
    rw [String.join_cons, String.append_assoc, lines_append hs, ih others, List.flatMap_cons,
      List.append_assoc]

theorem lines_join {texts : List String} (each : ∀ s ∈ texts, IsWhole s) :
    lines (String.join texts) = texts.flatMap lines := by
  simpa using lines_join_append each ""

/-! ## Single lines -/

/-- A line as it is read, without a carriage return at its end. -/
def readLine (cs : List Char) : List Char := (dropReturn cs.reverse).reverse

theorem dropReturn_cases (reversed : List Char) :
    dropReturn reversed = reversed ∨ reversed = '\r' :: dropReturn reversed := by
  unfold dropReturn
  split
  · exact .inr rfl
  · exact .inl rfl

theorem readLine_cases (cs : List Char) : readLine cs = cs ∨ cs = readLine cs ++ ['\r'] := by
  rcases dropReturn_cases cs.reverse with same | returned
  · exact .inl (by rw [readLine, same, List.reverse_reverse])
  · exact .inr (by rw [readLine, ← List.reverse_cons, ← returned, List.reverse_reverse])

theorem linesFrom_line {cs : List Char} (h : '\n' ∉ cs) (rest reversed : List Char) :
    linesFrom (cs ++ '\n' :: rest) reversed =
      readLine (reversed.reverse ++ cs) :: linesFrom rest [] := by
  induction cs generalizing reversed with
  | nil => simp [linesFrom, readLine]
  | cons c cs ih =>
    simp only [List.mem_cons, not_or] at h
    rw [List.cons_append, linesFrom_cons (Ne.symm h.1), ih h.2]
    simp

/-- A text without a line feed, ended by one, is one line. -/
theorem lines_line {s : String} (h : '\n' ∉ s.toList) :
    lines (s ++ "\n") = [String.ofList (readLine s.toList)] := by
  have feed : "\n".toList = ['\n'] := rfl
  rw [lines, String.toList_append, feed, linesFrom_line h]
  rfl

theorem lines_line_of_end {s : String} (h : '\n' ∉ s.toList)
    (last : s.toList.getLast? ≠ some '\r') : lines (s ++ "\n") = [s] := by
  rw [lines_line h]
  rcases readLine_cases s.toList with same | returned
  · rw [same, String.ofList_toList]
  · rw [returned] at last
    simp at last

/-- What stands behind the last line feed is a line as it is. -/
theorem lines_rest {s : String} (h : '\n' ∉ s.toList) (some : s ≠ "") : lines s = [s] := by
  have rest (cs reversed : List Char) (hcs : '\n' ∉ cs) (hne : reversed.reverse ++ cs ≠ []) :
      linesFrom cs reversed = [reversed.reverse ++ cs] := by
    induction cs generalizing reversed with
    | nil =>
      cases reversed with
      | nil => exact absurd rfl hne
      | cons c reversed => simp [linesFrom]
    | cons c cs ih =>
      simp only [List.mem_cons, not_or] at hcs
      rw [linesFrom_cons (Ne.symm hcs.1), ih _ hcs.2 (by simp)]
      simp
  rw [lines, rest _ _ h (by simpa using some)]
  simp

/-- No line holds a line feed. -/
theorem lineFeed_notMem_linesFrom {cs reversed : List Char} (h : '\n' ∉ reversed) :
    ∀ line ∈ linesFrom cs reversed, '\n' ∉ line := by
  induction cs generalizing reversed with
  | nil =>
    cases reversed with
    | nil => simp [linesFrom]
    | cons c reversed => simpa [linesFrom, and_comm] using h
  | cons c cs ih =>
    by_cases hc : c = '\n'
    · subst hc
      rw [linesFrom, List.forall_mem_cons]
      refine ⟨fun feed => h ?_, ih (by simp)⟩
      rcases dropReturn_cases reversed with same | returned
      · simpa [same] using feed
      · rw [returned]
        exact List.mem_cons_of_mem _ (List.mem_reverse.1 feed)
    · rw [linesFrom_cons hc]
      exact ih (by simp [Ne.symm hc, h])

theorem lineFeed_notMem_lines {s line : String} (h : line ∈ lines s) : '\n' ∉ line.toList := by
  obtain ⟨cs, hcs, rfl⟩ := List.mem_map.1 h
  rw [String.toList_ofList]
  exact lineFeed_notMem_linesFrom (by simp) cs hcs

/-! ## The start of a line -/

section Start

variable {mark : List Char}

/-- What does not hold a character starts before it. -/
theorem prefix_append_cons_iff {c : Char} (h : c ∉ mark) (xs ys : List Char) :
    mark <+: xs ++ c :: ys ↔ mark <+: xs := by
  refine ⟨fun start => ?_, fun start => start.trans (List.prefix_append ..)⟩
  rcases List.prefix_or_prefix_of_prefix start (List.prefix_append xs (c :: ys)) with
    inside | ⟨more, rfl⟩
  · exact inside
  · rcases List.prefix_cons_iff.1 ((List.prefix_append_right_inj xs).1 start) with
      rfl | ⟨rest, rfl, -⟩
    · simp
    · simp at h

theorem prefix_readLine_iff (h : '\r' ∉ mark) (cs : List Char) :
    mark <+: readLine cs ↔ mark <+: cs := by
  rcases readLine_cases cs with same | returned
  · rw [same]
  · conv_rhs => rw [returned]
    exact (prefix_append_cons_iff h _ []).symm

/-- A line begins with a mark where the text does, or where the mark stands behind a line feed. -/
theorem exists_line_iff (solid : '\n' ∉ mark ∧ '\r' ∉ mark) (mark_ne : mark ≠ [])
    (cs reversed : List Char) :
    (∃ line ∈ linesFrom cs reversed, mark <+: line) ↔
      mark <+: reversed.reverse ++ cs ∨ '\n' :: mark <:+: cs := by
  induction cs generalizing reversed with
  | nil =>
    cases reversed with
    | nil => simp [linesFrom, mark_ne]
    | cons c reversed => simp [linesFrom]
  | cons c cs ih =>
    by_cases hc : c = '\n'
    · subst hc
      have here : mark <+: (dropReturn reversed).reverse ↔
          mark <+: reversed.reverse ++ '\n' :: cs := by
        have read := prefix_readLine_iff solid.2 reversed.reverse
        rw [readLine, List.reverse_reverse] at read
        rw [read, prefix_append_cons_iff solid.1]
      rw [linesFrom, List.infix_cons_iff, List.cons_prefix_cons, List.exists_mem_cons_iff, here, ih]
      simp
    · rw [linesFrom_cons hc, ih, List.infix_cons_iff, List.cons_prefix_cons, List.reverse_cons,
        List.append_assoc, List.singleton_append]
      simp [Ne.symm hc]

end Start

end ServiceContract.Text
