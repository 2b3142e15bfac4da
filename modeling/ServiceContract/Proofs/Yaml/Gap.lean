import ServiceContract.Yaml.Text

/-!
# Blanks and line ends in a printed text

A printed text has no tabulators between its words, and each of its line ends is one character that
stands for itself. So a gap between two words is a run of spaces, or a run of line ends and the
indentation of the next line; here is what reading makes of both.
-/

namespace ServiceContract.Yaml

variable {c : Char} {cs rest : List Char}

/-- A text starts with a run of characters of a class, which may be empty. -/
theorem exists_run (p : Char → Bool) (cs : List Char) :
    ∃ run more, cs = run ++ more ∧ (∀ c ∈ run, p c = true) ∧ ∀ c ∈ more.head?, p c = false := by
  induction cs with
  | nil => exact ⟨[], [], rfl, by simp, by simp⟩
  | cons c cs ih =>
    cases hc : p c with
    | false => exact ⟨[], c :: cs, rfl, by simp, by simpa using hc⟩
    | true =>
      obtain ⟨run, more, hcs, hrun, hmore⟩ := ih
      exact ⟨c :: run, more, by rw [hcs, List.cons_append], List.forall_mem_cons.2 ⟨hc, hrun⟩,
        hmore⟩

@[simp] theorem length_spaces (n : Nat) : (spaces n).length = n := List.length_replicate

/-- A text starts with a number of spaces. -/
theorem exists_spaces (cs : List Char) :
    ∃ n more, cs = spaces n ++ more ∧ ∀ c ∈ more.head?, c ≠ ' ' := by
  obtain ⟨run, more, hcs, hrun, hmore⟩ := exists_run (· = ' ') cs
  refine ⟨run.length, more, ?_, fun c hc => by simpa using hmore c hc⟩
  have : run = spaces run.length := List.eq_replicate_of_mem fun c hc => by simpa using hrun c hc
  rw [hcs, ← this]

/-! ## Characters -/

theorem isBreak_of_printable (printable : isPrintable c = true) (ends : isBlankOrEnd c = true) :
    c = ' ' ∨ isBreak c = true := by
  simp only [isBlankOrEnd, Bool.or_eq_true, decide_eq_true_eq] at ends
  rcases ends with ((rfl | rfl) | h) | rfl
  · exact .inl rfl
  · cases printable
  · exact .inr h
  · cases printable

/-- A character that neither separates words nor lines. -/
def IsSolid (c : Char) : Prop := isBlankOrEnd c = false

theorem IsSolid.ne_space (solid : IsSolid c) : c ≠ ' ' := by
  rintro rfl
  cases solid

theorem IsSolid.ne_tab (solid : IsSolid c) : c ≠ '\t' := by
  rintro rfl
  cases solid

theorem IsSolid.isBreak_eq (solid : IsSolid c) : isBreak c = false := by
  simp only [IsSolid, isBlankOrEnd, Bool.or_eq_false_iff] at solid
  exact solid.1.2

theorem IsSolid.isBlank_eq (solid : IsSolid c) : Cursor.isBlank c = false := by
  simp [Cursor.isBlank, solid.ne_space, solid.ne_tab]

theorem isSolid_of_printable (printable : isPrintable c = true) (space : c ≠ ' ')
    (line : isBreak c = false) : IsSolid c := by
  cases h : isBlankOrEnd c with
  | false => exact h
  | true =>
    rcases isBreak_of_printable printable h with rfl | hbreak
    · exact absurd rfl space
    · rw [line] at hbreak
      cases hbreak

/-- What follows a gap: nothing, or a character that belongs to no gap. -/
def EndsGap (rest : List Char) : Prop := ∀ c ∈ rest.head?, IsSolid c

theorem endsGap_cons (solid : IsSolid c) : EndsGap (c :: rest) := by
  intro d hd
  obtain rfl : c = d := by simpa using hd
  exact solid

namespace Cursor

variable {cursor : Cursor} {tabLimit fuel n : Nat}

/-- The cursor behind a number of characters on its line. -/
def ahead (cursor : Cursor) (n : Nat) (rest : List Char) : Cursor :=
  ⟨rest, cursor.index + n, cursor.line, cursor.column + n⟩

/-- The cursor at a column of a later line. -/
structure Below (cursor : Cursor) (rest : List Char) (column : Nat) (later : Cursor) : Prop where
  rest : later.rest = rest
  column : later.column = column
  line : cursor.line < later.line

@[simp] theorem rest_ahead (cursor : Cursor) (n : Nat) (rest : List Char) :
    (cursor.ahead n rest).rest = rest := rfl

@[simp] theorem column_ahead (cursor : Cursor) (n : Nat) (rest : List Char) :
    (cursor.ahead n rest).column = cursor.column + n := rfl

@[simp] theorem line_ahead (cursor : Cursor) (n : Nat) (rest : List Char) :
    (cursor.ahead n rest).line = cursor.line := rfl

@[simp] theorem index_ahead (cursor : Cursor) (n : Nat) (rest : List Char) :
    (cursor.ahead n rest).index = cursor.index + n := rfl

@[simp] theorem ahead_ahead (cursor : Cursor) (m n : Nat) (rest rest' : List Char) :
    (cursor.ahead m rest).ahead n rest' = cursor.ahead (m + n) rest' := by
  simp only [ahead, Nat.add_assoc]

theorem skip_eq (h : cursor.rest = c :: rest) : cursor.skip = cursor.ahead 1 rest := by
  rw [skip, h]
  rfl

theorem next?_eq (h : cursor.rest = c :: rest) : cursor.next? = some c := by
  rw [next?, h, List.head?_cons]

theorem nextIs_eq_false {d : Char} (h : ∀ c ∈ cursor.rest.head?, c ≠ d) :
    cursor.nextIs d = false := by
  unfold nextIs next?
  cases hhead : cursor.rest.head? with
  | none => rfl
  | some c => simpa using h c hhead

theorem atBreak_eq_false (inside : ∀ c ∈ cursor.rest.head?, isBreak c = false) :
    cursor.atBreak = false := by
  unfold atBreak next?
  cases h : cursor.rest.head? with
  | none => rfl
  | some c => exact inside c h

theorem atDocumentMarker_eq_false (inside : 0 < cursor.column) :
    cursor.atDocumentMarker = false := by
  have column : (cursor.column == 0) = false := by
    rw [beq_eq_false_iff_ne]
    omega
  simp [atDocumentMarker, atMarker, column]

/-- A line end of a printed text stands for itself. -/
theorem lineEnd_eq (h : cursor.rest = c :: rest) (ends : isBreak c = true)
    (printable : isPrintable c = true) :
    cursor.lineEnd = ([c], ⟨rest, cursor.index + 1, cursor.line + 1, 0⟩) := by
  have notReturn : c ≠ '\r' := by
    rintro rfl
    cases printable
  have itself : (if c = '\u2028' ∨ c = '\u2029' then c else '\n') = c := by
    simp only [isBreak, Bool.or_eq_true, decide_eq_true_eq] at ends
    rcases ends with (((rfl | rfl) | rfl) | rfl) | rfl
    · rfl
    · exact absurd rfl notReturn
    · cases printable
    · rfl
    · rfl
  unfold lineEnd
  split
  · rename_i both
    rw [h] at both
    exact absurd (List.cons.inj both).1 notReturn
  · rename_i single
    obtain ⟨rfl, rfl⟩ := List.cons.inj (h.symm.trans single)
    simp only [ends, ↓reduceIte, Bool.or_eq_true, decide_eq_true_eq, itself]
  · rename_i none
    rw [h] at none
    cases none

section Runs

variable {p : Char → Bool} {run : List Char}

theorem takeWhile_append (all : ∀ c ∈ run, p c = true) (stop : ∀ c ∈ rest.head?, p c = false) :
    (run ++ rest).takeWhile p = run := by
  rw [List.takeWhile_append_of_pos all]
  cases rest with
  | nil => simp
  | cons c rest => simp [stop c rfl]

/-- Characters of a class are passed over up to the first other one. -/
theorem skipWhile_eq (h : cursor.rest = run ++ rest) (all : ∀ c ∈ run, p c = true)
    (stop : ∀ c ∈ rest.head?, p c = false) : cursor.skipWhile p = cursor.ahead run.length rest := by
  have taken := takeWhile_append all stop
  simp only [skipWhile, h, taken, List.drop_left, ahead]

theorem skipWhile_here (stop : ∀ c ∈ cursor.rest.head?, p c = false) :
    cursor.skipWhile p = cursor :=
  skipWhile_eq (List.nil_append _).symm (by simp) stop

theorem takeWhile_eq (h : cursor.rest = run ++ rest) (all : ∀ c ∈ run, p c = true)
    (stop : ∀ c ∈ rest.head?, p c = false) :
    cursor.takeWhile p = (run, cursor.ahead run.length rest) := by
  rw [takeWhile, skipWhile_eq h all stop, h, takeWhile_append all stop]

end Runs

/-! ## Gaps -/

/-- The gap with more blanks. Behind a line end blanks are indentation. -/
def Gap.space (gap : Gap) : Gap :=
  if gap.broken then gap else { gap with blanks := gap.blanks ++ [' '] }

theorem gap?_space (gap : Gap) (h : cursor.rest = ' ' :: rest) :
    gap? tabLimit (fuel + 1) gap cursor = gap? tabLimit fuel gap.space (cursor.ahead 1 rest) := by
  rw [gap?, next?_eq h, skip_eq h]
  rfl

theorem gap?_end (gap : Gap) (h : EndsGap cursor.rest) :
    gap? tabLimit (fuel + 1) gap cursor = some (gap, cursor) := by
  unfold gap? next?
  cases hrest : cursor.rest with
  | nil => rfl
  | cons c rest =>
    have solid : IsSolid c := h c (by rw [hrest]; rfl)
    dsimp only [List.head?_cons]
    split
    · rename_i found
      exact absurd (Option.some.inj found) solid.ne_space
    · rename_i found
      exact absurd (Option.some.inj found) solid.ne_tab
    · rename_i found
      obtain rfl := Option.some.inj found
      rw [if_neg (by simp [solid.isBreak_eq])]
    · rfl

theorem gap?_break (gap : Gap) (h : cursor.rest = c :: rest) (ends : isBreak c = true)
    (printable : isPrintable c = true) :
    gap? tabLimit (fuel + 1) gap cursor =
      gap? tabLimit fuel
        (if gap.broken then { gap with later := gap.later ++ [c] }
        else { gap with first := [c], blanks := [], broken := true })
        ⟨rest, cursor.index + 1, cursor.line + 1, 0⟩ := by
  rw [gap?, next?_eq h, lineEnd_eq h ends printable]
  dsimp only
  split
  · rename_i found
    obtain rfl := Option.some.inj found
    cases ends
  · rename_i found
    obtain rfl := Option.some.inj found
    cases ends
  · rename_i found
    obtain rfl := Option.some.inj found
    rw [if_pos ends]
  · rename_i found
    cases found

/-- A run of spaces within a line. -/
theorem gap?_spaces (tabLimit n : Nat) (blanks : List Char) (h : cursor.rest = spaces n ++ cs)
    (ends : EndsGap cs) (enough : n < fuel) :
    gap? tabLimit fuel ⟨blanks, [], [], false⟩ cursor =
      some (⟨blanks ++ spaces n, [], [], false⟩, cursor.ahead n cs) := by
  induction n generalizing fuel blanks cursor with
  | zero =>
    obtain ⟨fuel, rfl⟩ : ∃ m, fuel = m + 1 := ⟨fuel - 1, by omega⟩
    have hrest : cursor.rest = cs := h
    rw [gap?_end _ (by rw [hrest]; exact ends), ← hrest]
    simp [spaces, ahead]
  | succ n ih =>
    obtain ⟨fuel, rfl⟩ : ∃ m, fuel = m + 1 := ⟨fuel - 1, by omega⟩
    rw [spaces, List.replicate_succ, List.cons_append] at h
    rw [gap?_space _ h, Gap.space, if_neg (by simp), ih (blanks ++ [' ']) rfl (by omega)]
    simp [spaces, List.replicate_succ, Nat.add_comm 1]

/-- Line ends behind the first one, and the indentation of the next line. -/
theorem gap?_broken (breaks : List Char) (n : Nat) (gap : Gap) (broken : gap.broken = true)
    (fuel : Nat) (cursor : Cursor) (h : cursor.rest = breaks ++ (spaces n ++ cs))
    (ends : EndsGap cs) (lines : ∀ c ∈ breaks, isBreak c = true ∧ isPrintable c = true)
    (enough : breaks.length + n < fuel) :
    ∃ later, gap? tabLimit fuel gap cursor =
        some ({ gap with later := gap.later ++ breaks }, later) ∧
      later.rest = cs ∧ cursor.line ≤ later.line ∧
      later.column = if breaks = [] then cursor.column + n else n := by
  induction breaks generalizing fuel gap cursor with
  | nil =>
    induction n generalizing fuel cursor with
    | zero =>
      obtain ⟨fuel, rfl⟩ : ∃ m, fuel = m + 1 := ⟨fuel - 1, by omega⟩
      have hrest : cursor.rest = cs := h
      refine ⟨cursor, ?_, hrest, Nat.le_refl _, by simp⟩
      rw [gap?_end _ (by rw [hrest]; exact ends), List.append_nil]
    | succ n ih =>
      obtain ⟨fuel, rfl⟩ : ∃ m, fuel = m + 1 := ⟨fuel - 1, by omega⟩
      rw [spaces, List.replicate_succ, List.nil_append, List.cons_append] at h
      obtain ⟨later, hgap, hrest, hline, hcolumn⟩ :=
        ih fuel (cursor.ahead 1 (spaces n ++ cs)) rfl (by simp at enough ⊢; omega)
      refine ⟨later, ?_, hrest, hline, ?_⟩
      · rw [gap?_space _ h, Gap.space, if_pos broken]
        exact hgap
      · rw [hcolumn]
        simp only [ahead, ↓reduceIte]
        omega
  | cons c breaks ih =>
    obtain ⟨fuel, rfl⟩ : ∃ m, fuel = m + 1 := ⟨fuel - 1, by omega⟩
    obtain ⟨hc, hbreaks⟩ := List.forall_mem_cons.1 lines
    rw [List.cons_append] at h
    obtain ⟨later, hgap, hrest, hline, hcolumn⟩ :=
      ih { gap with later := gap.later ++ [c] } broken fuel
        ⟨_, cursor.index + 1, cursor.line + 1, 0⟩ rfl hbreaks (by simp at enough; omega)
    refine ⟨later, ?_, hrest, by simp at hline; omega, ?_⟩
    · rw [gap?_break _ h hc.1 hc.2, if_pos broken, hgap]
      simp
    · rw [hcolumn]
      simp

/-- A run of line ends, and the indentation of the next line. -/
theorem gap?_lines (tabLimit : Nat) (breaks : List Char) (n : Nat)
    (h : cursor.rest = c :: breaks ++ (spaces n ++ cs))
    (ends : EndsGap cs) (lines : ∀ d ∈ c :: breaks, isBreak d = true ∧ isPrintable d = true)
    (enough : breaks.length + n + 1 < fuel) :
    ∃ later, gap? tabLimit fuel ⟨[], [], [], false⟩ cursor =
        some (⟨[], [c], breaks, true⟩, later) ∧ Below cursor cs n later := by
  obtain ⟨fuel, rfl⟩ : ∃ m, fuel = m + 1 := ⟨fuel - 1, by omega⟩
  obtain ⟨hc, hbreaks⟩ := List.forall_mem_cons.1 lines
  rw [List.cons_append] at h
  obtain ⟨later, hgap, hrest, hline, hcolumn⟩ :=
    gap?_broken breaks n ⟨[], [c], [], true⟩ rfl fuel ⟨_, cursor.index + 1, cursor.line + 1, 0⟩ rfl
      ends hbreaks (by omega)
  refine ⟨later, ?_, hrest, ?_, by simp at hline; omega⟩
  · rw [gap?_break _ h hc.1 hc.2, if_neg (by simp)]
    exact hgap
  · rw [hcolumn]
    simp

end Cursor

end ServiceContract.Yaml
