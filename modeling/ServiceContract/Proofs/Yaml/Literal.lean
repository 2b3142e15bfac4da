import ServiceContract.Proofs.Yaml.Gap

/-!
# Reading literal blocks back

A literal block has the lines of its text, each behind its indentation, and ends its last line even
where the text does not; its marks say whether the text has the line ends at the end. A line of a
text starts with a run of other characters than line ends and goes up to the next line; the
induction is on these runs.
-/

namespace ServiceContract.Yaml

variable {cs rest : List Char} {indent : Nat}

/-- A text that can stand in a literal block. -/
structure IsLiteral (cs : List Char) : Prop where
  printable : ∀ c ∈ cs, isPrintable c = true
  nonempty : cs ≠ []

/-! ## The lines of a block -/

/-- Behind an indentation stands neither a tab nor a line end. -/
def StartsLine (rest : List Char) : Prop := ∀ c ∈ rest.head?, c ≠ '\t' ∧ isBreak c = false

theorem EndsGap.startsLine (ends : EndsGap rest) : StartsLine rest :=
  fun c hc => ⟨(ends c hc).ne_tab, (ends c hc).isBreak_eq⟩

theorem EndsGap.ne_space (ends : EndsGap rest) : ∀ c ∈ rest.head?, c ≠ ' ' :=
  fun c hc => (ends c hc).ne_space

theorem getLast?_append_of_nonempty (before : List Char) (nonempty : cs ≠ []) :
    (before ++ cs).getLast? = cs.getLast? := by
  rw [List.getLast?_append, List.getLast?_eq_some_getLast nonempty, Option.some_or]

/-- A text that starts with a line and ends its last one is this line, its end, the empty lines
behind it and the other lines. -/
theorem exists_line (nonempty : cs ≠ []) (first : ∀ c ∈ cs.head?, isBreak c = false)
    (last : cs.getLast?.any isBreak = true) :
    ∃ line c breaks others, cs = line ++ c :: (breaks ++ others) ∧ line ≠ [] ∧
      (∀ d ∈ line, isBreak d = false) ∧ isBreak c = true ∧ (∀ d ∈ breaks, isBreak d = true) ∧
      ∀ d ∈ others.head?, isBreak d = false := by
  obtain ⟨line, more, rfl, hline, hmore⟩ := exists_run (fun c => !isBreak c) cs
  have inside : ∀ d ∈ line, isBreak d = false := fun d hd => by simpa using hline d hd
  cases more with
  | nil =>
    rw [List.append_nil] at nonempty last
    obtain ⟨before, d, rfl⟩ := List.eq_nil_or_concat line |>.resolve_left nonempty
    have unbroken := inside d (by simp)
    simp [unbroken] at last
  | cons c more =>
    have hc : isBreak c = true := by simpa using hmore c rfl
    obtain ⟨breaks, others, rfl, hbreaks, hothers⟩ := exists_run isBreak more
    refine ⟨line, c, breaks, others, rfl, ?_, inside, hc, hbreaks, hothers⟩
    rintro rfl
    have unbroken := first c rfl
    rw [hc] at unbroken
    cases unbroken

/-- The lines of a block; `fresh` says that a line has just begun. -/
def blockBody (indent : Nat) (fresh : Bool) (cs : List Char) : List Char :=
  indentLines indent (fun c => [c]) fresh cs

theorem blockBody_breaks {breaks : List Char} (lines : ∀ c ∈ breaks, isBreak c = true)
    (cs : List Char) :
    blockBody indent true (breaks ++ cs) = breaks ++ blockBody indent true cs := by
  induction breaks with
  | nil => rfl
  | cons c breaks ih =>
    obtain ⟨hc, hbreaks⟩ := List.forall_mem_cons.1 lines
    have inner := ih hbreaks
    unfold blockBody at inner ⊢
    rw [List.cons_append, indentLines, if_pos hc, inner, List.cons_append]

theorem blockBody_line {line : List Char} (inside : ∀ c ∈ line, isBreak c = false)
    (cs : List Char) : blockBody indent false (line ++ cs) = line ++ blockBody indent false cs := by
  induction line with
  | nil => rfl
  | cons c line ih =>
    obtain ⟨hc, hline⟩ := List.forall_mem_cons.1 inside
    have inner := ih hline
    unfold blockBody at inner ⊢
    rw [List.cons_append, indentLines, if_neg (by simp [hc]), inner]
    simp

theorem blockBody_break {c : Char} (ends : isBreak c = true) (fresh : Bool) (cs : List Char) :
    blockBody indent fresh (c :: cs) = c :: blockBody indent true cs := by
  rw [blockBody, indentLines, if_pos ends, blockBody]

/-- A line stands behind its indentation. -/
theorem blockBody_fresh (nonempty : cs ≠ []) (inside : ∀ c ∈ cs.head?, isBreak c = false) :
    blockBody indent true cs = spaces indent ++ blockBody indent false cs := by
  obtain ⟨c, cs, rfl⟩ := List.exists_cons_of_ne_nil nonempty
  have hc : isBreak c = false := inside c rfl
  simp [blockBody, indentLines, hc]

theorem blockBody_append (fresh : Bool) (cs : List Char) :
    blockBody indent fresh (cs ++ ['\n']) = blockBody indent fresh cs ++ ['\n'] := by
  unfold blockBody
  induction cs generalizing fresh with
  | nil => rfl
  | cons c cs ih =>
    rw [List.cons_append, indentLines, indentLines, ih, ih]
    split <;> simp

theorem getLast?_blockBody (indent : Nat) (fresh : Bool) (cs : List Char) :
    (blockBody indent fresh cs).getLast? = cs.getLast? := by
  unfold blockBody
  induction cs generalizing fresh with
  | nil => rfl
  | cons c cs ih =>
    rw [indentLines, List.getLast?_cons, ← ih false]
    split
    · rw [List.getLast?_cons, ih true, ih false]
    · simp [List.getLast?_append, List.getLast?_cons]

theorem head?_blockBody (indent : Nat) (nonempty : cs ≠ []) (after : List Char) :
    (blockBody indent false cs ++ after).head? = cs.head? := by
  obtain ⟨c, cs, rfl⟩ := List.exists_cons_of_ne_nil nonempty
  rw [blockBody, indentLines]
  split <;> rfl

/-- A line behind its indentation starts with a character of its text. -/
theorem startsLine_blockBody (indent : Nat) (nonempty : cs ≠ [])
    (inside : ∀ c ∈ cs.head?, isBreak c = false) (printable : ∀ c ∈ cs, isPrintable c = true)
    (after : List Char) : StartsLine (blockBody indent false cs ++ after) := by
  intro c hc
  rw [head?_blockBody indent nonempty] at hc
  refine ⟨?_, inside c hc⟩
  rintro rfl
  cases printable '\t' (List.mem_of_mem_head? hc)

theorem length_le_blockBody (indent : Nat) (fresh : Bool) (cs : List Char) :
    cs.length ≤ (blockBody indent fresh cs).length := by
  unfold blockBody
  induction cs generalizing fresh with
  | nil => exact Nat.zero_le _
  | cons c cs ih =>
    have broken := ih true
    have inside := ih false
    rw [indentLines]
    split
    · simpa using broken
    · simp only [List.length_append, List.length_cons, List.length_nil]
      omega

theorem endLine_append (before : List Char) (nonempty : cs ≠ []) :
    endLine (before ++ cs) = before ++ endLine cs := by
  obtain ⟨cs, c, rfl⟩ := List.eq_nil_or_concat cs |>.resolve_left nonempty
  unfold endLine
  rw [List.concat_eq_append, ← List.append_assoc, List.getLast?_concat, List.getLast?_concat]
  split <;> simp

theorem printable_endLine (printable : ∀ c ∈ cs, isPrintable c = true) :
    ∀ c ∈ endLine cs, isPrintable c = true := by
  intro c hc
  unfold endLine at hc
  split at hc
  · exact printable c hc
  · rcases List.mem_append.1 hc with hc | hc
    · exact printable c hc
    · obtain rfl := List.mem_singleton.1 hc
      rfl

theorem head?_endLine (nonempty : cs ≠ []) : (endLine cs).head? = cs.head? := by
  obtain ⟨c, cs, rfl⟩ := List.exists_cons_of_ne_nil nonempty
  unfold endLine
  split <;> rfl

theorem endLine_closed (cs : List Char) : ∀ c ∈ (endLine cs).getLast?, isBreak c = true := by
  intro c hc
  unfold endLine at hc
  split at hc
  · rename_i closed
    rw [hc] at closed
    exact closed
  · rw [List.getLast?_concat] at hc
    obtain rfl : '\n' = c := Option.some.inj hc
    rfl

/-- A text of line ends ends its last line. -/
theorem eq_of_endLine_breaks {breaks : List Char} (nonempty : cs ≠ [])
    (lines : ∀ c ∈ breaks, isBreak c = true) (h : endLine cs = breaks) : cs = breaks := by
  unfold endLine at h
  split at h
  · exact h
  · rename_i last
    obtain ⟨cs, c, rfl⟩ := List.eq_nil_or_concat cs |>.resolve_left nonempty
    refine absurd ?_ last
    rw [List.concat_eq_append, List.getLast?_concat]
    exact lines c (by simp [← h])

/-- A block ends its last line. -/
theorem endLine_blockBody (fresh : Bool) (cs : List Char) :
    endLine (blockBody indent fresh cs) = blockBody indent fresh (endLine cs) := by
  unfold endLine
  rw [getLast?_blockBody]
  split
  · rfl
  · rw [blockBody_append]

namespace Cursor

variable {cursor : Cursor} {fuel given n k : Nat}

/-- The indentation of a line is passed over, and no more than is known of it. -/
theorem skipIndent_eq (h : cursor.rest = spaces n ++ rest)
    (fits : given = 0 ∨ cursor.column + n ≤ given)
    (stops : given = 0 ∨ cursor.column + n < given → ∀ c ∈ rest.head?, c ≠ ' ')
    (enough : n < fuel) : cursor.skipIndent given fuel = cursor.ahead n rest := by
  induction n generalizing fuel cursor with
  | zero =>
    obtain ⟨fuel, rfl⟩ : ∃ m, fuel = m + 1 := ⟨fuel - 1, by omega⟩
    have hrest : cursor.rest = rest := h
    have here : cursor.ahead 0 rest = cursor := by rw [← hrest]; rfl
    have stay : ((given == 0 || decide (cursor.column < given)) && cursor.nextIs ' ') = false := by
      by_cases more : given = 0 ∨ cursor.column < given
      · have other := stops more
        have notSpace : cursor.nextIs ' ' = false := nextIs_eq_false (by rw [hrest]; exact other)
        rw [notSpace, Bool.and_false]
      · simp only [not_or] at more
        simp [more]
    rw [skipIndent, stay, here]
    rfl
  | succ n ih =>
    obtain ⟨fuel, rfl⟩ : ∃ m, fuel = m + 1 := ⟨fuel - 1, by omega⟩
    rw [spaces, List.replicate_succ, List.cons_append] at h
    have goes : ((given == 0 || decide (cursor.column < given)) && cursor.nextIs ' ') = true := by
      have inside : given = 0 ∨ cursor.column < given := by omega
      simp [nextIs, next?_eq h, inside]
    have later : (cursor.ahead 1 (spaces n ++ rest)).skipIndent given fuel =
        (cursor.ahead 1 (spaces n ++ rest)).ahead n rest := by
      refine ih rfl ?_ (fun more => stops ?_) (by omega)
      · rw [column_ahead]
        omega
      · rw [column_ahead] at more
        omega
    rw [skipIndent, goes, if_pos rfl, skip_eq h, ← spaces, later, ahead_ahead, Nat.add_comm 1]

/-- Empty lines are read up to a line with a character in it, and the indentation of that line. -/
theorem emptyLines?_eq (given fuel : Nat) (cursor : Cursor) (breaks : List Char) (widest : Nat)
    (endings : List Char) (lines : ∀ c ∈ breaks, isBreak c = true ∧ isPrintable c = true)
    (h : cursor.rest = breaks ++ (spaces n ++ rest)) (column : cursor.column = 0)
    (fits : given = 0 ∨ n ≤ given) (stops : given = 0 ∨ n < given → ∀ c ∈ rest.head?, c ≠ ' ')
    (inside : StartsLine rest) (enough : breaks.length < fuel) :
    ∃ later, cursor.emptyLines? given fuel widest endings =
        some (max widest n, endings ++ breaks, later) ∧
      later.rest = rest ∧ later.column = n ∧ cursor.line ≤ later.line := by
  induction breaks generalizing fuel endings cursor with
  | nil =>
    obtain ⟨fuel, rfl⟩ : ∃ m, fuel = m + 1 := ⟨fuel - 1, by omega⟩
    rw [List.nil_append] at h
    have length : n < cursor.rest.length + 1 := by
      rw [h, List.length_append, length_spaces]
      omega
    have skipped : cursor.skipIndent given (cursor.rest.length + 1) = cursor.ahead n rest :=
      skipIndent_eq h (by omega) (fun more => stops (by omega)) length
    have notTab : (cursor.ahead n rest).nextIs '\t' = false :=
      nextIs_eq_false fun c hc => (inside c hc).1
    have notBreak : (cursor.ahead n rest).atBreak = false :=
      atBreak_eq_false fun c hc => (inside c hc).2
    refine ⟨cursor.ahead n rest, ?_, rfl, by simp [column], Nat.le_refl _⟩
    rw [emptyLines?, skipped]
    simp [notTab, notBreak, column]
  | cons c breaks ih =>
    obtain ⟨fuel, rfl⟩ : ∃ m, fuel = m + 1 := ⟨fuel - 1, by omega⟩
    obtain ⟨hc, hbreaks⟩ := List.forall_mem_cons.1 lines
    rw [List.cons_append] at h
    have notSpace : c ≠ ' ' := by
      rintro rfl
      cases hc.1
    have notTab : c ≠ '\t' := by
      rintro rfl
      cases hc.1
    have stay : cursor.skipIndent given (cursor.rest.length + 1) = cursor := by
      unfold skipIndent nextIs
      simp [next?_eq h, notSpace]
    let below : Cursor := ⟨breaks ++ (spaces n ++ rest), cursor.index + 1, cursor.line + 1, 0⟩
    obtain ⟨later, hread, hrest, hcolumn, hline⟩ :=
      ih fuel below (endings ++ [c]) hbreaks rfl rfl (by simpa using enough)
    refine ⟨later, ?_, hrest, hcolumn, by simp only [below] at hline; omega⟩
    rw [emptyLines?, stay]
    rw [List.append_assoc] at hread
    simp [nextIs, next?_eq h, notTab, atBreak, hc.1, lineEnd_eq h hc.1 hc.2, column]
    exact hread

/-- How the lines of a block split a text that ends its last line. -/
structure BlockText.Splits (read : BlockText) (cs : List Char) : Prop where
  whole : read.text ++ read.ending ++ read.empty = cs
  text : ∃ before c, read.text = before ++ [c] ∧ isBreak c = false
  ending : ∃ c, read.ending = [c] ∧ isBreak c = true
  empty : ∀ c ∈ read.empty, isBreak c = true

/-- One line of a block is read, with the empty lines behind it. -/
theorem blockLines?_line (fuel : Nat) (read : BlockText) {line breaks : List Char} {c : Char}
    (inside : ∀ d ∈ line, isBreak d = false) (hc : isBreak c = true ∧ isPrintable c = true)
    (lines : ∀ d ∈ breaks, isBreak d = true ∧ isPrintable d = true)
    (h : cursor.rest = line ++ c :: (breaks ++ (spaces n ++ rest)))
    (column : cursor.column = indent) (fits : n ≤ indent) (positive : 0 < indent)
    (stops : n < indent → ∀ d ∈ rest.head?, d ≠ ' ')
    (solid : StartsLine rest) :
    ∃ blank later, cursor.blockLines? false indent (fuel + 1) read =
        later.blockLines? false indent fuel
          ⟨read.text ++ read.ending ++ read.empty ++ line, [c], breaks, blank⟩ ∧
      Below cursor rest n later := by
  obtain ⟨d, more, some⟩ : ∃ d more, cursor.rest = d :: more := by
    rw [h]
    cases line with
    | nil => exact ⟨_, _, rfl⟩
    | cons d line => exact ⟨_, _, rfl⟩
  have here : (cursor.column == indent && cursor.next?.isSome) = true := by
    simp [column, next?_eq some]
  have taken := takeWhile_eq (p := fun c => !isBreak c) h (by simpa using inside)
    (by simpa using hc.1)
  have ended : (cursor.ahead line.length (c :: (breaks ++ (spaces n ++ rest)))).lineEnd = _ :=
    lineEnd_eq rfl hc.1 hc.2
  let below : Cursor :=
    ⟨breaks ++ (spaces n ++ rest), cursor.index + line.length + 1, cursor.line + 1, 0⟩
  obtain ⟨later, hread, hrest, hcolumn, hline⟩ :=
    emptyLines?_eq indent (below.rest.length + 1) below breaks 0 [] lines rfl rfl (.inr fits)
      (fun more => stops (by omega)) solid
      (by simp only [below, List.length_append]; omega)
  refine ⟨cursor.atBlank, later, ?_, hrest, hcolumn, by simp only [below] at hline; omega⟩
  simp only [index_ahead, line_ahead] at ended
  rw [blockLines?, here]
  simp only [below] at hread
  simp only [↓reduceIte, taken, ended, hread, Bool.false_and, Bool.false_eq_true]
  simp

/-- The lines of a block are read up to the line of the next token. -/
theorem blockLines?_eq (fuel : Nat) (read : BlockText) (cs : List Char) (nonempty : cs ≠ [])
    (first : ∀ c ∈ cs.head?, isBreak c = false) (last : cs.getLast?.any isBreak = true)
    (printable : ∀ c ∈ cs, isPrintable c = true)
    (h : cursor.rest = blockBody indent false cs ++ (spaces k ++ rest))
    (column : cursor.column = indent) (outside : k < indent) (ends : EndsGap rest)
    (enough : cs.length < fuel) :
    ∃ body later, cursor.blockLines? false indent fuel read = some (body, later) ∧
      body.Splits (read.text ++ read.ending ++ read.empty ++ cs) ∧ Below cursor rest k later := by
  induction hn : cs.length using Nat.strongRecOn generalizing cs cursor fuel read with
  | ind n ih =>
    obtain ⟨fuel, rfl⟩ : ∃ m, fuel = m + 1 := ⟨fuel - 1, by omega⟩
    obtain ⟨line, c, breaks, others, rfl, written, inside, hc, hbreaks, hothers⟩ :=
      exists_line nonempty first last
    have endPrintable : isPrintable c = true := printable c (by simp)
    have lines : ∀ d ∈ breaks, isBreak d = true ∧ isPrintable d = true := fun d hd =>
      ⟨hbreaks d hd, printable d (by simp [hd])⟩
    rw [blockBody_line inside, blockBody_break hc, blockBody_breaks hbreaks] at h
    by_cases none : others = []
    · subst none
      have empty : blockBody indent true [] = [] := rfl
      rw [empty] at h
      obtain ⟨blank, later, hread, below⟩ := blockLines?_line fuel read inside ⟨hc, endPrintable⟩
        lines (by simpa using h) column (by omega) (by omega) (fun _ => ends.ne_space)
        ends.startsLine
      obtain ⟨fuel, rfl⟩ : ∃ m, fuel = m + 1 := ⟨fuel - 1, by simp at enough; omega⟩
      have elsewhere : (later.column == indent) = false := by
        rw [beq_eq_false_iff_ne, below.column]
        omega
      refine ⟨⟨read.text ++ read.ending ++ read.empty ++ line, [c], breaks, blank⟩, later,
        hread.trans ?_, ⟨by simp, ?_, ⟨c, rfl, hc⟩, hbreaks⟩, below⟩
      · rw [blockLines?, elsewhere]
        rfl
      · obtain ⟨before, d, rfl⟩ := List.eq_nil_or_concat line |>.resolve_left written
        exact ⟨read.text ++ read.ending ++ read.empty ++ before, d, by simp, inside d (by simp)⟩
    · have othersPrintable : ∀ d ∈ others, isPrintable d = true := fun d hd =>
        printable d (by simp [hd])
      have whole : line ++ c :: (breaks ++ others) = (line ++ c :: breaks) ++ others := by simp
      rw [whole, getLast?_append_of_nonempty _ none] at last
      rw [blockBody_fresh none hothers] at h
      obtain ⟨blank, later, hread, below⟩ := blockLines?_line fuel read (n := indent) inside
        ⟨hc, endPrintable⟩ lines (by simpa using h) column (by omega) (by omega) (by omega)
        (startsLine_blockBody indent none hothers othersPrintable _)
      obtain ⟨body, stop, hbody, splits, hstop⟩ := ih others.length (by simp at hn; omega) fuel
        ⟨read.text ++ read.ending ++ read.empty ++ line, [c], breaks, blank⟩ others
        none hothers last othersPrintable below.rest below.column (by simp at enough; omega) rfl
      refine ⟨body, stop, hread.trans hbody, by simpa using splits, hstop.rest, hstop.column, ?_⟩
      have := below.line
      have := hstop.line
      omega

/-! ## Marks -/

/-- What a mark says about the line ends at the end. -/
def Chomping.ofMark : List Char → Chomping
  | ['-'] => .strip
  | ['+'] => .keep
  | _ => .clip

/-- The line ends at the end of a block that belong to its text. -/
def Chomping.kept : Chomping → BlockText → List Char
  | .strip, _ => []
  | .clip, read => read.ending
  | .keep, read => read.ending ++ read.empty

theorem chomping_cases (cs : List Char) :
    chomping cs = [] ∨ chomping cs = ['+'] ∨ chomping cs = ['-'] := by
  unfold chomping
  repeat' split
  all_goals simp

theorem blockMarks?_eq {hint mark : List Char} (hhint : hint = [] ∨ hint = ['2'])
    (hmark : mark = [] ∨ mark = ['+'] ∨ mark = ['-'])
    (h : cursor.rest = hint ++ mark ++ '\n' :: rest) :
    cursor.blockMarks? = some (.ofMark mark, if hint = [] then 0 else 2,
      cursor.ahead (hint ++ mark).length ('\n' :: rest)) := by
  obtain ⟨_, index, line, column⟩ := cursor
  dsimp only at h
  subst h
  rcases hhint with rfl | rfl <;> rcases hmark with rfl | rfl | rfl <;> rfl

/-- The mark of a text keeps the line ends that belong to it. -/
theorem kept_of_splits {body : BlockText} (splits : body.Splits (endLine cs)) :
    body.text ++ (Chomping.ofMark (chomping cs)).kept body = cs := by
  obtain ⟨text, ending, empty, blank⟩ := body
  obtain ⟨whole, ⟨before, d, rfl, inside⟩, ⟨c, rfl, hc⟩, hempty⟩ := splits
  dsimp only at whole hempty ⊢
  by_cases closed : cs.getLast?.any isBreak = true
  · -- The text ends its last line, so the mark keeps one line end or all.
    rw [endLine, if_pos closed] at whole
    rcases List.eq_nil_or_concat empty with rfl | ⟨breaks, e, rfl⟩
    · have mark : chomping cs = [] := by
        simp [← whole, chomping, hc, inside]
      rw [mark]
      simpa [Chomping.ofMark, Chomping.kept] using whole
    · have he : isBreak e = true := hempty e (by simp)
      have mark : chomping cs = ['+'] := by
        rcases List.eq_nil_or_concat breaks with rfl | ⟨breaks, f, rfl⟩
        · simp [← whole, chomping, hc, he]
        · have hf : isBreak f = true := hempty f (by simp)
          simp [← whole, chomping, hf, he]
      rw [mark]
      simpa [Chomping.ofMark, Chomping.kept] using whole
  · rw [endLine, if_neg closed] at whole
    have mark : chomping cs = ['-'] := by
      rcases List.eq_nil_or_concat cs with rfl | ⟨cs, e, rfl⟩
      · rfl
      · have he : isBreak e = false := by simpa using closed
        simp [chomping, he]
    rcases List.eq_nil_or_concat empty with rfl | ⟨breaks, e, rfl⟩
    · rw [List.append_nil] at whole
      obtain ⟨text, -⟩ := List.append_inj' whole rfl
      rw [mark, ← text]
      simp [Chomping.ofMark, Chomping.kept]
    · -- Otherwise the text would end with a line end.
      rw [List.concat_eq_append, ← List.append_assoc] at whole
      obtain ⟨text, -⟩ := List.append_inj' whole rfl
      refine absurd ?_ closed
      rcases List.eq_nil_or_concat breaks with rfl | ⟨breaks, f, rfl⟩
      · simp [← text, hc]
      · have hf : isBreak f = true := hempty f (by simp)
        rw [← text, List.concat_eq_append, ← List.append_assoc, List.getLast?_concat]
        exact hf

/-- The mark of a text of line ends keeps them all. -/
theorem kept_of_breaks (nonempty : cs ≠ []) (lines : ∀ c ∈ cs, isBreak c = true) (blank : Bool) :
    (Chomping.ofMark (chomping cs)).kept ⟨[], [], cs, blank⟩ = cs := by
  have mark : chomping cs = ['+'] := by
    obtain ⟨breaks, e, rfl⟩ := List.eq_nil_or_concat cs |>.resolve_left nonempty
    have he : isBreak e = true := lines e (by simp)
    rcases List.eq_nil_or_concat breaks with rfl | ⟨breaks, f, rfl⟩
    · simp [chomping, he]
    · have hf : isBreak f = true := lines f (by simp)
      simp [chomping, hf, he]
  rw [mark]
  rfl

/-- What is read of a block: its lines, or empty lines alone. -/
def BlockText.Reads (read : BlockText) (cs : List Char) : Prop :=
  read.Splits cs ∨ read = ⟨[], [], cs, false⟩ ∧ ∀ c ∈ cs, isBreak c = true

/-- What a mark keeps of a block is a start of its lines. -/
theorem BlockText.Reads.starts {body : BlockText} (reads : body.Reads cs) (mark : Chomping) :
    body.text ++ mark.kept body <+: cs := by
  have whole : body.text ++ (body.ending ++ body.empty) = cs := by
    rw [← List.append_assoc]
    rcases reads with splits | ⟨rfl, -⟩
    · exact splits.whole
    · rfl
  rw [← whole, List.prefix_append_right_inj]
  cases mark with
  | strip => exact List.nil_prefix
  | clip => exact List.prefix_append ..
  | keep => exact List.prefix_rfl

/-- A text is what its mark keeps of its block. -/
theorem kept_of_reads {body : BlockText} (nonempty : cs ≠ []) (reads : body.Reads (endLine cs)) :
    body.text ++ (Chomping.ofMark (chomping cs)).kept body = cs := by
  rcases reads with splits | ⟨rfl, lines⟩
  · exact kept_of_splits splits
  · have same : cs = endLine cs := eq_of_endLine_breaks nonempty lines rfl
    rw [← same] at lines ⊢
    exact kept_of_breaks nonempty lines false

/-! ## Blocks -/

/-- The mark of the indentation, which a text that starts with a blank needs. -/
def indentHint (cs : List Char) : List Char :=
  if cs.head?.any fun c => isSpace c || isBreak c then ['2'] else []

theorem indentHint_cases (cs : List Char) :
    indentHint cs = ['2'] ∨ indentHint cs = [] ∧ ∀ c ∈ cs.head?, c ≠ ' ' ∧ isBreak c = false := by
  unfold indentHint
  cases h : cs.head? with
  | none => exact .inr ⟨rfl, nofun⟩
  | some c =>
    cases blank : isSpace c || isBreak c with
    | true => exact .inl (by simp [blank])
    | false =>
      simp only [Bool.or_eq_false_iff, isSpace, decide_eq_false_iff_not] at blank
      refine .inr ⟨by simp [isSpace, blank], fun d hd => ?_⟩
      obtain rfl := Option.some.inj hd
      exact blank

theorem endLine_literalBlock (indent : Nat) (nonempty : cs ≠ []) :
    endLine (literalBlock indent cs) =
      '|' :: (indentHint cs ++ chomping cs ++ '\n' :: blockBody indent true (endLine cs)) := by
  have written : blockBody indent true cs ≠ [] := by
    intro empty
    have last := getLast?_blockBody indent true cs
    rw [empty] at last
    exact nonempty (List.getLast?_eq_none_iff.1 last.symm)
  have split : literalBlock indent cs =
      ('|' :: indentHint cs ++ chomping cs ++ ['\n']) ++ blockBody indent true cs := by
    simp [literalBlock, indentHint, blockBody]
  rw [split, endLine_append _ written, endLine_blockBody]
  simp

/-- Nothing but the line end stands behind the marks of a block. -/
theorem blockHead_eq (h : cursor.rest = '\n' :: rest) :
    cursor.skipBlanks.skipComment = cursor := by
  have blanks : cursor.skipBlanks = cursor := by
    refine skipWhile_here fun c hc => ?_
    obtain rfl : '\n' = c := by simpa [h] using hc
    rfl
  have noComment : cursor.nextIs '#' = false := by
    simp [nextIs, next?_eq h]
  rw [blanks, skipComment, noComment]
  rfl

/-- A block is read as its marks, the empty lines in front and the lines. -/
theorem blockScalar?_eq {parent : Int} {mark : Chomping} {number widest : Nat}
    {empty after : List Char} {marked top later : Cursor} {body : BlockText}
    (marks : cursor.blockMarks? = some (mark, number, marked)) (head : marked.rest = '\n' :: after)
    (hgiven : given = if number = 0 then 0 else (max parent 0).toNat + number)
    (hempty : emptyLines? given (after.length + 1) 0 []
      ⟨after, marked.index + 1, marked.line + 1, 0⟩ = some (widest, empty, top))
    (hindent : indent = if given = 0 then max (max widest (parent + 1).toNat) 1 else given)
    (lines : top.blockLines? false indent (top.rest.length + 1) ⟨[], [], empty, false⟩ =
      some (body, later)) :
    cursor.blockScalar? false parent =
      some (String.ofList (body.text ++ mark.kept body), later) := by
  have atEnd : marked.atLineEnd = true := by
    simp [atLineEnd, next?_eq head, isBreak]
  have ended : marked.lineEnd = _ := lineEnd_eq head rfl rfl
  subst hgiven hindent
  unfold blockScalar?
  rw [marks]
  simp only [bind, Option.bind_some, blockHead_eq head, atEnd, ended, Bool.not_true,
    Bool.false_eq_true, ↓reduceIte, hempty, lines]
  cases mark <;> rfl

/-- The marks in front of a text tell its indentation, unless its first line does. -/
theorem blockMarks?_literal (cs : List Char)
    (h : cursor.rest = indentHint cs ++ chomping cs ++ '\n' :: rest) :
    ∃ number marked, cursor.blockMarks? = some (.ofMark (chomping cs), number, marked) ∧
      marked.rest = '\n' :: rest ∧ marked.line = cursor.line ∧
      (number = 2 ∨ number = 0 ∧ ∀ c ∈ cs.head?, c ≠ ' ' ∧ isBreak c = false) := by
  let marked := cursor.ahead (indentHint cs ++ chomping cs).length ('\n' :: rest)
  rcases indentHint_cases cs with hint | ⟨hint, first⟩
  · refine ⟨2, marked, ?_, rfl, rfl, .inl rfl⟩
    rw [blockMarks?_eq (.inr hint) (chomping_cases _) h, if_neg (by simp [hint])]
  · refine ⟨0, marked, ?_, rfl, rfl, .inr ⟨rfl, first⟩⟩
    rw [blockMarks?_eq (.inl hint) (chomping_cases _) h, if_pos hint]

section Marked

variable {parent : Int} {mark : Chomping} {number : Nat} {marked : Cursor}
  {breaks others : List Char}

/-- Empty lines alone, with the next token on a line that is not behind the indentation. -/
theorem blockScalar?_breaks (lines : ∀ c ∈ breaks, isBreak c = true ∧ isPrintable c = true)
    (marks : cursor.blockMarks? = some (mark, number, marked))
    (head : marked.rest = '\n' :: (breaks ++ (spaces k ++ rest)))
    (outside : k ≤ (max parent 0).toNat) (ends : EndsGap rest) :
    ∃ later, cursor.blockScalar? false parent =
        some (String.ofList (mark.kept ⟨[], [], breaks, false⟩), later) ∧
      Below marked rest k later := by
  obtain ⟨given, hgiven⟩ : ∃ given, given =
    if number = 0 then 0 else (max parent 0).toNat + number := ⟨_, rfl⟩
  have fits : given = 0 ∨ k ≤ given := by
    split at hgiven
    · exact .inl hgiven
    · right
      omega
  let below : Cursor := ⟨breaks ++ (spaces k ++ rest), marked.index + 1, marked.line + 1, 0⟩
  obtain ⟨later, hempty, hrest, hcolumn, hline⟩ :=
    emptyLines?_eq given (below.rest.length + 1) below breaks 0 [] lines rfl rfl fits
      (fun _ => ends.ne_space) ends.startsLine
      (by simp only [below, List.length_append]; omega)
  obtain ⟨indent, hindent⟩ : ∃ indent, indent =
    if given = 0 then max (max (max 0 k) (parent + 1).toNat) 1 else given := ⟨_, rfl⟩
  have elsewhere : (later.column == indent) = false := by
    rw [beq_eq_false_iff_ne, hcolumn]
    split at hindent <;> split at hgiven <;> omega
  have hread := blockScalar?_eq marks head hgiven hempty hindent
    (by rw [blockLines?, elsewhere]; rfl)
  exact ⟨later, hread, hrest, hcolumn, by simp only [below] at hline; omega⟩

/-- Lines, the first of which is behind its indentation. -/
theorem blockScalar?_lines (nonempty : others ≠ [])
    (lines : ∀ c ∈ breaks, isBreak c = true ∧ isPrintable c = true)
    (inside : ∀ c ∈ others.head?, isBreak c = false) (last : others.getLast?.any isBreak = true)
    (printable : ∀ c ∈ others, isPrintable c = true)
    (hindent : indent = (max parent 0).toNat + 2)
    (known : number = 2 ∨ number = 0 ∧ ∀ c ∈ others.head?, c ≠ ' ')
    (marks : cursor.blockMarks? = some (mark, number, marked))
    (head : marked.rest = '\n' ::
      (breaks ++ (spaces indent ++ (blockBody indent false others ++ (spaces k ++ rest)))))
    (outside : k < indent) (ends : EndsGap rest) :
    ∃ body later, cursor.blockScalar? false parent =
        some (String.ofList (body.text ++ mark.kept body), later) ∧
      body.Splits (breaks ++ others) ∧ Below marked rest k later := by
  obtain ⟨given, hgiven⟩ : ∃ given, given =
    if number = 0 then 0 else (max parent 0).toNat + number := ⟨_, rfl⟩
  have bounds : given = indent ∨ given = 0 := by
    rcases known with rfl | ⟨rfl, -⟩
    · exact .inl (by simp [hgiven, hindent])
    · exact .inr hgiven
  have stops : given = 0 ∨ indent < given →
      ∀ c ∈ (blockBody indent false others ++ (spaces k ++ rest)).head?, c ≠ ' ' := by
    intro short c hc
    rw [head?_blockBody indent nonempty] at hc
    rcases known with rfl | ⟨-, first⟩
    · exact absurd short (by simp [hgiven, hindent])
    · exact first c hc
  let start : Cursor :=
    ⟨breaks ++ (spaces indent ++ (blockBody indent false others ++ (spaces k ++ rest))),
      marked.index + 1, marked.line + 1, 0⟩
  obtain ⟨top, hempty, hrest, hcolumn, hline⟩ :=
    emptyLines?_eq given (start.rest.length + 1) start breaks 0 [] lines rfl rfl (by omega) stops
      (startsLine_blockBody indent nonempty inside printable _)
      (by simp only [start, List.length_append]; omega)
  have enough : others.length < top.rest.length + 1 := by
    have := length_le_blockBody indent false others
    rw [hrest, List.length_append]
    omega
  obtain ⟨body, later, hbody, splits, below⟩ :=
    blockLines?_eq (top.rest.length + 1) ⟨[], [], breaks, false⟩ others nonempty inside last
      printable hrest hcolumn outside ends enough
  have column : indent = if given = 0 then max (max (max 0 indent) (parent + 1).toNat) 1
      else given := by
    split <;> omega
  have hread := blockScalar?_eq marks head hgiven hempty column hbody
  refine ⟨body, later, hread, by simpa using splits, below.rest, below.column, ?_⟩
  have := below.line
  simp only [start] at hline
  omega

end Marked

/-- Behind the marks of a text a block is read, whose lines may be those of another text if it
starts with the same character. -/
theorem blockScalar?_reads {t : List Char} {parent : Int}
    (front : ∀ c ∈ cs.head?, c ∈ t.head?) (closed : ∀ c ∈ cs.getLast?, isBreak c = true)
    (printable : ∀ c ∈ cs, isPrintable c = true) (hindent : indent = (max parent 0).toNat + 2)
    (outside : k ≤ (max parent 0).toNat) (ends : EndsGap rest)
    (h : cursor.rest = indentHint t ++ chomping t ++
      '\n' :: (blockBody indent true cs ++ (spaces k ++ rest))) :
    ∃ body later, cursor.blockScalar? false parent =
        some (String.ofList (body.text ++ (Chomping.ofMark (chomping t)).kept body), later) ∧
      body.Reads cs ∧ Below cursor rest k later := by
  obtain ⟨number, marked, marks, head, line, known⟩ := blockMarks?_literal t h
  obtain ⟨breaks, others, rfl, hbreaks, inside⟩ := exists_run isBreak cs
  have lines : ∀ c ∈ breaks, isBreak c = true ∧ isPrintable c = true := fun c hc =>
    ⟨hbreaks c hc, printable c (List.mem_append_left others hc)⟩
  rw [blockBody_breaks hbreaks, List.append_assoc] at head
  by_cases none : others = []
  · subst none
    obtain ⟨later, hread, below⟩ := blockScalar?_breaks lines marks head outside ends
    refine ⟨⟨[], [], breaks, false⟩, later, hread, ?_, below.rest, below.column, ?_⟩
    · rw [List.append_nil]
      exact .inr ⟨rfl, hbreaks⟩
    · rw [← line]
      exact below.line
  · rw [blockBody_fresh none inside, List.append_assoc] at head
    have unmarked (first : ∀ c ∈ t.head?, c ≠ ' ' ∧ isBreak c = false) :
        ∀ c ∈ others.head?, c ≠ ' ' := by
      -- Without a mark the text starts with a line, so no empty lines stand in front of it.
      cases breaks with
      | nil => exact fun c hc => (first c (front c hc)).1
      | cons c breaks =>
        have unbroken := (first c (front c rfl)).2
        rw [hbreaks c List.mem_cons_self] at unbroken
        cases unbroken
    have last : others.getLast?.any isBreak = true := by
      rw [getLast?_append_of_nonempty breaks none] at closed
      have final := List.getLast?_eq_some_getLast none
      simpa [final] using closed _ final
    obtain ⟨body, later, hread, splits, below⟩ := blockScalar?_lines none lines inside last
      (fun c hc => printable c (List.mem_append_right breaks hc)) hindent
      (known.imp_right (.imp_right unmarked)) marks head (by omega) ends
    exact ⟨body, later, hread, .inl splits, below.rest, below.column, by
      rw [← line]
      exact below.line⟩

/-- A literal block is read back behind its indicator. -/
theorem blockScalar?_literal {s : String} {parent : Int} (literal : IsLiteral s.toList)
    (hindent : indent = (max parent 0).toNat + 2) (outside : k ≤ (max parent 0).toNat)
    (ends : EndsGap rest)
    (h : cursor.rest = indentHint s.toList ++ chomping s.toList ++
      '\n' :: (blockBody indent true (endLine s.toList) ++ (spaces k ++ rest))) :
    ∃ later, cursor.blockScalar? false parent = some (s, later) ∧ Below cursor rest k later := by
  obtain ⟨body, later, hread, reads, below⟩ := blockScalar?_reads
    (by rw [head?_endLine literal.nonempty]; exact fun _ hc => hc) (endLine_closed s.toList)
    (printable_endLine literal.printable) hindent outside ends h
  refine ⟨later, ?_, below⟩
  rw [hread, kept_of_reads literal.nonempty reads, String.ofList_toList]

end Cursor

end ServiceContract.Yaml
