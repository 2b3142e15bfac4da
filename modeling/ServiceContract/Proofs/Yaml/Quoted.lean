import ServiceContract.Proofs.Yaml.Gap

/-!
# Reading quoted scalars back

Between single quotes a text stands for itself, but for its quotes, which are doubled, and for the
indentation behind its line ends; between double quotes it is on one line, with escapes. Both are
read back piece by piece: a run of spaces, a run of line ends with the indentation behind it, an
escape, or a single character.
-/

namespace ServiceContract.Yaml

variable {cs rest after : List Char}

/-! ## Neighbours -/

theorem hasPair_append {first second : Char → Bool} {before : List Char}
    (h : hasPair first second (before ++ rest) = false) : hasPair first second rest = false := by
  induction before with
  | nil => exact h
  | cons a before ih =>
    refine ih ?_
    rw [List.cons_append] at h
    cases hrest : before ++ rest with
    | nil => rfl
    | cons b more =>
      rw [hrest, hasPair, Bool.or_eq_false_iff] at h
      exact h.2

theorem not_hasPair {first second : Char → Bool} {before : List Char} {a b : Char}
    (h : hasPair first second (before ++ a :: b :: rest) = false) (ha : first a = true) :
    second b = false := by
  have here := hasPair_append h
  rw [hasPair, Bool.or_eq_false_iff, ha, Bool.true_and] at here
  exact here.1

/-- What may stand between single quotes. -/
structure IsQuotable (cs : List Char) : Prop where
  printable : ∀ c ∈ cs, isPrintable c = true
  oneLine : '\n' ∉ cs
  breakSpace : hasPair isBreak isSpace cs = false
  spaceBreak : hasPair isSpace isBreak cs = false

theorem IsQuotable.drop (first : List Char) (h : IsQuotable (first ++ cs)) : IsQuotable cs where
  printable c hc := h.printable c (List.mem_append_right _ hc)
  oneLine hc := h.oneLine (List.mem_append_right _ hc)
  breakSpace := hasPair_append h.breakSpace
  spaceBreak := hasPair_append h.spaceBreak

theorem IsQuotable.tail {c : Char} (h : IsQuotable (c :: cs)) : IsQuotable cs :=
  drop [c] h

/-- Behind spaces stands no line end. -/
theorem IsQuotable.solid_behind_spaces {k : Nat} (h : IsQuotable (spaces (k + 1) ++ cs))
    (run : ∀ c ∈ cs.head?, c ≠ ' ') : ∀ c ∈ cs.head?, IsSolid c := by
  intro c hc
  cases cs with
  | nil => cases hc
  | cons d cs =>
    obtain rfl : d = c := by simpa using hc
    have pair : hasPair isSpace isBreak (spaces k ++ ' ' :: d :: cs) = false := by
      have := h.spaceBreak
      rwa [spaces, List.replicate_succ', List.append_assoc, List.singleton_append] at this
    exact isSolid_of_printable (h.printable d (by simp)) (run d hc) (not_hasPair pair rfl)

/-- Behind line ends stands no space. -/
theorem IsQuotable.solid_behind_breaks (breaks : List Char) (h : IsQuotable (breaks ++ cs))
    (nonempty : breaks ≠ []) (lines : ∀ c ∈ breaks, isBreak c = true)
    (run : ∀ c ∈ cs.head?, isBreak c = false) : ∀ c ∈ cs.head?, IsSolid c := by
  intro c hc
  cases cs with
  | nil => cases hc
  | cons d cs =>
    obtain rfl : d = c := by simpa using hc
    obtain ⟨before, last, rfl⟩ := List.eq_nil_or_concat breaks |>.resolve_left nonempty
    have pair : hasPair isBreak isSpace (before ++ last :: d :: cs) = false := by
      have := h.breakSpace
      rwa [List.concat_eq_append, List.append_assoc, List.singleton_append] at this
    have notSpace := not_hasPair pair (lines last (by simp))
    exact isSolid_of_printable (h.printable d (by simp)) (by simpa [isSpace] using notSpace)
      (run d hc)

/-! ## Single quotes -/

/-- What is written between single quotes; `fresh` says that a line has just begun. -/
def singleBody (indent : Nat) : (fresh : Bool) → List Char → List Char
  | fresh, [] => if fresh then spaces indent else []
  | fresh, c :: cs =>
    if isBreak c then c :: singleBody indent true cs
    else (if fresh then spaces indent else []) ++ writeSingle c ++ singleBody indent false cs

theorem singleBody_eq (indent : Nat) (cs : List Char) (fresh : Bool) :
    indentLines indent writeSingle fresh cs ++
        (if (cs.getLast?.elim fresh isBreak) then spaces indent else []) =
      singleBody indent fresh cs := by
  induction cs generalizing fresh with
  | nil => rfl
  | cons c cs ih =>
    have last (b : Bool) (hb : cs = [] → b = isBreak c) :
        (c :: cs).getLast?.elim fresh isBreak = cs.getLast?.elim b isBreak := by
      cases cs with
      | nil => simp [hb rfl]
      | cons d cs =>
        rw [List.getLast?_cons_cons, List.getLast?_eq_some_getLast (by simp)]
        rfl
    rw [indentLines, singleBody]
    split
    · rename_i ends
      rw [last true (fun _ => ends.symm), List.cons_append, ih]
    · rename_i inside
      rw [last false (fun _ => by simpa using inside), List.append_assoc, ih]

theorem singleQuoted_eq (indent : Nat) (cs : List Char) :
    singleQuoted indent cs = '\'' :: (singleBody indent false cs ++ ['\'']) := by
  have same : (if cs.getLast?.any isBreak then spaces indent else []) =
      if (cs.getLast?.elim false isBreak) then spaces indent else [] := by
    cases cs.getLast? <;> rfl
  rw [singleQuoted, same, ← singleBody_eq]
  simp

theorem singleBody_spaces (indent n : Nat) (cs : List Char) :
    singleBody indent false (spaces n ++ cs) = spaces n ++ singleBody indent false cs := by
  induction n with
  | zero => rfl
  | succ n ih =>
    have step : spaces (n + 1) ++ cs = ' ' :: (spaces n ++ cs) := rfl
    rw [step, singleBody, if_neg (by decide), ih]
    rfl

theorem singleBody_breaks (indent : Nat) (breaks cs : List Char)
    (lines : ∀ c ∈ breaks, isBreak c = true) :
    singleBody indent true (breaks ++ cs) = breaks ++ singleBody indent true cs := by
  induction breaks with
  | nil => rfl
  | cons c breaks ih =>
    obtain ⟨hc, hbreaks⟩ := List.forall_mem_cons.1 lines
    rw [List.cons_append, singleBody, if_pos hc, ih hbreaks, List.cons_append]

theorem singleBody_fresh (indent : Nat) (cs : List Char)
    (inside : ∀ c ∈ cs.head?, isBreak c = false) :
    singleBody indent true cs = spaces indent ++ singleBody indent false cs := by
  cases cs with
  | nil => simp [singleBody]
  | cons c cs =>
    have hc : isBreak c = false := inside c rfl
    simp [singleBody, hc]

/-- A piece that starts with a character of a word ends a gap. -/
theorem endsGap_singleBody (indent : Nat) (cs : List Char) (solid : ∀ c ∈ cs.head?, IsSolid c)
    (after : List Char) : EndsGap (singleBody indent false cs ++ '\'' :: after) := by
  cases cs with
  | nil =>
    rw [singleBody, if_neg (by simp), List.nil_append]
    exact endsGap_cons rfl
  | cons c cs =>
    have hc : IsSolid c := solid c rfl
    rw [singleBody, if_neg (by simp [hc.isBreak_eq]), if_neg (by simp), List.nil_append,
      writeSingle]
    split
    · exact endsGap_cons rfl
    · exact endsGap_cons hc

namespace Cursor

variable {cursor : Cursor} {fuel indent : Nat} {single : Bool}

/-! ## The pieces of a quoted text -/

section Pieces

variable {c : Char} {text : List Char} {stop later : Cursor}

theorem quotedFrom?_single (inside : 0 < cursor.column) (h : cursor.rest = '\'' :: after)
    (ends : after.head? ≠ some '\'') :
    quotedFrom? true (fuel + 1) cursor = some ([], cursor.ahead 1 after) := by
  have notDoubled : ¬cursor.ahead? 1 = some '\'' := by
    rw [ahead?, h]
    cases after with
    | nil => simp
    | cons c after => simpa using ends
  rw [quotedFrom?, atDocumentMarker_eq_false inside, next?_eq h]
  simp [notDoubled, skip_eq h]

theorem quotedFrom?_doubled (inside : 0 < cursor.column) (h : cursor.rest = '\'' :: '\'' :: rest)
    (next : quotedFrom? true fuel (cursor.ahead 2 rest) = some (text, later)) :
    quotedFrom? true (fuel + 1) cursor = some ('\'' :: text, later) := by
  have doubled : cursor.ahead? 1 = some '\'' := by rw [ahead?, h]; rfl
  have skipped : cursor.skipMany 2 = cursor.ahead 2 rest := by
    rw [skipMany, skip_eq h, skipMany, skip_eq (rest_ahead cursor 1 _), ahead_ahead]
    rfl
  rw [quotedFrom?, atDocumentMarker_eq_false inside, next?_eq h]
  simp [doubled, skipped, next]

theorem quotedFrom?_gap {gap : Gap} (inside : 0 < cursor.column) (h : cursor.rest = c :: rest)
    (separates : isBlankOrEnd c = true)
    (hgap : cursor.gap? 0 (cursor.rest.length + 1) ⟨[], [], [], false⟩ = some (gap, stop))
    (next : quotedFrom? single fuel stop = some (text, later)) :
    quotedFrom? single (fuel + 1) cursor = some (gap.fold ++ text, later) := by
  have notSingle : c ≠ '\'' := by rintro rfl; cases separates
  have notDouble : c ≠ '"' := by rintro rfl; cases separates
  have notEscape : c ≠ '\\' := by rintro rfl; cases separates
  rw [quotedFrom?, atDocumentMarker_eq_false inside, next?_eq h]
  simp [notSingle, notDouble, notEscape, separates, hgap, next]

/-- A run of spaces. -/
theorem quotedFrom?_spaces {k : Nat} (inside : 0 < cursor.column)
    (h : cursor.rest = spaces (k + 1) ++ rest) (ends : EndsGap rest)
    (next : quotedFrom? single fuel (cursor.ahead (k + 1) rest) = some (text, later)) :
    quotedFrom? single (fuel + 1) cursor = some (spaces (k + 1) ++ text, later) := by
  have room : k + 1 < cursor.rest.length + 1 := by
    rw [h, List.length_append, length_spaces]
    omega
  exact quotedFrom?_gap inside h rfl (gap?_spaces 0 (k + 1) [] h ends room) next

/-- A run of line ends with the indentation behind it. -/
theorem quotedFrom?_lines {breaks : List Char} (inside : 0 < cursor.column)
    (h : cursor.rest = c :: (breaks ++ (spaces indent ++ rest)))
    (lines : ∀ d ∈ c :: breaks, isBreak d = true ∧ isPrintable d = true) (notFeed : c ≠ '\n')
    (ends : EndsGap rest) :
    ∃ stop, Below cursor rest indent stop ∧ ∀ {fuel text later},
      quotedFrom? single fuel stop = some (text, later) →
        quotedFrom? single (fuel + 1) cursor = some (c :: (breaks ++ text), later) := by
  have room : breaks.length + indent + 1 < cursor.rest.length + 1 := by
    simp only [h, List.length_cons, List.length_append, length_spaces]
    omega
  obtain ⟨stop, hgap, below⟩ := gap?_lines 0 breaks indent h ends lines room
  refine ⟨stop, below, fun {fuel text later} next => ?_⟩
  have separates : isBlankOrEnd c = true := by
    simp [isBlankOrEnd, (lines c List.mem_cons_self).1]
  have fold : Gap.fold ⟨[], [c], breaks, true⟩ = c :: breaks := by
    simp [Gap.fold, notFeed]
  have read := quotedFrom?_gap inside h separates hgap next
  rwa [fold] at read

theorem quotedFrom?_char (inside : 0 < cursor.column) (h : cursor.rest = c :: rest)
    (solid : IsSolid c) (notSingle : single = true → c ≠ '\'')
    (notDouble : single = false → c ≠ '"' ∧ c ≠ '\\')
    (next : quotedFrom? single fuel (cursor.ahead 1 rest) = some (text, later)) :
    quotedFrom? single (fuel + 1) cursor = some (c :: text, later) := by
  have within : isBlankOrEnd c = false := solid
  rw [quotedFrom?, atDocumentMarker_eq_false inside, next?_eq h]
  cases single with
  | true => simp [notSingle rfl, within, skip_eq h, next]
  | false => simp [(notDouble rfl).1, (notDouble rfl).2, within, skip_eq h, next]

theorem quotedFrom?_double (inside : 0 < cursor.column) (h : cursor.rest = '"' :: after) :
    quotedFrom? false (fuel + 1) cursor = some ([], cursor.ahead 1 after) := by
  rw [quotedFrom?, atDocumentMarker_eq_false inside, next?_eq h]
  simp [skip_eq h]

theorem quotedFrom?_escape {meant : List Char} (inside : 0 < cursor.column)
    (h : cursor.rest = '\\' :: c :: rest) (letter : isBreak c = false)
    (escape : (cursor.ahead 1 (c :: rest)).escape? = some (meant, stop))
    (next : quotedFrom? false fuel stop = some (text, later)) :
    quotedFrom? false (fuel + 1) cursor = some (meant ++ text, later) := by
  have oneLine : (cursor.ahead? 1).any isBreak = false := by
    rw [ahead?, h]
    exact letter
  rw [quotedFrom?, atDocumentMarker_eq_false inside, next?_eq h]
  simp [oneLine, skip_eq h, escape, next]

end Pieces

/-- The text between single quotes is read back. -/
theorem quotedFrom?_singleBody (cs : List Char) (quotable : IsQuotable cs) (indented : 0 < indent)
    (inside : 0 < cursor.column) (h : cursor.rest = singleBody indent false cs ++ '\'' :: after)
    (ends : after.head? ≠ some '\'') (enough : cs.length < fuel) :
    ∃ later, quotedFrom? true fuel cursor = some (cs, later) ∧ later.rest = after ∧
      cursor.line ≤ later.line := by
  induction hn : cs.length using Nat.strongRecOn generalizing cs cursor fuel with
  | ind n ih =>
    obtain ⟨fuel, rfl⟩ : ∃ m, fuel = m + 1 := ⟨fuel - 1, by omega⟩
    -- What stands behind a piece is read by induction.
    have later_piece {cs' : List Char} (stop : Cursor) (shorter : cs'.length < cs.length)
        (part : IsQuotable cs') (inside : 0 < stop.column)
        (h : stop.rest = singleBody indent false cs' ++ '\'' :: after) :
        ∃ later, quotedFrom? true fuel stop = some (cs', later) ∧ later.rest = after ∧
          stop.line ≤ later.line :=
      ih cs'.length (by omega) cs' part inside h (by omega) rfl
    match cs with
    | [] => exact ⟨_, quotedFrom?_single inside h ends, rfl, Nat.le_refl _⟩
    | c :: cs =>
      have printable := quotable.printable c List.mem_cons_self
      have part : IsQuotable cs := quotable.tail
      by_cases quote : c = '\''
      · subst quote
        obtain ⟨later, next, hrest, hline⟩ :=
          later_piece (cursor.ahead 2 _) (by simp) part (by simp) rfl
        exact ⟨later, quotedFrom?_doubled inside h next, hrest, hline⟩
      by_cases space : c = ' '
      · subst space
        obtain ⟨k, more, rfl, hmore⟩ := exists_spaces cs
        have text : ' ' :: (spaces k ++ more) = spaces (k + 1) ++ more := rfl
        rw [text] at h quotable ⊢
        have solid := quotable.solid_behind_spaces hmore
        rw [singleBody_spaces, List.append_assoc] at h
        obtain ⟨later, next, hrest, hline⟩ :=
          later_piece (cursor.ahead (k + 1) _)
            (by rw [List.length_cons, List.length_append]; omega) (part.drop (spaces k))
            (by rw [column_ahead]; omega) rfl
        exact ⟨later, quotedFrom?_spaces inside h (endsGap_singleBody indent more solid after) next,
          hrest, hline⟩
      by_cases line : isBreak c = true
      · obtain ⟨breaks, more, rfl, hbreaks, hmore⟩ := exists_run isBreak cs
        have lines : ∀ d ∈ c :: breaks, isBreak d = true := List.forall_mem_cons.2 ⟨line, hbreaks⟩
        have solid : ∀ d ∈ more.head?, IsSolid d :=
          quotable.solid_behind_breaks (c :: breaks) (by simp) lines hmore
        rw [singleBody, if_pos line, singleBody_breaks _ _ _ hbreaks,
          singleBody_fresh _ _ hmore] at h
        simp only [List.cons_append, List.append_assoc] at h
        have written : ∀ d ∈ c :: breaks, isBreak d = true ∧ isPrintable d = true :=
          fun d hd => ⟨lines d hd, quotable.printable d (List.mem_append_left more hd)⟩
        have notFeed : c ≠ '\n' := by
          rintro rfl
          exact quotable.oneLine List.mem_cons_self
        obtain ⟨stop, below, piece⟩ := quotedFrom?_lines inside h written notFeed
          (endsGap_singleBody indent more solid after)
        obtain ⟨later, next, hrest, hline⟩ :=
          later_piece stop (by rw [List.length_cons, List.length_append]; omega)
            (part.drop breaks) (by rw [below.column]; exact indented) below.rest
        exact ⟨later, piece next, hrest, by have := below.line; omega⟩
      · have solid : IsSolid c := isSolid_of_printable printable space (by simpa using line)
        rw [singleBody, if_neg line, if_neg (by simp), List.nil_append, writeSingle, if_neg quote,
          List.append_assoc, List.singleton_append] at h
        obtain ⟨later, next, hrest, hline⟩ :=
          later_piece (cursor.ahead 1 _) (by simp) part (by simp) rfl
        exact ⟨later, quotedFrom?_char inside h solid (fun _ => quote) (fun h => by cases h) next,
          hrest, hline⟩

/-! ## Double quotes -/

theorem skipMany_eq (run : List Char) (h : cursor.rest = run ++ rest) :
    cursor.skipMany run.length = cursor.ahead run.length rest := by
  induction run generalizing cursor with
  | nil =>
    have hrest : cursor.rest = rest := h
    rw [← hrest]
    rfl
  | cons c run ih =>
    rw [List.cons_append] at h
    rw [List.length_cons, skipMany, skip_eq h, ih (rest_ahead cursor 1 (run ++ rest)), ahead_ahead,
      Nat.add_comm]

/-- The value of hexadecimal digits. -/
def hexValue? (digits : List Char) : Option Nat :=
  digits.foldl (fun value c => value.bind fun n => (Meaning.digit? 16 c).map (n * 16 + ·)) (some 0)

theorem digit?_toUpper : ∀ d < 16, Meaning.digit? 16 d.digitChar.toUpper = some d := by decide

theorem hexValue?_toDigits (n : Nat) :
    hexValue? ((Nat.toDigits 16 n).map Char.toUpper) = some n := by
  induction n using Nat.strongRecOn with
  | ind n ih =>
    rw [Nat.toDigits_eq_if (by omega)]
    split
    · rename_i small
      simp [hexValue?, digit?_toUpper n small]
    · have front := ih (n / 16) (by omega)
      have value : n / 16 * 16 + n % 16 = n := by omega
      rw [hexValue?] at front
      simp [hexValue?, front, digit?_toUpper (n % 16) (by omega), value]

theorem hexValue?_zeros (k : Nat) (digits : List Char) :
    hexValue? (List.replicate k '0' ++ digits) = hexValue? digits := by
  induction k with
  | zero => rfl
  | succ k ih =>
    rw [List.replicate_succ, List.cons_append, hexValue?, List.foldl_cons]
    exact ih

/-- A number is read back from its hexadecimal digits. -/
theorem digits?_upperHex {width n : Nat} (positive : 0 < width)
    (fits : (Nat.toDigits 16 n).length ≤ width) :
    Meaning.digits? 16 (upperHex width n) = some n ∧ (upperHex width n).length = width := by
  have length : (upperHex width n).length = width := by
    simp [upperHex]
    omega
  refine ⟨?_, length⟩
  have value : hexValue? (upperHex width n) = some n := by
    rw [upperHex, hexValue?_zeros, hexValue?_toDigits]
  cases digits : upperHex width n with
  | nil =>
    rw [digits, List.length_nil] at length
    omega
  | cons c cs =>
    rw [digits] at value
    exact value

theorem hexChar?_eq {width : Nat} {c : Char} (positive : 0 < width)
    (fits : (Nat.toDigits 16 c.toNat).length ≤ width)
    (h : cursor.rest = upperHex width c.toNat ++ rest) :
    cursor.hexChar? width = some ([c], cursor.ahead width rest) := by
  obtain ⟨digits, length⟩ := digits?_upperHex positive fits
  have run : cursor.rest.take width = upperHex width c.toNat := by
    rw [h, List.take_append_of_le_length (by omega), List.take_of_length_le (by omega)]
  have skipped : cursor.skipMany width = cursor.ahead width rest := by
    have := skipMany_eq _ h
    rwa [length] at this
  have valid : c.toNat.isValidChar := c.valid
  simp [hexChar?, run, length, digits, valid, skipped, Char.ofNat_toNat]

/-- A character stands for itself, or it is escaped and the escape is read as the character. -/
theorem writeDouble_cases (c : Char) :
    (writeDouble c = [c] ∧ isPrintable c = true ∧ isBreak c = false ∧ c ≠ '"' ∧ c ≠ '\\') ∨
      ∃ letter code, writeDouble c = '\\' :: letter :: code ∧ isBreak letter = false ∧
        ∀ (cursor : Cursor) (rest : List Char), cursor.rest = letter :: code ++ rest →
          cursor.escape? = some ([c], cursor.ahead (letter :: code).length rest) := by
  unfold writeDouble
  split
  · rename_i plain
    simp only [Bool.and_eq_true, decide_eq_true_eq, Bool.not_eq_true'] at plain
    obtain ⟨⟨⟨printable, line⟩, quote⟩, escape⟩ := plain
    exact .inl ⟨rfl, printable, line, quote, escape⟩
  · refine .inr ?_
    have simple {letter : Char} (line : isBreak letter = false)
        (meant : ∀ (cursor : Cursor), cursor.next? = some letter →
          cursor.escape? = some ([c], cursor.skip)) :
        ∃ letter' code, ['\\', letter] = '\\' :: letter' :: code ∧ isBreak letter' = false ∧
          ∀ (cursor : Cursor) (rest : List Char), cursor.rest = letter' :: code ++ rest →
            cursor.escape? = some ([c], cursor.ahead (letter' :: code).length rest) := by
      refine ⟨letter, [], rfl, line, fun cursor rest h => ?_⟩
      rw [meant cursor (next?_eq h), skip_eq h]
      rfl
    split
    case h_15 =>
      have hex {letter : Char} {width : Nat} (line : isBreak letter = false) (positive : 0 < width)
          (below : c.toNat < 16 ^ width)
          (meant : ∀ (cursor : Cursor), cursor.next? = some letter →
            cursor.escape? = cursor.skip.hexChar? width) :
          ∃ letter' code, '\\' :: letter :: upperHex width c.toNat = '\\' :: letter' :: code ∧
            isBreak letter' = false ∧
            ∀ (cursor : Cursor) (rest : List Char), cursor.rest = letter' :: code ++ rest →
              cursor.escape? = some ([c], cursor.ahead (letter' :: code).length rest) := by
        refine ⟨letter, _, rfl, line, fun cursor rest h => ?_⟩
        have fits := (Nat.length_toDigits_le_iff (by omega) positive).2 below
        have length := (digits?_upperHex positive fits).2
        rw [List.cons_append] at h
        rw [meant cursor (next?_eq h), skip_eq h, hexChar?_eq positive fits (rest_ahead _ _ _),
          ahead_ahead, List.length_cons, length, Nat.add_comm]
      split
      · exact hex rfl (by omega) (by omega) fun cursor h => by simp only [escape?, h]
      split
      · exact hex rfl (by omega) (by omega) fun cursor h => by simp only [escape?, h]
      · have valid : c.toNat.isValidChar := c.valid
        unfold Nat.isValidChar at valid
        exact hex rfl (by omega) (by omega) fun cursor h => by simp only [escape?, h]
    all_goals exact simple rfl fun cursor h => by simp only [escape?, h]

/-- The pieces of a double-quoted text end a gap, but for a space. -/
theorem endsGap_flatMap_writeDouble (cs : List Char) (run : ∀ c ∈ cs.head?, c ≠ ' ')
    (after : List Char) : EndsGap (cs.flatMap writeDouble ++ '"' :: after) := by
  cases cs with
  | nil => exact endsGap_cons rfl
  | cons c cs =>
    rw [List.flatMap_cons]
    rcases writeDouble_cases c with ⟨itself, printable, line, -, -⟩ | ⟨letter, code, escaped, -, -⟩
    · rw [itself]
      exact endsGap_cons (isSolid_of_printable printable (run c rfl) line)
    · rw [escaped]
      exact endsGap_cons rfl

theorem flatMap_writeDouble_spaces (k : Nat) (cs : List Char) :
    (spaces k ++ cs).flatMap writeDouble = spaces k ++ cs.flatMap writeDouble := by
  rw [List.flatMap_append]
  congr 1
  induction k with
  | zero => rfl
  | succ k ih =>
    have step : spaces (k + 1) = ' ' :: spaces k := rfl
    rw [step, List.flatMap_cons, ih]
    rfl

/-- The text between double quotes is read back. -/
theorem quotedFrom?_writeDouble (cs : List Char) (inside : 0 < cursor.column)
    (h : cursor.rest = cs.flatMap writeDouble ++ '"' :: after) (enough : cs.length < fuel) :
    ∃ later, quotedFrom? false fuel cursor = some (cs, later) ∧ later.rest = after ∧
      cursor.line ≤ later.line := by
  induction hn : cs.length using Nat.strongRecOn generalizing cs cursor fuel with
  | ind n ih =>
    obtain ⟨fuel, rfl⟩ : ∃ m, fuel = m + 1 := ⟨fuel - 1, by omega⟩
    -- What stands behind a piece is read by induction.
    have later_piece (cs' : List Char) (stop : Cursor) (shorter : cs'.length < cs.length)
        (inside : 0 < stop.column) (h : stop.rest = cs'.flatMap writeDouble ++ '"' :: after) :
        ∃ later, quotedFrom? false fuel stop = some (cs', later) ∧ later.rest = after ∧
          stop.line ≤ later.line :=
      ih cs'.length (by omega) cs' inside h (by omega) rfl
    match cs with
    | [] => exact ⟨_, quotedFrom?_double inside h, rfl, Nat.le_refl _⟩
    | c :: cs =>
      by_cases space : c = ' '
      · subst space
        obtain ⟨k, more, rfl, hmore⟩ := exists_spaces cs
        have text : ' ' :: (spaces k ++ more) = spaces (k + 1) ++ more := rfl
        rw [text] at h ⊢
        rw [flatMap_writeDouble_spaces, List.append_assoc] at h
        obtain ⟨later, next, hrest, hline⟩ :=
          later_piece more (cursor.ahead (k + 1) _)
            (by rw [List.length_cons, List.length_append]; omega) (by rw [column_ahead]; omega) rfl
        exact ⟨later, quotedFrom?_spaces inside h (endsGap_flatMap_writeDouble more hmore after)
          next, hrest, hline⟩
      rw [List.flatMap_cons] at h
      rcases writeDouble_cases c with ⟨itself, printable, line, quote, escape⟩ |
          ⟨letter, code, escaped, line, hescape⟩
      · rw [itself, List.append_assoc, List.singleton_append] at h
        obtain ⟨later, next, hrest, hline⟩ :=
          later_piece cs (cursor.ahead 1 _) (by simp) (by simp) rfl
        have solid := isSolid_of_printable printable space line
        exact ⟨later, quotedFrom?_char inside h solid (fun h => by cases h)
          (fun _ => ⟨quote, escape⟩) next, hrest, hline⟩
      · rw [escaped, List.append_assoc, List.cons_append, List.cons_append] at h
        have read := hescape (cursor.ahead 1 (letter :: (code ++ (cs.flatMap writeDouble ++
          '"' :: after)))) _ rfl
        obtain ⟨later, next, hrest, hline⟩ :=
          later_piece cs ((cursor.ahead 1 _).ahead (letter :: code).length _) (by simp)
            (by simp only [column_ahead]; omega) rfl
        exact ⟨later, quotedFrom?_escape inside h line read next, hrest, hline⟩

theorem length_le_singleBody (indent : Nat) (fresh : Bool) (cs : List Char) :
    cs.length ≤ (singleBody indent fresh cs).length := by
  induction cs generalizing fresh with
  | nil => exact Nat.zero_le _
  | cons c cs ih =>
    have written : 1 ≤ (writeSingle c).length := by
      unfold writeSingle
      split <;> simp
    rw [singleBody]
    split
    · have := ih true
      simp only [List.length_cons]
      omega
    · have := ih false
      simp only [List.length_append, List.length_cons]
      omega

theorem length_le_flatMap_writeDouble (cs : List Char) :
    cs.length ≤ (cs.flatMap writeDouble).length := by
  induction cs with
  | nil => exact Nat.le_refl _
  | cons c cs ih =>
    have written : 1 ≤ (writeDouble c).length := by
      rcases writeDouble_cases c with ⟨h, -⟩ | ⟨letter, code, h, -⟩ <;> simp [h]
    rw [List.flatMap_cons, List.length_append, List.length_cons]
    omega

/-- A text in single quotes is read back behind its opening quote. -/
theorem quotedScalar?_single (indent : Nat) {s : String} (quotable : IsQuotable s.toList)
    (indented : 0 < indent) (inside : 0 < cursor.column)
    (h : cursor.rest = singleBody indent false s.toList ++ '\'' :: after)
    (ends : after.head? ≠ some '\'') :
    ∃ later, cursor.quotedScalar? true = some (s, later) ∧ later.rest = after ∧
      cursor.line ≤ later.line := by
  have enough : s.toList.length < cursor.rest.length + 1 := by
    have := length_le_singleBody indent false s.toList
    rw [h, List.length_append]
    omega
  obtain ⟨later, hread, hrest, hline⟩ :=
    quotedFrom?_singleBody s.toList quotable indented inside h ends enough
  refine ⟨later, ?_, hrest, hline⟩
  rw [quotedScalar?, hread]
  simp [String.ofList_toList]

/-- A text in double quotes is read back behind its opening quote. -/
theorem quotedScalar?_double {s : String} (inside : 0 < cursor.column)
    (h : cursor.rest = s.toList.flatMap writeDouble ++ '"' :: after) :
    ∃ later, cursor.quotedScalar? false = some (s, later) ∧ later.rest = after ∧
      cursor.line ≤ later.line := by
  have enough : s.toList.length < cursor.rest.length + 1 := by
    have := length_le_flatMap_writeDouble s.toList
    rw [h, List.length_append]
    omega
  obtain ⟨later, hread, hrest, hline⟩ := quotedFrom?_writeDouble s.toList inside h enough
  refine ⟨later, ?_, hrest, hline⟩
  rw [quotedScalar?, hread]
  simp [String.ofList_toList]

end Cursor

end ServiceContract.Yaml
