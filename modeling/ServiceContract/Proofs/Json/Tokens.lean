import ServiceContract.Json.Typed
import ServiceContract.Proofs.Digits

/-!
# Reading back the tokens of a printed text

What a reader finds depends on the characters still to read and not on the position they stand at.
`Reads` and `Moves` say what a reader makes of such characters; the lemmas here give this for each
token in the form in which a text is printed. A token is read up to what follows it, and only a
number cares about what that is (`EndsNumber`).
-/

namespace ServiceContract.Json

theorem quoted_append (s : String) (rest : List Char) :
    quoted s ++ rest = '"' :: (s.toList.flatMap escapeChar ++ '"' :: rest) := by
  simp [quoted]

namespace Cursor

variable {α β : Type} {cursor : Cursor} {a : α} {c : Char} {cs blank before after rest : List Char}

/-- Where `before` is still to read, `read` finds `a` and leaves `after`. -/
def Reads (read : Cursor → Read α) (before : List Char) (a : α) (after : List Char) : Prop :=
  ∀ cursor : Cursor, cursor.rest = before →
    ∃ cursor', read cursor = .ok (a, cursor') ∧ cursor'.rest = after

/-- Where `before` is still to read, `move` leaves `after`. -/
def Moves (move : Cursor → Except ReadError Cursor) (before after : List Char) : Prop :=
  ∀ cursor : Cursor, cursor.rest = before →
    ∃ cursor', move cursor = .ok cursor' ∧ cursor'.rest = after

/-! ## Characters and white space -/

theorem rest_advance (h : cursor.rest = c :: cs) : cursor.advance.rest = cs := by
  unfold advance
  rw [h]
  split
  · rename_i hnil
    cases hnil
  · rename_i hcons
    exact (List.cons.inj hcons).2.symm
  · rename_i hcons
    exact (List.cons.inj hcons).2.symm

theorem next?_eq (h : cursor.rest = c :: cs) : cursor.next? = some c := by
  rw [next?, h, List.head?_cons]

/-- White space. -/
def IsBlank (cs : List Char) : Prop := ∀ c ∈ cs, isSpace c = true

theorem isBlank_nil : IsBlank [] := by
  intro c hc
  cases hc

theorem rest_skipSpaceFrom (cs : List Char) (line column : Nat) :
    (skipSpaceFrom cs line column).rest = cs.dropWhile isSpace := by
  induction cs generalizing line column with
  | nil => rfl
  | cons c cs ih =>
    unfold skipSpaceFrom
    by_cases space : isSpace c = true
    · rw [if_pos space, List.dropWhile_cons_of_pos space]
      split
      · exact ih _ _
      · exact ih _ _
    · rw [if_neg space, List.dropWhile_cons_of_neg space]

theorem rest_skipSpace (h : cursor.rest = blank ++ c :: cs) (white : IsBlank blank)
    (hc : isSpace c = false) : cursor.skipSpace.rest = c :: cs := by
  rw [skipSpace, rest_skipSpaceFrom, h, List.dropWhile_append_of_pos white,
    List.dropWhile_cons_of_neg (by simp [hc])]

theorem rest_skipSpace_cons (h : cursor.rest = c :: cs) (hc : isSpace c = false) :
    cursor.skipSpace.rest = c :: cs := by
  rw [skipSpace, rest_skipSpaceFrom, h, List.dropWhile_cons_of_neg (by simp [hc])]

theorem rest_skipSpace_blank (white : IsBlank cursor.rest) : cursor.skipSpace.rest = [] := by
  rw [skipSpace, rest_skipSpaceFrom, ← List.append_nil cursor.rest,
    List.dropWhile_append_of_pos white, List.dropWhile_nil]

/-! ## Words -/

theorem reads_word (a : α) (cs rest : List Char) : Reads (word a cs) (cs ++ rest) a rest := by
  induction cs with
  | nil =>
    intro cursor h
    exact ⟨cursor, rfl, h⟩
  | cons c cs ih =>
    intro cursor h
    have hnext : cursor.next? = some c := next?_eq h
    obtain ⟨cursor', hread, hrest⟩ := ih cursor.advance (rest_advance h)
    refine ⟨cursor', ?_, hrest⟩
    rw [word, hnext]
    simp only [↓reduceIte, hread]

/-! ## Quoted text -/

theorem reads_simpleEscape {letter meant : Char} (simple : simpleEscape? letter = some meant)
    (notHex : letter ≠ 'u') : Reads escape (letter :: rest) meant rest := by
  intro cursor h
  refine ⟨cursor.advance, ?_, rest_advance h⟩
  rw [escape, next?_eq h]
  simp only [if_neg notHex, simple]

/-- The four digits of a control character give it back. -/
theorem hexNumber?_control : ∀ n < 32,
    hexNumber? ['0', '0', hexDigit (n / 16), hexDigit (n % 16)] = some n := by decide

theorem utf8Size_hexDigit : ∀ n < 16, (hexDigit n).utf8Size = 1 := by decide

theorem reads_hexEscape {n : Nat} (control : n < 32) :
    Reads hexEscape ('0' :: '0' :: hexDigit (n / 16) :: hexDigit (n % 16) :: rest) n rest := by
  intro cursor h
  have high : (hexDigit (n / 16)).utf8Size = 1 := utf8Size_hexDigit _ (by omega)
  have low : (hexDigit (n % 16)).utf8Size = 1 := utf8Size_hexDigit _ (by omega)
  have zero : ('0' : Char).utf8Size = 1 := by decide
  have bytes : hasBytes cursor.rest 4 = true := by
    simp [h, hasBytes, zero, high, low]
  have digits : cursor.rest.take 4 = ['0', '0', hexDigit (n / 16), hexDigit (n % 16)] := by
    rw [h]
    rfl
  refine ⟨cursor.skip 4, ?_, ?_⟩
  · rw [hexEscape, if_pos bytes, digits, hexNumber?_control n control]
  · simp only [skip]
    have h1 := rest_advance h
    have h2 := rest_advance h1
    have h3 := rest_advance h2
    exact rest_advance h3

theorem reads_unicodeEscape {n : Nat} (control : n < 32) :
    Reads unicodeEscape ('0' :: '0' :: hexDigit (n / 16) :: hexDigit (n % 16) :: rest)
      (Char.ofNat n) rest := by
  intro cursor h
  obtain ⟨cursor', hread, hrest⟩ := reads_hexEscape control cursor h
  have notLow : isLowSurrogate n = false := by simp [isLowSurrogate]; omega
  have notHigh : isHighSurrogate n = false := by simp [isHighSurrogate]; omega
  refine ⟨cursor', ?_, hrest⟩
  simp [unicodeEscape, hread, notLow, notHigh, bind, Except.bind, pure, Except.pure]

/-- A character stands for itself, or it is escaped and the escape is read as the character. -/
theorem escapeChar_cases (c : Char) :
    (escapeChar c = [c] ∧ c ≠ '"' ∧ c ≠ '\\' ∧ ¬c.toNat < 32) ∨
      ∃ code, escapeChar c = '\\' :: code ∧ ∀ rest, Reads escape (code ++ rest) c rest := by
  have simple {letter : Char} (h : simpleEscape? letter = some c) (hu : letter ≠ 'u') :
      ∃ code, ['\\', letter] = '\\' :: code ∧ ∀ rest, Reads escape (code ++ rest) c rest :=
    ⟨[letter], rfl, fun rest => reads_simpleEscape h hu⟩
  unfold escapeChar
  split
  · subst c; exact .inr (simple rfl (by decide))
  split
  · subst c; exact .inr (simple rfl (by decide))
  split
  · subst c; exact .inr (simple rfl (by decide))
  split
  · subst c; exact .inr (simple rfl (by decide))
  split
  · subst c; exact .inr (simple rfl (by decide))
  split
  · subst c; exact .inr (simple rfl (by decide))
  split
  · subst c; exact .inr (simple rfl (by decide))
  split
  · rename_i control
    refine .inr ⟨_, rfl, fun rest cursor h => ?_⟩
    obtain ⟨cursor', hread, hrest⟩ := reads_unicodeEscape control cursor.advance (rest_advance h)
    refine ⟨cursor', ?_, hrest⟩
    rw [escape, next?_eq h]
    simp only [↓reduceIte, hread, Char.ofNat_toNat]
  · rename_i quote backslash _ _ _ _ _ control
    exact .inl ⟨rfl, quote, backslash, control⟩

theorem reads_quotedFrom (cs : List Char) {fuel : Nat} (enough : cs.length < fuel)
    (read rest : List Char) :
    Reads (quotedFrom fuel read) (cs.flatMap escapeChar ++ '"' :: rest)
      (String.ofList (read.reverse ++ cs)) rest := by
  induction cs generalizing fuel read with
  | nil =>
    obtain ⟨fuel, rfl⟩ : ∃ n, fuel = n + 1 := ⟨fuel - 1, by simp at enough; omega⟩
    intro cursor h
    refine ⟨cursor.advance, ?_, rest_advance h⟩
    rw [quotedFrom, next?_eq h]
    simp
  | cons c cs ih =>
    obtain ⟨fuel, rfl⟩ : ∃ n, fuel = n + 1 := ⟨fuel - 1, by simp at enough; omega⟩
    have enough' : cs.length < fuel := by simpa using enough
    have found : read.reverse ++ c :: cs = (c :: read).reverse ++ cs := by simp
    intro cursor h
    rw [found]
    rcases escapeChar_cases c with ⟨itself, quote, backslash, control⟩ | ⟨code, escaped, hescape⟩
    · rw [List.flatMap_cons, itself, List.append_assoc] at h
      obtain ⟨cursor', hread, hrest⟩ := ih enough' (c :: read) cursor.advance (rest_advance h)
      refine ⟨cursor', ?_, hrest⟩
      rw [quotedFrom, next?_eq h]
      simp only [if_neg quote, if_neg backslash, if_neg control, hread]
    · rw [List.flatMap_cons, escaped, List.append_assoc, List.cons_append] at h
      obtain ⟨cursor₁, hread₁, hrest₁⟩ := hescape _ cursor.advance (rest_advance h)
      obtain ⟨cursor₂, hread₂, hrest₂⟩ := ih enough' (c :: read) cursor₁ hrest₁
      refine ⟨cursor₂, ?_, hrest₂⟩
      rw [quotedFrom, next?_eq h]
      simp [hread₁, hread₂]

theorem length_le_flatMap_escapeChar (cs : List Char) :
    cs.length ≤ (cs.flatMap escapeChar).length := by
  induction cs with
  | nil => exact Nat.le_refl _
  | cons c cs ih =>
    have written : 1 ≤ (escapeChar c).length := by
      rcases escapeChar_cases c with ⟨h, -⟩ | ⟨code, h, -⟩
      · simp [h]
      · simp [h]
    rw [List.flatMap_cons, List.length_append, List.length_cons]
    omega

/-- A text in quotes is read back after its opening quote. -/
theorem reads_quoted (s : String) (rest : List Char) :
    Reads quoted (s.toList.flatMap escapeChar ++ '"' :: rest) s rest := by
  intro cursor h
  have enough : s.toList.length < cursor.rest.length + 1 := by
    have := length_le_flatMap_escapeChar s.toList
    rw [h, List.length_append]
    omega
  obtain ⟨cursor', hread, hrest⟩ := reads_quotedFrom s.toList enough [] rest cursor h
  refine ⟨cursor', ?_, hrest⟩
  rw [quoted, hread]
  simp

/-! ## Counts -/

/-- What may follow a number: anything that does not go on with it. -/
def EndsNumber (rest : List Char) : Prop :=
  ∀ c ∈ rest.head?, c.isDigit = false ∧ c ≠ '.' ∧ c ≠ 'e' ∧ c ≠ 'E'

theorem digitsBelow_digits {bound value : Nat} (count line column : Nat)
    (digits : ∀ c ∈ cs, c.isDigit = true) (fits : Nat.ofDigitChars 10 cs value < bound)
    (follows : EndsNumber rest) :
    ∃ cursor, digitsBelow bound value count (cs ++ rest) line column =
        (⟨Nat.ofDigitChars 10 cs value, count + cs.length, false⟩, cursor) ∧
      cursor.rest = rest := by
  induction cs generalizing value count column with
  | nil =>
    cases rest with
    | nil => exact ⟨_, rfl, rfl⟩
    | cons c rest =>
      have notDigit : ¬c.isDigit = true := by simp [(follows c rfl).1]
      rw [List.nil_append, digitsBelow, if_neg notDigit]
      exact ⟨_, rfl, rfl⟩
  | cons c cs ih =>
    obtain ⟨hc, hcs⟩ := List.forall_mem_cons.1 digits
    have next : 10 * value + (c.toNat - '0'.toNat) = value * 10 + digitValue c := by
      rw [Nat.mul_comm]
      rfl
    rw [Nat.ofDigitChars_cons, next] at fits ⊢
    have below : value * 10 + digitValue c < bound := by
      have := le_ofDigitChars cs (value * 10 + digitValue c)
      omega
    obtain ⟨cursor, hread, hrest⟩ := ih (count + 1) (column + 1) hcs fits
    refine ⟨cursor, ?_, hrest⟩
    have length : count + (c :: cs).length = count + 1 + cs.length := by simp; omega
    rw [List.cons_append, digitsBelow, if_pos hc, if_pos below, hread, length]

theorem nextIsDigit_eq_false (follows : EndsNumber cursor.rest) : cursor.nextIsDigit = false := by
  unfold nextIsDigit next?
  cases h : cursor.rest.head? with
  | none => rfl
  | some c => exact (follows c h).1

theorem nextIsExponent_eq_false (follows : EndsNumber cursor.rest) :
    cursor.nextIsExponent = false := by
  unfold nextIsExponent next?
  cases h : cursor.rest.head? with
  | none => rfl
  | some c =>
    obtain ⟨-, -, lower, upper⟩ := follows c h
    simp [lower, upper]

theorem afterDigits_eq (n : Nat) (follows : EndsNumber cursor.rest) :
    cursor.afterDigits true n = .ok (.whole n, cursor) := by
  unfold afterDigits
  split
  · rename_i point
    have := (follows '.' point).2.1
    contradiction
  · simp [nextIsExponent_eq_false follows]

theorem reads_number {n : Nat} (fits : n < Word.size64) (follows : EndsNumber rest) :
    Reads (number true) (Nat.toDigits 10 n ++ rest) (.whole n) rest := by
  intro cursor h
  by_cases zero : n = 0
  · subst zero
    have hrest : cursor.advance.rest = rest := rest_advance h
    refine ⟨cursor.advance, ?_, hrest⟩
    rw [← hrest] at follows
    rw [number, next?_eq h]
    simp [nextIsDigit_eq_false follows, afterDigits_eq 0 follows]
  · obtain ⟨d, ds, hds, hd⟩ := head_toDigits n (by omega)
    have digits := isDigit_toDigits n
    have hdigit : d.isDigit = true := digits d (by simp [hds])
    have value : Nat.ofDigitChars 10 (Nat.toDigits 10 n) 0 = n := Nat.ofDigitChars_ten_toDigits
    obtain ⟨cursor', hread, hrest⟩ :=
      digitsBelow_digits 0 cursor.line cursor.column digits (by rw [value]; exact fits) follows
    refine ⟨cursor', ?_, hrest⟩
    have hnext : cursor.next? = some d := by
      rw [hds] at h
      exact next?_eq h
    rw [← hrest] at follows
    rw [number, hnext]
    simp only [if_neg hd, if_pos hdigit]
    rw [h, hread, value]
    simp [afterDigits_eq n follows]

theorem EndsNumber.of_isBlank (white : IsBlank blank) (follows : EndsNumber rest) :
    EndsNumber (blank ++ rest) := by
  cases blank with
  | nil => exact follows
  | cons c blank =>
    intro d hd
    obtain rfl : c = d := by simpa using hd
    have space := white c List.mem_cons_self
    simp only [isSpace, Bool.or_eq_true, decide_eq_true_eq] at space
    rcases space with ((rfl | rfl) | rfl) | rfl <;> decide

/-! ## Punctuation -/

/-- The first character of a value or a key. -/
def IsStart (c : Char) : Prop := isSpace c = false ∧ c ≠ ']'

instance (c : Char) : Decidable (IsStart c) := inferInstanceAs (Decidable (_ ∧ _))

theorem reads_nextItem_first (white : IsBlank blank) (start : IsStart c) :
    Reads (nextItem true) (blank ++ c :: cs) true (c :: cs) := by
  intro cursor h
  have hrest := rest_skipSpace h white start.1
  refine ⟨cursor.skipSpace, ?_, hrest⟩
  rw [nextItem, next?_eq hrest]
  simp [start.2]

theorem reads_nextItem_later (white : IsBlank blank) (start : IsStart c) :
    Reads (nextItem false) (',' :: (blank ++ c :: cs)) true (c :: cs) := by
  intro cursor h
  have hcomma : cursor.skipSpace.rest = ',' :: (blank ++ c :: cs) :=
    rest_skipSpace_cons h (by decide)
  have hrest := rest_skipSpace (rest_advance hcomma) white start.1
  refine ⟨_, ?_, hrest⟩
  rw [nextItem, next?_eq hcomma]
  simp [next?_eq hrest, start.2]

theorem reads_nextItem_end (first : Bool) (white : IsBlank blank) :
    Reads (nextItem first) (blank ++ ']' :: rest) false (']' :: rest) := by
  intro cursor h
  have hrest := rest_skipSpace h white (by decide)
  refine ⟨cursor.skipSpace, ?_, hrest⟩
  rw [nextItem, next?_eq hrest]
  rfl

theorem reads_nextKey_first (white : IsBlank blank) (key : String) (rest : List Char) :
    Reads (nextKey true) (blank ++ (Json.quoted key ++ rest)) true (Json.quoted key ++ rest) := by
  intro cursor h
  rw [quoted_append] at h ⊢
  have hrest := rest_skipSpace h white (by decide)
  refine ⟨cursor.skipSpace, ?_, hrest⟩
  rw [nextKey, next?_eq hrest]
  rfl

theorem reads_nextKey_later (white : IsBlank blank) (key : String) (rest : List Char) :
    Reads (nextKey false) (',' :: (blank ++ (Json.quoted key ++ rest))) true
      (Json.quoted key ++ rest) := by
  intro cursor h
  rw [quoted_append] at h ⊢
  have hcomma := rest_skipSpace_cons h (by decide)
  have hrest := rest_skipSpace (rest_advance hcomma) white (by decide)
  refine ⟨_, ?_, hrest⟩
  rw [nextKey, next?_eq hcomma]
  simp [next?_eq hrest]

theorem reads_nextKey_end (first : Bool) (white : IsBlank blank) :
    Reads (nextKey first) (blank ++ '\x7d' :: rest) false ('\x7d' :: rest) := by
  intro cursor h
  have hrest := rest_skipSpace h white (by decide)
  refine ⟨cursor.skipSpace, ?_, hrest⟩
  rw [nextKey, next?_eq hrest]
  rfl

theorem moves_colon (rest : List Char) : Moves colon (':' :: rest) rest := by
  intro cursor h
  have hrest : cursor.skipSpace.rest = ':' :: rest :=
    rest_skipSpace_cons h (by decide)
  refine ⟨_, ?_, rest_advance hrest⟩
  rw [colon, next?_eq hrest]
  rfl

theorem moves_endList (rest : List Char) : Moves endList (']' :: rest) rest := by
  intro cursor h
  have hrest : cursor.skipSpace.rest = ']' :: rest :=
    rest_skipSpace_cons h (by decide)
  refine ⟨_, ?_, rest_advance hrest⟩
  rw [endList, next?_eq hrest]
  rfl

theorem moves_endObject (rest : List Char) : Moves endObject ('\x7d' :: rest) rest := by
  intro cursor h
  have hrest : cursor.skipSpace.rest = '\x7d' :: rest :=
    rest_skipSpace_cons h (by decide)
  refine ⟨_, ?_, rest_advance hrest⟩
  rw [endObject, next?_eq hrest]
  rfl

theorem endText_eq_ok (white : IsBlank cursor.rest) : cursor.endText = .ok () := by
  rw [endText, next?, rest_skipSpace_blank white]
  rfl

/-! ## Scalars -/

theorem reads_text (expected s : String) (white : IsBlank blank) (rest : List Char) :
    Reads (text expected) (blank ++ (Json.quoted s ++ rest)) s rest := by
  intro cursor h
  rw [quoted_append] at h
  have hquote := rest_skipSpace h white (by decide)
  obtain ⟨cursor', hread, hrest⟩ := reads_quoted s rest _ (rest_advance hquote)
  refine ⟨cursor', ?_, hrest⟩
  rw [text, next?_eq hquote]
  simp [hread]

theorem reads_flag {spacing : Spacing} {depth : Nat} (b : Bool) (white : IsBlank blank)
    (rest : List Char) : Reads flag (blank ++ (render spacing depth (.bool b) ++ rest)) b rest := by
  intro cursor h
  cases b with
  | true =>
    rw [render] at h
    have hletter := rest_skipSpace h white (by decide)
    obtain ⟨cursor', hread, hrest⟩ := reads_word true ['r', 'u', 'e'] rest _ (rest_advance hletter)
    refine ⟨cursor', ?_, hrest⟩
    rw [flag, next?_eq hletter]
    simp [hread]
  | false =>
    rw [render] at h
    have hletter := rest_skipSpace h white (by decide)
    obtain ⟨cursor', hread, hrest⟩ :=
      reads_word false ['a', 'l', 's', 'e'] rest _ (rest_advance hletter)
    refine ⟨cursor', ?_, hrest⟩
    rw [flag, next?_eq hletter]
    simp [hread]

theorem render_ofNat (spacing : Spacing) (depth n : Nat) :
    render spacing depth (.ofNat n) = Nat.toDigits 10 n := by
  rw [ofNat, render, Number.chars, intChars, if_neg (by omega), Int.natAbs_natCast]

theorem isStart_digit (digit : c.isDigit = true) : IsStart c := by
  constructor
  · cases space : isSpace c with
    | false => rfl
    | true =>
      simp only [isSpace, Bool.or_eq_true, decide_eq_true_eq] at space
      rcases space with ((rfl | rfl) | rfl) | rfl <;> simp at digit
  · rintro rfl
    simp at digit

theorem reads_count {spacing : Spacing} {depth n : Nat} (fits : n < Word.size64)
    (white : IsBlank blank) (follows : EndsNumber rest) :
    Reads count (blank ++ (render spacing depth (.ofNat n) ++ rest)) n rest := by
  intro cursor h
  obtain ⟨d, ds, hds, digit⟩ := exists_digit_toDigits n
  rw [render_ofNat] at h
  have hdigits : cursor.skipSpace.rest = Nat.toDigits 10 n ++ rest := by
    rw [hds] at h ⊢
    exact rest_skipSpace h white (isStart_digit digit).1
  obtain ⟨cursor', hread, hrest⟩ := reads_number fits follows _ hdigits
  rw [hds] at hdigits
  refine ⟨cursor', ?_, hrest⟩
  have notMinus : d ≠ '-' := by
    rintro rfl
    simp at digit
  rw [count, next?_eq hdigits]
  simp [digit, notMinus, hread, bind, Except.bind, pure, Except.pure]

theorem reads_choice {variants : List (String × α)} {name : String}
    (known : variants.lookup name = some a) (white : IsBlank blank) (rest : List Char) :
    Reads (choice variants) (blank ++ (Json.quoted name ++ rest)) a rest := by
  intro cursor h
  have hquote : cursor.skipSpace.rest = Json.quoted name ++ rest := by
    rw [quoted_append]
    rw [quoted_append] at h
    exact rest_skipSpace h white (by decide)
  obtain ⟨cursor', hread, hrest⟩ := reads_text "variant identifier" name isBlank_nil rest _ hquote
  refine ⟨cursor', ?_, hrest⟩
  rw [quoted_append] at hquote
  rw [choice, next?_eq hquote]
  simp [variant, hread, known, bind, Except.bind, pure, Except.pure]

/-- A name that no variant has is refused. -/
theorem choice_unknown {variants : List (String × α)} {name : String}
    (unknown : variants.lookup name = none) (white : IsBlank blank)
    (h : cursor.rest = blank ++ (Json.quoted name ++ rest)) :
    ∃ position, choice variants cursor =
      .error ⟨.unknownVariant name (variants.map (·.1)), position⟩ := by
  have hquote : cursor.skipSpace.rest = Json.quoted name ++ rest := by
    rw [quoted_append] at h ⊢
    exact rest_skipSpace h white (by decide)
  obtain ⟨cursor', hread, -⟩ := reads_text "variant identifier" name isBlank_nil rest _ hquote
  refine ⟨cursor'.here, ?_⟩
  rw [quoted_append] at hquote
  rw [choice, next?_eq hquote]
  simp [variant, hread, unknown, fail, bind, Except.bind]

/-! ## Strings however they are written -/

theorem skipSpace_skipSpace (cursor : Cursor) : cursor.skipSpace.skipSpace = cursor.skipSpace := by
  have again (cs : List Char) (line column : Nat) :
      (skipSpaceFrom cs line column).skipSpace = skipSpaceFrom cs line column := by
    induction cs generalizing line column with
    | nil => rfl
    | cons c cs ih =>
      unfold skipSpaceFrom
      by_cases space : isSpace c = true
      · rw [if_pos space]
        split
        · exact ih _ _
        · exact ih _ _
      · rw [if_neg space, skipSpace, skipSpaceFrom, if_neg space]
  exact again _ _ _

/-- A value of another kind is always refused. -/
theorem mismatch_ne_ok {found : α × Cursor} (expected : String) :
    mismatch expected cursor ≠ .ok found := by
  have stops {β : Type} (read : Except ReadError β) (next : β → Read α)
      (refused : ∀ b, next b ≠ .ok found) : read.bind next ≠ .ok found := by
    cases read with
    | error => exact nofun
    | ok b => exact refused b
  unfold mismatch fail
  repeat' split
  all_goals intro h
  all_goals first
    | cases h
    | refine stops _ _ ?_ h
      rintro ⟨_, _⟩ h
      cases h

theorem text_eq_ok {expected s : String} {cursor' : Cursor}
    (h : cursor.text expected = .ok (s, cursor')) :
    cursor.skipSpace.next? = some '"' ∧ cursor.skipSpace.advance.quoted = .ok (s, cursor') := by
  unfold text at h
  dsimp only at h
  split at h
  · cases h
  · rename_i c hnext
    by_cases quote : c = '"'
    · subst quote
      rw [if_pos rfl] at h
      exact ⟨hnext, h⟩
    · rw [if_neg quote] at h
      exact absurd h (mismatch_ne_ok expected)

/-- Whatever is read as a string is looked up among the variants. -/
theorem choice_of_text (variants : List (String × α)) {expected s : String} {cursor' : Cursor}
    (h : cursor.text expected = .ok (s, cursor')) :
    choice variants cursor =
      match variants.lookup s with
      | some a => .ok (a, cursor')
      | none => fail (.unknownVariant s (variants.map (·.1))) cursor'.here := by
  obtain ⟨hnext, hread⟩ := text_eq_ok h
  have again : cursor.skipSpace.text "variant identifier" = .ok (s, cursor') := by
    rw [text, skipSpace_skipSpace, hnext]
    exact hread
  rw [choice, hnext]
  simp only [↓reduceIte, variant, again, bind, Except.bind]
  cases variants.lookup s <;> rfl

end Cursor

end ServiceContract.Json
