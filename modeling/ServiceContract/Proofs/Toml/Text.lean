import ServiceContract.Toml.Printer
import ServiceContract.Toml.Scalar

/-!
# Reading TOML texts back

A text is written in one of four pairs of quotes, and is read back from each of them. Between single
quotes it stands for itself. Between double quotes each character stands for itself or is escaped
(`escapeChar_cases`). Where the quotes are triple ones, the reader has to tell those that belong to
the text from the closing ones: of the former there are never more than two in a row, so a run of
three is the end (`closing?_inside`, `closing?_end`).
-/

namespace ServiceContract.Toml

variable {c d quote : Char} {cs rest more : List Char} {fuel k run : Nat}

/-! ## Escapes -/

theorem hex4_control : ∀ n < 128, (hex4 n).length = 4 ∧
    (hex4 n).foldlM (fun n c => (hexValue? c).map (n * 16 + ·)) 0 = some n ∧ n.isValidChar := by
  decide +kernel

/-- The four digits of a control character give it back. -/
theorem hexChar?_hex4 {n : Nat} (small : n < 128) (rest : List Char) :
    hexChar? 4 (hex4 n ++ rest) = some (Char.ofNat n, rest) := by
  obtain ⟨length, value, valid⟩ := hex4_control n small
  have digits : (hex4 n ++ rest).take 4 = hex4 n := by
    rw [← length, List.take_left]
  have behind : (hex4 n ++ rest).drop 4 = rest := by
    rw [← length, List.drop_left]
  simp [hexChar?, digits, behind, length, value, valid]

theorem isPlain_of_not_isControl (h : isControl c = false) (notFeed : c ≠ '\n') :
    isPlain c = true := by
  simp only [isControl, Bool.or_eq_false_iff, Bool.and_eq_false_iff, decide_eq_false_iff_not,
    beq_eq_false_iff_ne, ne_eq] at h
  simp only [isPlain, Bool.or_eq_true, Bool.and_eq_true, decide_eq_true_eq]
  obtain ⟨(low | tab) | feed, delete⟩ := h
  · exact .inr ⟨by omega, delete⟩
  · exact .inl (by simpa using tab)
  · exact absurd (by simpa using feed) notFeed

/-- Between double quotes a character stands for itself, or it is escaped and the escape is read as
the character. -/
theorem escapeChar_cases (lines : Bool) (notQuote : c ≠ '"') :
    (lines = true ∧ c = '\n' ∧ escapeChar lines c = ['\n']) ∨
    (escapeChar lines c = [c] ∧ c ≠ '\\' ∧ isPlain c = true) ∨
    ∃ letter code, escapeChar lines c = '\\' :: letter :: code ∧ isPlain letter = true ∧
      letter ≠ ' ' ∧ letter ≠ '\t' ∧ ∀ rest, escape? (letter :: code ++ rest) = some (c, rest) := by
  unfold escapeChar
  split
  · exact .inr (.inr ⟨_, _, rfl, by decide, by decide, by decide, fun _ => rfl⟩)
  · exact .inr (.inr ⟨_, _, rfl, by decide, by decide, by decide, fun _ => rfl⟩)
  · split
    · next h => exact .inl ⟨h, rfl, rfl⟩
    · exact .inr (.inr ⟨_, _, rfl, by decide, by decide, by decide, fun _ => rfl⟩)
  · exact .inr (.inr ⟨_, _, rfl, by decide, by decide, by decide, fun _ => rfl⟩)
  · exact .inr (.inr ⟨_, _, rfl, by decide, by decide, by decide, fun _ => rfl⟩)
  · exact .inr (.inr ⟨_, _, rfl, by decide, by decide, by decide, fun _ => rfl⟩)
  · next notFeed _ _ notBackslash =>
    split
    · next control =>
      refine .inr (.inr ⟨_, _, rfl, by decide, by decide, by decide, fun rest => ?_⟩)
      have small : c.toNat < 128 := by
        simp [isControl] at control
        omega
      have read := hexChar?_hex4 small rest
      rw [Char.ofNat_toNat] at read
      exact read
    · next control =>
      refine .inr (.inl ⟨rfl, notBackslash, ?_⟩)
      exact isPlain_of_not_isControl (by simpa using control) notFeed

/-! ## Between single double quotes -/

theorem basic?_escape {letter : Char} {code : List Char} {found : List Char × List Char}
    (escape : escape? (letter :: code) = some (c, rest)) (next : basic? fuel rest = some found) :
    basic? (fuel + 1) ('\\' :: letter :: code) = some (c :: found.1, found.2) := by
  simp [basic?, escape, next]

theorem basic?_plain {found : List Char × List Char} (plain : isPlain c = true)
    (notQuote : c ≠ '"') (notBackslash : c ≠ '\\') (next : basic? fuel rest = some found) :
    basic? (fuel + 1) (c :: rest) = some (c :: found.1, found.2) := by
  simp [basic?, notQuote, notBackslash, plain, next]

/-- A text is read back from one line between double quotes. -/
theorem basic?_escaped (cs rest : List Char) (enough : cs.length < fuel) :
    basic? fuel (escaped false 0 0 cs ++ '"' :: rest) = some (cs, rest) := by
  induction cs generalizing fuel with
  | nil =>
    obtain ⟨fuel, rfl⟩ := Nat.exists_eq_add_one_of_ne_zero (Nat.ne_zero_of_lt enough)
    simp [escaped, basic?]
  | cons c cs ih =>
    obtain ⟨fuel, rfl⟩ := Nat.exists_eq_add_one_of_ne_zero (Nat.ne_zero_of_lt enough)
    have next := ih (Nat.lt_of_succ_lt_succ enough)
    rw [escaped]
    split
    · next isQuote =>
      subst isQuote
      rw [if_neg (by decide)]
      exact basic?_escape rfl next
    · next notQuote =>
      rcases escapeChar_cases false notQuote with
        ⟨h, -⟩ | ⟨itself, notBackslash, plain⟩ | ⟨letter, code, escape, -, -, -, read⟩
      · cases h
      · rw [itself]
        exact basic?_plain plain notQuote notBackslash next
      · rw [escape]
        exact basic?_escape (by simpa using read _) next

/-! ## Between single quotes -/

theorem literal?_append (plain : ∀ c ∈ cs, isPlain c = true) (unquoted : '\'' ∉ cs)
    (rest : List Char) : literal? (cs ++ '\'' :: rest) = some (cs, rest) := by
  induction cs with
  | nil => rfl
  | cons c cs ih =>
    obtain ⟨hc, plain⟩ := List.forall_mem_cons.1 plain
    obtain ⟨notQuote, unquoted⟩ := not_or.1 (mt List.mem_cons.2 unquoted)
    rw [List.cons_append, literal?, if_neg (Ne.symm notQuote), if_pos hc, ih plain unquoted]
    rfl

/-! ## Closing quotes -/

theorem takeWhile_quotes (k : Nat) (other : rest.head? ≠ some quote) :
    (List.replicate k quote ++ rest).takeWhile (· = quote) = List.replicate k quote := by
  rw [List.takeWhile_append_of_pos (by simp)]
  cases rest with
  | nil => simp
  | cons d rest =>
    have different : d ≠ quote := by simpa using other
    simp [different]

/-- Up to two quotes in front of three others belong to the text. -/
theorem closing?_end (few : k ≤ 2) (other : rest.head? ≠ some quote) :
    closing? quote (List.replicate k quote ++ quote :: quote :: quote :: rest) =
      some (List.replicate k quote, rest) := by
  have all : List.replicate k quote ++ quote :: quote :: quote :: rest =
      List.replicate (k + 3) quote ++ rest := by
    rw [← List.replicate_append_replicate, List.append_assoc]
    rfl
  have extra : min (k + 3 - 3) 2 = k := by omega
  have behind : (List.replicate (k + 3) quote ++ rest).drop (k + 3) = rest :=
    List.drop_left' List.length_replicate
  rw [all, closing?, takeWhile_quotes _ other, List.length_replicate, if_neg (by omega)]
  simp only [extra, behind]

/-- Up to two quotes in front of something else close nothing. -/
theorem closing?_inside (few : k ≤ 2) (other : d ≠ quote) (rest : List Char) :
    closing? quote (List.replicate k quote ++ d :: rest) = none := by
  rw [closing?, takeWhile_quotes _ (by simpa using other), List.length_replicate,
    if_pos (by omega)]

/-! ## Between triple double quotes -/

/-- What is written starts with the quotes that may still stand there, and nothing or another
character follows. -/
theorem escaped_lines_start (few : run ≤ 2) (cs : List Char) :
    (∃ k, run + k ≤ 2 ∧ cs = List.replicate k '"' ∧ escaped true 2 run cs = cs) ∨
    ∃ k d more, run + k ≤ 2 ∧ d ≠ '"' ∧
      escaped true 2 run cs = List.replicate k '"' ++ d :: more := by
  induction cs generalizing run with
  | nil => exact .inl ⟨0, few, rfl, rfl⟩
  | cons c cs ih =>
    rw [escaped]
    split
    · next isQuote =>
      subst isQuote
      split
      · next allowed =>
        rcases ih allowed with ⟨k, room, rfl, same⟩ | ⟨k, d, more, room, other, h⟩
        · exact .inl ⟨k + 1, by omega, rfl, by rw [same]⟩
        · exact .inr ⟨k + 1, d, more, by omega, other, by rw [h]; rfl⟩
      · exact .inr ⟨0, _, _, few, by decide, rfl⟩
    · next notQuote =>
      rcases escapeChar_cases true notQuote with
        ⟨-, -, h⟩ | ⟨h, -⟩ | ⟨letter, code, h, -⟩
      · exact .inr ⟨0, '\n', _, few, by decide, by rw [h]; rfl⟩
      · exact .inr ⟨0, c, _, few, notQuote, by rw [h]; rfl⟩
      · exact .inr ⟨0, '\\', _, few, by decide, by rw [h]; rfl⟩

theorem lineEnd?_eq_none (plain : isPlain c = true) (rest : List Char) :
    lineEnd? (c :: rest) = none := by
  unfold lineEnd?
  split
  · cases ‹_ :: _ = _›; cases plain
  · cases ‹_ :: _ = _›; cases plain
  · rfl

section Lines

variable {found : List Char × List Char}

theorem basicLines?_end (closed : closing? '"' cs = some found) :
    basicLines? (fuel + 1) cs = some found := by
  unfold basicLines?
  rw [closed]

theorem basicLines?_escape {letter : Char} {code : List Char}
    (opened : closing? '"' ('\\' :: letter :: code) = none) (plain : isPlain letter = true)
    (notSpace : letter ≠ ' ') (notTab : letter ≠ '\t')
    (escape : escape? (letter :: code) = some (c, rest))
    (next : basicLines? fuel rest = some found) :
    basicLines? (fuel + 1) ('\\' :: letter :: code) = some (c :: found.1, found.2) := by
  have solid : skipBlanks (letter :: code) = letter :: code := by
    simp [skipBlanks, isBlank, notSpace, notTab]
  rw [basicLines?, opened]
  simp [solid, lineEnd?_eq_none plain, escape, next]

theorem basicLines?_plain (opened : closing? '"' (c :: rest) = none) (plain : isPlain c = true)
    (notBackslash : c ≠ '\\') (next : basicLines? fuel rest = some found) :
    basicLines? (fuel + 1) (c :: rest) = some (c :: found.1, found.2) := by
  rw [basicLines?, opened]
  · simp [lineEnd?_eq_none plain, plain, next]
  · exact fun same => notBackslash same

theorem basicLines?_lineFeed (opened : closing? '"' ('\n' :: rest) = none)
    (next : basicLines? fuel rest = some found) :
    basicLines? (fuel + 1) ('\n' :: rest) = some ('\n' :: found.1, found.2) := by
  rw [basicLines?, opened]
  · simp [lineEnd?, next]
  · exact nofun

/-- A text is read back from between triple double quotes. -/
theorem basicLines?_escaped (few : run ≤ 2) (cs : List Char) (other : rest.head? ≠ some '"')
    (enough : cs.length < fuel) :
    basicLines? fuel (escaped true 2 run cs ++ '"' :: '"' :: '"' :: rest) = some (cs, rest) := by
  induction cs generalizing run fuel with
  | nil =>
    obtain ⟨fuel, rfl⟩ := Nat.exists_eq_add_one_of_ne_zero (Nat.ne_zero_of_lt enough)
    exact basicLines?_end (closing?_end (Nat.zero_le 2) other)
  | cons c cs ih =>
    obtain ⟨fuel, rfl⟩ := Nat.exists_eq_add_one_of_ne_zero (Nat.ne_zero_of_lt enough)
    rcases escaped_lines_start few (c :: cs) with ⟨k, room, same, h⟩ | ⟨k, d, more, room, inner, h⟩
    · rw [h, same]
      exact basicLines?_end (closing?_end (by omega) other)
    have next {run : Nat} (few : run ≤ 2) := ih few (Nat.lt_of_succ_lt_succ enough)
    have opened : closing? '"' (escaped true 2 run (c :: cs) ++ '"' :: '"' :: '"' :: rest) =
        none := by
      rw [h, List.append_assoc]
      exact closing?_inside (by omega) inner _
    rw [escaped] at opened ⊢
    split at opened
    · next isQuote =>
      subst isQuote
      rw [if_pos rfl]
      split at opened
      · next allowed =>
        rw [if_pos allowed]
        exact basicLines?_plain opened (by decide) (by decide) (next allowed)
      · next all =>
        rw [if_neg all]
        have next := next (Nat.zero_le 2)
        exact basicLines?_escape opened (by decide) (by decide) (by decide) rfl next
    · next notQuote =>
      rw [if_neg notQuote]
      have next := next (Nat.zero_le 2)
      rcases escapeChar_cases true notQuote with
        ⟨-, rfl, itself⟩ | ⟨itself, notBackslash, plain⟩ |
          ⟨letter, code, escape, plain, notSpace, notTab, read⟩
      · rw [itself] at opened ⊢
        exact basicLines?_lineFeed opened next
      · rw [itself] at opened ⊢
        exact basicLines?_plain opened plain notBackslash next
      · rw [escape] at opened ⊢
        exact basicLines?_escape opened plain notSpace notTab (by simpa using read _) next

end Lines

/-! ## Between triple single quotes -/

theorem longestRun_start (few : longestRun quote run cs ≤ 2) :
    (∃ k, run + k ≤ 2 ∧ cs = List.replicate k quote) ∨
    ∃ k d more, run + k ≤ 2 ∧ d ≠ quote ∧ cs = List.replicate k quote ++ d :: more := by
  induction cs generalizing run with
  | nil => exact .inl ⟨0, few, rfl⟩
  | cons c cs ih =>
    rw [longestRun] at few
    split at few
    · next isQuote =>
      subst isQuote
      rcases ih few with ⟨k, room, rfl⟩ | ⟨k, d, more, room, other, rfl⟩
      · exact .inl ⟨k + 1, by omega, rfl⟩
      · exact .inr ⟨k + 1, d, more, by omega, other, rfl⟩
    · next notQuote => exact .inr ⟨0, c, cs, by omega, notQuote, rfl⟩

section Lines

variable {found : List Char × List Char}

theorem literalLines?_end (closed : closing? '\'' cs = some found) :
    literalLines? (fuel + 1) cs = some found := by
  unfold literalLines?
  rw [closed]

theorem literalLines?_char (opened : closing? '\'' (c :: rest) = none)
    (plain : isControl c = false) (next : literalLines? fuel rest = some found) :
    literalLines? (fuel + 1) (c :: rest) = some (c :: found.1, found.2) := by
  rw [literalLines?, opened]
  by_cases feed : c = '\n'
  · subst feed
    simp [lineEnd?, next]
  · have plain := isPlain_of_not_isControl plain feed
    simp [lineEnd?_eq_none plain, plain, next]

/-- A text without controls and with at most two single quotes in a row is read back from between
triple single quotes. -/
theorem literalLines?_append (few : longestRun '\'' run cs ≤ 2) (plain : cs.any isControl = false)
    (other : rest.head? ≠ some '\'') (enough : cs.length < fuel) :
    literalLines? fuel (cs ++ '\'' :: '\'' :: '\'' :: rest) = some (cs, rest) := by
  induction cs generalizing run fuel with
  | nil =>
    obtain ⟨fuel, rfl⟩ := Nat.exists_eq_add_one_of_ne_zero (Nat.ne_zero_of_lt enough)
    exact literalLines?_end (closing?_end (Nat.zero_le 2) other)
  | cons c cs ih =>
    obtain ⟨fuel, rfl⟩ := Nat.exists_eq_add_one_of_ne_zero (Nat.ne_zero_of_lt enough)
    rw [List.any_cons, Bool.or_eq_false_iff] at plain
    rcases longestRun_start few with ⟨k, room, h⟩ | ⟨k, d, more, room, inner, h⟩
    · rw [h]
      exact literalLines?_end (closing?_end (by omega) other)
    have later : ∃ run, longestRun '\'' run cs ≤ 2 := by
      rw [longestRun] at few
      split at few
      · exact ⟨_, few⟩
      · exact ⟨0, by omega⟩
    obtain ⟨run, few⟩ := later
    refine literalLines?_char ?_ plain.1 (ih few plain.2 (by simpa using enough))
    rw [← List.cons_append, h, List.append_assoc]
    exact closing?_inside (by omega) inner _

end Lines

/-! ## All styles -/

theorem le_longestRun (quote : Char) (run : Nat) (cs : List Char) :
    run ≤ longestRun quote run cs := by
  induction cs generalizing run with
  | nil => exact Nat.le_refl run
  | cons c cs ih =>
    rw [longestRun]
    split
    · exact Nat.le_of_succ_le (ih (run + 1))
    · exact Nat.le_max_left ..

theorem not_mem_of_longestRun_eq_zero (none : longestRun quote run cs = 0) : quote ∉ cs := by
  induction cs generalizing run with
  | nil => exact List.not_mem_nil
  | cons c cs ih =>
    rw [longestRun] at none
    split at none
    · have some := le_longestRun quote (run + 1) cs
      omega
    · next notQuote =>
      intro mem
      rcases List.mem_cons.1 mem with same | mem
      · exact notQuote same.symm
      · have later : longestRun quote 0 cs = 0 := by omega
        exact ih later mem

theorem Style.of_eq_literal {t : Traits} (h : Style.of t = .literal) :
    t.controls = false ∧ t.singleQuotes = 0 ∧ t.lineFeed = false ∧
      ¬(t.backslash = false ∧ t.doubleQuotes = 0) := by
  unfold Style.of at h
  split at h
  · cases h
  next notBasic =>
  split at h
  · next literal =>
    simp only [Bool.and_eq_true, Bool.not_eq_true', beq_iff_eq] at literal
    obtain ⟨⟨controls, quotes⟩, oneLine⟩ := literal
    refine ⟨controls, quotes, oneLine, fun basic => notBasic ?_⟩
    simp [controls, oneLine, basic]
  repeat' split at h
  all_goals cases h

theorem Style.of_eq_literalLines {t : Traits} (h : Style.of t = .literalLines) :
    t.controls = false ∧ t.singleQuotes ≤ 2 := by
  unfold Style.of at h
  split at h
  · cases h
  split at h
  · cases h
  split at h
  · cases h
  split at h
  · next literal => simpa using literal
  split at h
  · cases h
  · cases h

/-- How a text is written. -/
inductive Written (cs : List Char) : List Char → Prop
  | basic : Written cs ('"' :: escaped false 0 0 cs ++ ['"'])
  | literal (nonempty : cs ≠ []) (plain : cs.any isControl = false) (oneLine : '\n' ∉ cs)
      (unquoted : '\'' ∉ cs) : Written cs ('\'' :: cs ++ ['\''])
  | basicLines (start : List Char) (first : start = if '\n' ∈ cs then ['\n'] else []) :
      Written cs (['"', '"', '"'] ++ start ++ escaped true 2 0 cs ++ ['"', '"', '"'])
  | literalLines (start : List Char) (first : start = if '\n' ∈ cs then ['\n'] else [])
      (plain : cs.any isControl = false) (few : longestRun '\'' 0 cs ≤ 2) :
      Written cs (['\'', '\'', '\''] ++ start ++ cs ++ ['\'', '\'', '\''])

theorem written_text (s : String) : Written s.toList (text s) := by
  have start : (if s.toList.contains '\n' then ['\n'] else []) =
      if '\n' ∈ s.toList then ['\n'] else [] := by simp
  unfold text
  dsimp only
  split
  · exact .basic
  · next style =>
    obtain ⟨plain, unquoted, oneLine, notBasic⟩ := Style.of_eq_literal style
    refine .literal (fun empty => notBasic ?_) plain (by simpa [Traits.of] using oneLine)
      (not_mem_of_longestRun_eq_zero unquoted)
    simp [Traits.of, empty, longestRun]
  · exact .basicLines _ start
  · next style =>
    obtain ⟨plain, few⟩ := Style.of_eq_literalLines style
    exact .literalLines _ start plain few

/-- What may follow a text: anything but a further quote. -/
def EndsText (rest : List Char) : Prop := rest.head? ≠ some '"' ∧ rest.head? ≠ some '\''

/-- The line end behind the opening quotes is there where the text has several lines. -/
theorem dropFirstLineEnd_start {start body : List Char}
    (first : start = if '\n' ∈ cs then ['\n'] else [])
    (solid : '\n' ∉ cs → lineEnd? body = none) : dropFirstLineEnd (start ++ body) = body := by
  subst first
  split
  · rfl
  · next oneLine =>
    rw [List.nil_append, dropFirstLineEnd, solid oneLine]
    rfl

theorem length_le_escaped (lines : Bool) (allowed run : Nat) (cs : List Char) :
    cs.length ≤ (escaped lines allowed run cs).length := by
  induction cs generalizing run with
  | nil => exact Nat.zero_le _
  | cons c cs ih =>
    rw [escaped, List.length_cons]
    split
    · split
      · exact Nat.succ_le_succ (ih (run + 1))
      · exact Nat.succ_le_succ (Nat.le_succ_of_le (ih 0))
    · next notQuote =>
      have written : 1 ≤ (escapeChar lines c).length := by
        rcases escapeChar_cases lines notQuote with ⟨-, -, h⟩ | ⟨h, -⟩ | ⟨letter, code, h, -⟩
        · simp [h]
        · simp [h]
        · simp [h]
      have := ih 0
      rw [List.length_append]
      omega

/-- On one line all quotes are escaped. -/
theorem escaped_start (c : Char) (cs : List Char) :
    ∃ d more, escaped false 0 0 (c :: cs) = d :: more ∧ d ≠ '"' := by
  rw [escaped]
  split
  · exact ⟨_, _, rfl, by decide⟩
  · next notQuote =>
    rcases escapeChar_cases false notQuote with ⟨h, -⟩ | ⟨h, -⟩ | ⟨letter, code, h, -⟩
    · cases h
    · exact ⟨c, _, by rw [h]; rfl, notQuote⟩
    · exact ⟨'\\', _, by rw [h]; rfl, by decide⟩

/-- A text of one line does not start with a line end. -/
theorem lineEnd?_escaped (oneLine : '\n' ∉ cs) (rest : List Char) :
    lineEnd? (escaped true 2 0 cs ++ '"' :: rest) = none := by
  cases cs with
  | nil => exact lineEnd?_eq_none (by decide) _
  | cons c cs =>
    rw [escaped]
    split
    · next isQuote =>
      subst isQuote
      exact lineEnd?_eq_none (by decide) _
    · next notQuote =>
      rcases escapeChar_cases true notQuote with
        ⟨-, rfl, -⟩ | ⟨h, -, plain⟩ | ⟨letter, code, h, -⟩
      · exact absurd List.mem_cons_self oneLine
      · rw [h]
        exact lineEnd?_eq_none plain _
      · rw [h]
        exact lineEnd?_eq_none (by decide) _

theorem text?_of_one_quote {body : List Char} (one : ¬∃ rest, body = quote :: quote :: rest) :
    text? (quote :: body) = lineText? (quote :: body) := by
  unfold text?
  split
  · next same =>
    cases same
    exact absurd ⟨_, rfl⟩ one
  · next same =>
    cases same
    exact absurd ⟨_, rfl⟩ one
  · rfl

theorem all_isPlain (plain : cs.any isControl = false) (oneLine : '\n' ∉ cs) :
    ∀ c ∈ cs, isPlain c = true := by
  intro c hc
  refine isPlain_of_not_isControl ?_ (fun same => oneLine (same ▸ hc))
  simpa using List.any_eq_false.1 plain c hc

section Styles

variable {s : String} {start : List Char}

theorem ofList_toList_map (s : String) (rest : List Char) :
    (some (s.toList, rest)).map (fun (cs, rest) => (String.ofList cs, rest)) = some (s, rest) := by
  simp only [Option.map_some, String.ofList_toList]

theorem text?_basic (ends : EndsText rest) :
    text? ('"' :: escaped false 0 0 s.toList ++ ['"'] ++ rest) = some (s, rest) := by
  have short := length_le_escaped false 0 0 s.toList
  have one : ¬∃ more, escaped false 0 0 s.toList ++ '"' :: rest = '"' :: '"' :: more := by
    rintro ⟨more, h⟩
    cases hs : s.toList with
    | nil =>
      -- The empty text is closed at once, and no third quote follows.
      rw [hs] at h
      have third : rest = '"' :: more := by simpa [escaped] using h
      exact ends.1 (by rw [third]; rfl)
    | cons c cs =>
      obtain ⟨d, more, start, notQuote⟩ := escaped_start c cs
      rw [hs, start, List.cons_append] at h
      exact notQuote (List.cons.inj h).1
  have layout : '"' :: escaped false 0 0 s.toList ++ ['"'] ++ rest =
      '"' :: (escaped false 0 0 s.toList ++ '"' :: rest) := by simp
  rw [layout, text?_of_one_quote one, lineText?, basic?_escaped s.toList rest (by simp; omega)]
  exact ofList_toList_map s rest

theorem text?_literal (nonempty : s.toList ≠ []) (plain : s.toList.any isControl = false)
    (oneLine : '\n' ∉ s.toList) (unquoted : '\'' ∉ s.toList) (rest : List Char) :
    text? ('\'' :: s.toList ++ ['\''] ++ rest) = some (s, rest) := by
  have one : ¬∃ more, s.toList ++ '\'' :: rest = '\'' :: '\'' :: more := by
    rintro ⟨more, h⟩
    obtain ⟨c, cs, hs⟩ := List.exists_cons_of_ne_nil nonempty
    rw [hs, List.cons_append] at h
    rw [hs, (List.cons.inj h).1] at unquoted
    exact unquoted List.mem_cons_self
  have layout : '\'' :: s.toList ++ ['\''] ++ rest = '\'' :: (s.toList ++ '\'' :: rest) := by simp
  rw [layout, text?_of_one_quote one, lineText?,
    literal?_append (all_isPlain plain oneLine) unquoted]
  exact ofList_toList_map s rest

theorem text?_basicLines (first : start = if '\n' ∈ s.toList then ['\n'] else [])
    (ends : EndsText rest) :
    text? (['"', '"', '"'] ++ start ++ escaped true 2 0 s.toList ++ ['"', '"', '"'] ++ rest) =
      some (s, rest) := by
  have short := length_le_escaped true 2 0 s.toList
  have solid (oneLine : '\n' ∉ s.toList) :
      lineEnd? (escaped true 2 0 s.toList ++ '"' :: '"' :: '"' :: rest) = none :=
    lineEnd?_escaped oneLine _
  have body := dropFirstLineEnd_start first solid
  have layout : ['"', '"', '"'] ++ start ++ escaped true 2 0 s.toList ++ ['"', '"', '"'] ++ rest =
      '"' :: '"' :: '"' ::
        (start ++ (escaped true 2 0 s.toList ++ '"' :: '"' :: '"' :: rest)) := by
    simp
  rw [layout, text?, body, basicLines?_escaped (Nat.zero_le 2) _ ends.1 (by simp; omega)]
  exact ofList_toList_map s rest

theorem text?_literalLines (first : start = if '\n' ∈ s.toList then ['\n'] else [])
    (plain : s.toList.any isControl = false) (few : longestRun '\'' 0 s.toList ≤ 2)
    (ends : EndsText rest) :
    text? (['\'', '\'', '\''] ++ start ++ s.toList ++ ['\'', '\'', '\''] ++ rest) =
      some (s, rest) := by
  have solid (oneLine : '\n' ∉ s.toList) :
      lineEnd? (s.toList ++ '\'' :: '\'' :: '\'' :: rest) = none := by
    cases hs : s.toList with
    | nil => exact lineEnd?_eq_none (by decide) _
    | cons c cs =>
      refine lineEnd?_eq_none (all_isPlain plain oneLine c ?_) _
      rw [hs]
      exact List.mem_cons_self
  have body := dropFirstLineEnd_start first solid
  have layout : ['\'', '\'', '\''] ++ start ++ s.toList ++ ['\'', '\'', '\''] ++ rest =
      '\'' :: '\'' :: '\'' :: (start ++ (s.toList ++ '\'' :: '\'' :: '\'' :: rest)) := by
    simp
  rw [layout, text?, body, literalLines?_append few plain ends.2 (by simp; omega)]
  exact ofList_toList_map s rest

end Styles

/-- A text is read back from what is written for it. -/
theorem text?_text (s : String) (ends : EndsText rest) :
    text? (text s ++ rest) = some (s, rest) := by
  have written := written_text s
  generalize text s = chars at written ⊢
  cases written with
  | basic => exact text?_basic ends
  | literal nonempty plain oneLine unquoted =>
    exact text?_literal nonempty plain oneLine unquoted rest
  | basicLines start first => exact text?_basicLines first ends
  | literalLines start first plain few => exact text?_literalLines first plain few ends

end ServiceContract.Toml
