import ServiceContract.Proofs.Yaml.Ending
import ServiceContract.Proofs.Yaml.RoundTrip

/-!
# A document without its end

The blanks at the end of a document may belong to its last text. Where they do and the document is
cut off in front of them, another text is read in place of the last one, or none, or the document
has no tokens at all.
-/

namespace ServiceContract.Yaml

open Text (EndsLine EndsSolid dropBlankEnd)

variable {s : String} {cs blanks v : List Char} {n : Nat}

/-! ## What is left -/

/-- The lines of a text up to its last character that is no blank. -/
def solidLines (cs : List Char) : List Char :=
  if dropBlankEnd cs = [] then [] else dropBlankEnd cs ++ ['\n']

/-- A start of these lines is another text, if the text does not keep its end. -/
theorem ofList_ne_of_prefix (nonempty : s.toList ≠ []) (lost : ¬EndsLine (endLine s.toList))
    (start : v <+: solidLines s.toList) : String.ofList v ≠ s := by
  intro same
  have own : s.toList = v := by rw [← same, String.toList_ofList]
  rw [endsLine_endLine_iff, not_and, not_or] at lost
  unfold solidLines at start
  rw [own] at nonempty lost start
  split at start
  · exact nonempty (List.prefix_nil.1 start)
  · rename_i solid
    obtain ⟨inside, closed⟩ := lost solid
    obtain ⟨blanks, split, -⟩ := Text.exists_blanks v
    have start : dropBlankEnd v ++ blanks <+: dropBlankEnd v ++ ['\n'] := by rwa [← split]
    rw [List.prefix_append_right_inj, List.prefix_cons_iff] at start
    rcases start with rfl | ⟨rest, rfl, start⟩
    · rw [List.append_nil] at split
      exact inside split
    · rw [List.prefix_nil.1 start] at split
      exact closed split

theorem head?_solidLines : ∀ c ∈ (solidLines cs).head?, c ∈ cs.head? := by
  intro c hc
  obtain ⟨blanks, split, -⟩ := Text.exists_blanks cs
  unfold solidLines at hc
  split at hc
  · cases hc
  · rename_i solid
    obtain ⟨d, rest, start⟩ := List.exists_cons_of_ne_nil solid
    rw [start] at hc split
    rw [split]
    exact hc

theorem solidLines_closed : ∀ c ∈ (solidLines cs).getLast?, isBreak c = true := by
  intro c hc
  unfold solidLines at hc
  split at hc
  · cases hc
  · rw [List.getLast?_concat] at hc
    obtain rfl := Option.some.inj hc
    rfl

theorem printable_solidLines (printable : ∀ c ∈ cs, isPrintable c = true) :
    ∀ c ∈ solidLines cs, isPrintable c = true := by
  intro c hc
  obtain ⟨blanks, split, -⟩ := Text.exists_blanks cs
  rw [split] at printable
  unfold solidLines at hc
  split at hc
  · cases hc
  · rcases List.mem_append.1 hc with hc | hc
    · exact printable c (List.mem_append_left _ hc)
    · obtain rfl := List.mem_singleton.1 hc
      rfl

theorem mem_blockBody {c : Char} {fresh : Bool} (h : c ∈ blockBody n fresh cs) :
    c ∈ cs ∨ c = ' ' := by
  unfold blockBody at h
  induction cs generalizing fresh with
  | nil => cases h
  | cons d cs ih =>
    rw [indentLines] at h
    split at h
    · rcases List.mem_cons.1 h with rfl | h
      · exact .inl List.mem_cons_self
      · exact (ih h).imp_left (List.mem_cons_of_mem d)
    · rcases List.mem_append.1 h with h | h
      · rcases List.mem_append.1 h with h | h
        · split at h
          · exact .inr (List.eq_of_mem_replicate h)
          · cases h
        · obtain rfl := List.mem_singleton.1 h
          exact .inl List.mem_cons_self
      · exact (ih h).imp_left (List.mem_cons_of_mem d)

/-- Blanks at the end of a text are blanks at the end of its block. -/
theorem exists_blanks_blockBody (n : Nat) (fresh : Bool) (cs : List Char)
    (white : ∀ c ∈ blanks, Text.isBlank c = true) : ∃ more,
    blockBody n fresh (cs ++ blanks) = blockBody n fresh cs ++ more ∧
      ∀ c ∈ more, Text.isBlank c = true := by
  induction cs generalizing fresh with
  | nil =>
    refine ⟨blockBody n fresh blanks, rfl, fun c hc => ?_⟩
    rcases mem_blockBody hc with hc | rfl
    · exact white c hc
    · rfl
  | cons d cs ih =>
    unfold blockBody at ih ⊢
    rw [List.cons_append, indentLines, indentLines]
    split
    · obtain ⟨more, split, white⟩ := ih true
      exact ⟨more, by rw [split, List.cons_append], white⟩
    · obtain ⟨more, split, white⟩ := ih false
      exact ⟨more, by simp only [split, List.append_assoc], white⟩

/-- What is left of a text behind its colon, and the line feed behind it. -/
def clippedValue (s : String) : List Char :=
  dropBlankEnd (' ' :: endLine (scalar 4 false s)) ++ ['\n']

theorem dropBlankEnd_print_last {name key : String} (word : IsWord name) (lastWord : IsWord key)
    (members inner : Members) (s : String) :
    dropBlankEnd
          (print (.object (members ++ [(name, .object (inner ++ [(key, .string s)]))]))).toList ++
        ['\n'] =
      upToLast members name inner key ++ clippedValue s := by
  have solid : EndsSolid (upToLast members name inner key) := by
    intro c hc
    have split : upToLast members name inner key = (laterMembers 0 members ++ (name.toList ++
        ':' :: '\n' :: (laterMembers 2 inner ++ (spaces 2 ++ key.toList)))) ++ [':'] := by
      simp [upToLast]
    rw [split, List.getLast?_concat] at hc
    obtain rfl : ':' = c := Option.some.inj hc
    rfl
  rw [toList_print_last word lastWord, solid.dropBlankEnd_append, List.append_assoc, clippedValue]

theorem clippedValue_plain (style : Style.of false s = .plain) :
    clippedValue s = dropBlankEnd (' ' :: s.toList) ++ ['\n'] := by
  have white : ∀ c ∈ ['\n'], Text.isBlank c = true := List.forall_mem_singleton.2 rfl
  have line : endLine (scalar 4 false s) = s.toList ++ ['\n'] := by
    rw [scalar, style]
    exact (isPlain_of_style style).endLine_eq
  rw [clippedValue, line, ← List.cons_append, Text.dropBlankEnd_append_blanks _ white]

/-- The marks of a block are no blanks. -/
theorem endsSolid_marks (cs : List Char) :
    EndsSolid (' ' :: '|' :: (Cursor.indentHint cs ++ chomping cs)) := by
  intro c hc
  rcases Cursor.indentHint_cases cs with hint | ⟨hint, -⟩
  all_goals
    rcases Cursor.chomping_cases cs with mark | mark | mark
    all_goals
      rw [hint, mark] at hc
      obtain rfl := Option.some.inj hc
      rfl

/-- The lines of a block are cut off where its text is. -/
theorem dropBlankEnd_blockBody (n : Nat) (cs : List Char) :
    dropBlankEnd ('\n' :: blockBody n true (endLine cs)) ++ ['\n'] =
      '\n' :: blockBody n true (solidLines cs) := by
  obtain ⟨blanks, split, white⟩ : ∃ blanks, endLine cs = dropBlankEnd cs ++ blanks ∧
      ∀ c ∈ blanks, Text.isBlank c = true := by
    obtain ⟨blanks, split, white⟩ := Text.exists_blanks cs
    unfold endLine
    split
    · exact ⟨blanks, split, white⟩
    · refine ⟨blanks ++ ['\n'], by rw [← List.append_assoc, ← split], ?_⟩
      exact List.forall_mem_append.2 ⟨white, List.forall_mem_singleton.2 rfl⟩
  obtain ⟨more, body, moreWhite⟩ := exists_blanks_blockBody n true (dropBlankEnd cs) white
  rw [split, body, ← List.cons_append, Text.dropBlankEnd_append_blanks _ moreWhite]
  unfold solidLines
  by_cases blank : dropBlankEnd cs = []
  · rw [if_pos blank, blank]
    rfl
  · have solid : EndsSolid ('\n' :: blockBody n true (dropBlankEnd cs)) := by
      have last := List.getLast?_eq_some_getLast blank
      intro c hc
      rw [List.getLast?_cons, getLast?_blockBody, last] at hc
      obtain rfl := Option.some.inj hc
      exact Text.endsSolid_dropBlankEnd cs _ last
    rw [if_neg blank, Text.dropBlankEnd_of_solid solid, blockBody_append, List.cons_append]

theorem clippedValue_literal (style : Style.of false s = .literal) :
    clippedValue s = ' ' :: '|' :: (Cursor.indentHint s.toList ++ chomping s.toList ++
      '\n' :: blockBody 4 true (solidLines s.toList)) := by
  have line : ' ' :: endLine (scalar 4 false s) =
      (' ' :: '|' :: (Cursor.indentHint s.toList ++ chomping s.toList)) ++
        '\n' :: blockBody 4 true (endLine s.toList) := by
    have block := Cursor.endLine_literalBlock 4 (isLiteral_of_style style).nonempty
    rw [scalar, style]
    exact congrArg (' ' :: ·) block
  rw [clippedValue, line, (endsSolid_marks _).dropBlankEnd_append, List.append_assoc,
    dropBlankEnd_blockBody]
  rfl

/-! ## Plain texts -/

theorem startsLikeMarker_append (h : startsLikeMarker (cs ++ blanks) = false) :
    startsLikeMarker cs = false := by
  unfold startsLikeMarker
  split
  · cases h
  · cases h
  · rfl

/-- A character at the end is an indicator only if it is a colon. -/
theorem hasInnerIndicator_append (h : hasInnerIndicator (cs ++ blanks) = false)
    (last : cs.getLast? ≠ some ':') : hasInnerIndicator cs = false := by
  induction cs with
  | nil => rfl
  | cons previous cs ih =>
    cases cs with
    | nil => rfl
    | cons c cs =>
      rw [List.cons_append, List.cons_append, hasInnerIndicator, Bool.or_eq_false_iff] at h
      rw [List.getLast?_cons_cons] at last
      rw [hasInnerIndicator, ih h.2 last, Bool.or_false]
      cases cs with
      | cons d cs => exact h.1
      | nil =>
        have notColon : c ≠ ':' := by
          rintro rfl
          exact last rfl
        have inner := h.1
        simp only [isInnerIndicator, notColon, decide_false, Bool.false_and, Bool.false_or]
          at inner ⊢
        exact inner

/-- A plain text without its end is plain, a mark or a text behind which stands a colon. -/
theorem IsPlain.start_cases (plain : IsPlain (cs ++ blanks)) (nonempty : cs ≠ [])
    (space : cs.getLast? ≠ some ' ') :
    IsPlain cs ∨ cs = ['-'] ∨ cs = ['?'] ∨ ∃ v, cs = v ++ [':'] := by
  obtain ⟨c, rest, rfl⟩ := List.exists_cons_of_ne_nil nonempty
  by_cases colon : (c :: rest).getLast? = some ':'
  · exact .inr (.inr (.inr (List.getLast?_eq_some_iff.1 colon)))
  by_cases mark : rest = [] ∧ (c = '-' ∨ c = '?')
  · obtain ⟨rfl, rfl | rfl⟩ := mark
    · exact .inr (.inl rfl)
    · exact .inr (.inr (.inl rfl))
  obtain ⟨d, more, split, first, leading⟩ := plain.first
  obtain ⟨rfl, rfl⟩ := List.cons.inj split
  refine .inl ⟨fun d hd => plain.printable d (List.mem_append_left _ hd), ⟨c, rest, rfl, first, ?_⟩,
    space, hasInnerIndicator_append plain.inner colon, startsLikeMarker_append plain.marker⟩
  cases rest with
  | cons d rest => exact leading
  | nil =>
    have notColon : c ≠ ':' := by
      rintro rfl
      exact colon rfl
    have other := Lexer.ne_indicator_of_leading leading
    simp only [true_and, not_or] at mark
    unfold isLeadingIndicator
    rw [if_neg (by simpa using other), if_neg (by simp [notColon, mark])]

/-! ## Tokens -/

/-- The tokens of a value in place of a text: none, or those of another text. -/
def IsOther (s : String) (value : List Token) : Prop :=
  value = [] ∨ ∃ style text, value = [.scalar style text] ∧ text ≠ s

/-- The tokens up to the value that is written last. -/
def tokensToLast (members : Members) (name : String) (inner : Members) (key : String) :
    List Token :=
  .blockMappingStart :: (memberTokens members ++ .key :: .scalar .plain name :: .value ::
    .blockMappingStart :: (memberTokens inner ++ [.key, .scalar .plain key, .value]))

theorem tokensToLast_append (members : Members) (name : String) (inner : Members) (key : String)
    (rest : List Token) : tokensToLast members name inner key ++ rest =
      .blockMappingStart :: (memberTokens members ++ .key :: .scalar .plain name :: .value ::
        .blockMappingStart :: (memberTokens inner ++ .key :: .scalar .plain key :: .value ::
          rest)) := by
  simp [tokensToLast]

namespace Lexer

variable {lexer later : Lexer} {tokens : List Token} {indent : Int} {outer : List Int}
  {allowed : Bool} {column : Nat} {c : Char} {text : List Char}

/-- The lexer finds something that is no token. -/
def Refuses (lexer : Lexer) : Prop :=
  ∀ fuel, lexer.cursor.rest.length < fuel → run? fuel lexer = none

theorem Leads.refuses (leads : Leads lexer later) (refuses : Refuses later) : Refuses lexer := by
  intro fuel enough
  obtain ⟨fuel', enough', same⟩ := leads fuel enough
  rw [same]
  exact refuses fuel' enough'

theorem Ready.refuses (ready : Ready lexer (c :: text) column tokens indent outer allowed)
    (inside : indent ≤ column)
    (refused : ∀ cursor : Cursor, cursor.rest = c :: text → cursor.column = column →
      (between cursor tokens indent outer allowed).token? c = none) : Refuses lexer := by
  obtain ⟨⟨cursor, harrive, hrest, hcolumn⟩, -⟩ := ready
  rw [closeBlocks_of_le outer (by exact inside)] at harrive
  intro fuel enough
  obtain ⟨fuel, rfl⟩ : ∃ m, fuel = m + 1 := ⟨fuel - 1, by omega⟩
  have next : (between cursor tokens indent outer allowed).cursor.next? = some c :=
    Cursor.next?_eq hrest
  rw [run?_succ, harrive, Option.bind_some, next]
  dsimp only
  rw [refused cursor hrest hcolumn, Option.bind_none]

/-- An entry or a key does not start where no key may start. -/
theorem token?_alone {cursor : Cursor} (hc : c = '-' ∨ c = '?' ∨ c = ':')
    (h : cursor.rest = c :: text) (ends : endsWord text = true) (inside : 0 < cursor.column) :
    (between cursor tokens indent outer false).token? c = none := by
  have notMarker := Cursor.atDocumentMarker_eq_false inside
  rw [Cursor.atDocumentMarker, Bool.or_eq_false_iff] at notMarker
  have alone : cursor.endsAt 1 = true := by rw [Cursor.endsAt_one h, ends]
  rcases hc with rfl | rfl | rfl
  all_goals
    simp [token?, between, notMarker, alone, entry?, key?, value?, openBlock?, inFlow]

/-- Neither is a colon allowed behind a plain text there. -/
theorem Ready.refuses_colon (plain : IsPlain (cs ++ ':' :: blanks))
    (ready : Ready lexer (cs ++ [':', '\n']) column tokens indent outer false)
    (inside : indent < column) (positive : 0 < column) : Refuses lexer := by
  have ends : endsWord ['\n'] = true := rfl
  cases cs with
  | nil =>
    refine ready.refuses (by omega) fun cursor hrest hcolumn => ?_
    exact token?_alone (.inr (.inr rfl)) hrest ends (by omega)
  | cons c cs =>
    obtain ⟨cursor, hrest, rfl, leads⟩ := ready.leads (by omega)
    obtain ⟨d, more, split, space, leading⟩ := plain.first
    obtain ⟨rfl, rfl⟩ := List.cons.inj split
    have solid : IsSolid c := plain.isSolid c List.mem_cons_self space
    have starts : isLeadingIndicator c (cs ++ [':', '\n']).head? = false := by
      cases cs with
      | nil => exact leading
      | cons d cs => exact leading
    have notMarker := Cursor.atDocumentMarker_eq_false positive
    have column : indent ≤ cursor.column := by omega
    obtain ⟨word, later, read, hlater, hcolumn⟩ :=
      Cursor.plainScalar?_colon plain hrest ends positive column
    have passed :
        Leads lexer ⟨later, .scalar .plain word :: tokens, indent, outer, false, none, []⟩ := by
      refine leads _ ?_ ?_
      · rw [token?_of_leading solid starts hrest notMarker, plain?, saveKey?_between]
        simp [inFlow, read, push, keyHere]
      · simp [hlater]
    have colon : Ready ⟨later, .scalar .plain word :: tokens, indent, outer, false, none, []⟩
        [':', '\n'] (later.column + 0) (.scalar .plain word :: tokens) indent outer false :=
      ready_of_spaces hlater (starts_cons rfl (by decide) (by decide) _) (passes_none _)
    refine passed.refuses (colon.refuses (by omega) fun cursor hrest hcolumn => ?_)
    exact token?_alone (.inr (.inr rfl)) hrest ends (by omega)

section Value

variable {stop : Cursor}

/-- The start of a plain text up to a character that is no blank, at the end of a document. -/
theorem between_start (plain : IsPlain (cs ++ blanks)) (nonempty : cs ≠ []) (solid : EndsSolid cs)
    (h : stop.rest = ' ' :: (cs ++ ['\n'])) (inside : 2 < stop.column) :
    Refuses (between stop tokens (2 : Nat) outer false) ∨
      ∃ later, Leads (between stop tokens (2 : Nat) outer false) later ∧
        AtLine later [] (.scalar .plain (String.ofList cs) :: tokens) (2 : Nat) outer := by
  have starts : Starts (cs ++ ['\n']) := by
    obtain ⟨c, cs, rfl⟩ := List.exists_cons_of_ne_nil nonempty
    exact fun d hd => plain.starts [] d hd
  have ready : Ready (between stop tokens (2 : Nat) outer false) (cs ++ ['\n']) (stop.column + 1)
      tokens (2 : Nat) outer false := ready_of_spaces (n := 1) h starts (passes_none _)
  have alone (c : Char) (hc : c = '-' ∨ c = '?' ∨ c = ':') (own : cs = [c]) :
      Refuses (between stop tokens (2 : Nat) outer false) := by
    subst own
    refine ready.refuses (by omega) fun cursor hrest hcolumn => ?_
    exact token?_alone hc hrest rfl (by omega)
  have space : cs.getLast? ≠ some ' ' := by
    intro last
    cases solid ' ' last
  rcases plain.start_cases nonempty space with plain | hyphen | mark | ⟨v, rfl⟩
  · rw [← plain.endLine_eq, ← List.append_nil (endLine cs)] at ready
    exact .inr (ready.word plain (by omega) (follows_nil 2))
  · exact .inl (alone '-' (.inl rfl) hyphen)
  · exact .inl (alone '?' (.inr (.inl rfl)) mark)
  · rw [List.append_assoc] at plain ready
    exact .inl (ready.refuses_colon plain (by omega) (by omega))

theorem between_clipped_plain (style : Style.of false s = .plain)
    (lost : ¬EndsLine (endLine s.toList)) (h : stop.rest = clippedValue s)
    (inside : 2 < stop.column) :
    Refuses (between stop tokens (2 : Nat) outer false) ∨ ∃ value later, IsOther s value ∧
      Leads (between stop tokens (2 : Nat) outer false) later ∧
      AtLine later [] (value ++ tokens) (2 : Nat) outer := by
  have plain := isPlain_of_style style
  have nonempty : s.toList ≠ [] := plain.isWords.nonempty
  obtain ⟨blanks, split, white⟩ := Text.exists_blanks s.toList
  rw [clippedValue_plain style] at h
  by_cases blank : dropBlankEnd s.toList = []
  · -- Nothing is left but the line end, so there is no value.
    have none : dropBlankEnd (' ' :: s.toList) = [] := by
      have solid : EndsSolid [] := nofun
      rw [split, blank]
      exact Text.dropBlankEnd_append solid (List.forall_mem_cons.2 ⟨rfl, white⟩)
    rw [none, List.nil_append] at h
    have ended : Ready (between stop tokens (2 : Nat) outer false) [] 0 tokens (2 : Nat) outer
        true := ready_of_line h nofun (passes_none _)
    exact .inr ⟨[], _, .inl rfl, .refl _, ended.atLine nofun⟩
  · have start : dropBlankEnd s.toList <+: solidLines s.toList := by
      rw [solidLines, if_neg blank]
      exact List.prefix_append ..
    have other := ofList_ne_of_prefix nonempty lost start
    have kept : dropBlankEnd (' ' :: s.toList) = ' ' :: dropBlankEnd s.toList :=
      Text.dropBlankEnd_append_of_ne_nil [' '] blank
    rw [kept] at h
    rw [split] at plain
    refine (between_start plain blank (Text.endsSolid_dropBlankEnd _) h inside).imp_right ?_
    rintro ⟨later, leads, line⟩
    exact ⟨[.scalar .plain _], later, .inr ⟨_, _, rfl, other⟩, leads, line⟩

theorem between_clipped_literal (style : Style.of false s = .literal)
    (lost : ¬EndsLine (endLine s.toList)) (h : stop.rest = clippedValue s)
    (inside : 2 < stop.column) :
    ∃ value later, IsOther s value ∧ Leads (between stop tokens (2 : Nat) outer false) later ∧
      AtLine later [] (value ++ tokens) (2 : Nat) outer := by
  have literal := isLiteral_of_style style
  have ends : EndsGap [] := nofun
  let block := Cursor.indentHint s.toList ++ chomping s.toList ++
    '\n' :: blockBody 4 true (solidLines s.toList)
  have text : stop.rest = spaces 1 ++ '|' :: (block ++ (spaces 0 ++ [])) := by
    rw [h, clippedValue_literal style, spaces, spaces, List.replicate_zero, List.append_nil,
      List.append_nil]
    rfl
  have ready : Ready (between stop tokens (2 : Nat) outer false) _ (stop.column + 1) tokens
      (2 : Nat) outer false :=
    ready_of_spaces text (starts_cons rfl (by decide) (by decide) _) (passes_none _)
  have read (cursor : Cursor) (hrest : cursor.rest = block ++ (spaces 0 ++ [])) :
      ∃ text stop, text ≠ s ∧ cursor.blockScalar? false (2 : Nat) = some (text, stop) ∧
        Cursor.Below cursor [] 0 stop := by
    have indent : 4 = (max ((2 : Nat) : Int) 0).toNat + 2 := rfl
    rw [List.append_assoc] at hrest
    obtain ⟨body, stop, read, reads, below⟩ := Cursor.blockScalar?_reads head?_solidLines
      solidLines_closed (printable_solidLines literal.printable) indent (Nat.zero_le _) ends hrest
    exact ⟨_, stop, ofList_ne_of_prefix literal.nonempty lost (reads.starts _), read, below⟩
  obtain ⟨text, later, other, leads, arrived⟩ := Ready.block read ready (by omega) nofun
  exact ⟨[.scalar .literal text], later, .inr ⟨_, _, rfl, other⟩, leads, arrived.atLine nofun⟩

/-- A text that does not keep its end is refused or read as another one where the rest of its
document is cut off. -/
theorem between_clipped (lost : ¬KeepsEnd s) (h : stop.rest = clippedValue s)
    (inside : 2 < stop.column) :
    Refuses (between stop tokens (2 : Nat) outer false) ∨ ∃ value later, IsOther s value ∧
      Leads (between stop tokens (2 : Nat) outer false) later ∧
      AtLine later [] (value ++ tokens) (2 : Nat) outer := by
  rw [keepsEnd_iff, not_or, not_or] at lost
  obtain ⟨single, double, lost⟩ := lost
  cases style : Style.of false s with
  | singleQuoted => exact absurd style single
  | doubleQuoted => exact absurd style double
  | plain => exact between_clipped_plain style lost h inside
  | literal => exact .inr (between_clipped_literal style lost h inside)

end Value

/-! ## Documents -/

theorem atLine_of_follows {cursor : Cursor} {base : Nat} (h : cursor.rest = '\n' :: text)
    (follows : Follows base text) :
    AtLine (between cursor tokens indent outer allowed) text tokens indent outer := by
  obtain ⟨k, rest, rfl, starts, -⟩ := follows
  exact (ready_of_line h starts (passes_none _)).atLine starts

/-- A key on its line, up to its colon. -/
theorem AtLine.colon {key : String} {tokens' : List Token} {outer' : List Int} (word : IsWord key)
    (opens : Opens .blockMappingStart n tokens indent outer tokens' outer')
    (line : AtLine lexer (spaces n ++ (key.toList ++ ':' :: text)) tokens indent outer)
    (ends : endsWord text = true) :
    ∃ stop : Cursor, Leads lexer
        (between stop (.value :: .scalar .plain key :: .key :: tokens') n outer' false) ∧
      stop.rest = text ∧ n < stop.column := by
  obtain ⟨stop, leads, hrest, hcolumn⟩ :=
    (line.ready (word.isPlain.starts _)).key word.isPlain word.length opens ends
  exact ⟨stop, leads, hrest, by omega⟩

/-- Members and the key of another one, up to its colon. -/
theorem AtLine.key {key : String} {members : Members} {tokens' : List Token} {outer' : List Int}
    (simple : MembersSimple members) (word : IsWord key)
    (opens : Opens .blockMappingStart n tokens indent outer tokens' outer')
    (line : AtLine lexer (laterMembers n members ++ (spaces n ++ (key.toList ++ ':' :: text)))
      tokens indent outer) (ends : endsWord text = true) :
    ∃ stop : Cursor, Leads lexer (between stop
        (.value :: .scalar .plain key :: .key :: ((memberTokens members).reverse ++ tokens'))
        n outer' false) ∧ stop.rest = text ∧ n < stop.column := by
  by_cases none : members = []
  · subst none
    rw [laterMembers] at line
    rw [memberTokens]
    exact line.colon word opens ends
  · have follows : Follows n (spaces n ++ (key.toList ++ ':' :: text)) :=
      ⟨n, _, rfl, word.isPlain.starts _, Nat.le_refl n⟩
    obtain ⟨later, leads, line⟩ := AtLine.members members simple none opens line follows
    obtain ⟨stop, leads', behind⟩ := line.colon word .same ends
    exact ⟨stop, leads.trans leads', behind⟩

section Last

variable {name key : String} {members inner : Members}

theorem upToLast_append (members : Members) (name : String) (inner : Members) (key : String)
    (text : List Char) : upToLast members name inner key ++ text = laterMembers 0 members ++
      (spaces 0 ++ (name.toList ++ ':' :: '\n' ::
        (laterMembers 2 inner ++ (spaces 2 ++ (key.toList ++ ':' :: text))))) := by
  simp [upToLast, spaces]

theorem starts_upToLast (simple : MembersSimple members) (word : IsWord name) (inner : Members)
    (key : String) (text : List Char) : Starts (upToLast members name inner key ++ text) := by
  rw [upToLast_append]
  obtain ⟨k, rest, split, starts, hk⟩ := follows_laterMembers simple
    ⟨0, _, rfl, word.isPlain.starts _, Nat.le_refl 0⟩
  obtain rfl : k = 0 := by omega
  rw [split]
  exact starts

theorem leads_upToLast (simple : MembersSimple members) (word : IsWord name)
    (innerSimple : MembersSimple inner) (lastWord : IsWord key) (ends : endsWord text = true) :
    ∃ stop : Cursor, Leads (.start (upToLast members name inner key ++ text))
        (between stop (tokensToLast members name inner key).reverse (2 : Nat) [(0 : Nat), -1]
          false) ∧ stop.rest = text ∧ 2 < stop.column := by
  have starts := starts_upToLast simple word inner key text
  have line := (ready_start starts).atLine starts
  have inside : Follows 2 (laterMembers 2 inner ++ (spaces 2 ++ (key.toList ++ ':' :: text))) :=
    follows_laterMembers innerSimple ⟨2, _, rfl, lastWord.isPlain.starts _, Nat.le_refl 2⟩
  rw [spaces, List.replicate_zero, List.nil_append, upToLast_append] at line
  rw [upToLast_append]
  obtain ⟨first, leads₁, hfirst, -⟩ := line.key simple word (.deeper (by omega)) rfl
  have deeper : ((0 : Nat) : Int) < (2 : Nat) := by omega
  obtain ⟨stop, leads₂, behind⟩ :=
    (atLine_of_follows hfirst inside).key innerSimple lastWord (.deeper deeper) ends
  refine ⟨stop, ?_, behind⟩
  simpa [tokensToLast] using leads₁.trans leads₂

theorem endsWord_clippedValue (s : String) : endsWord (clippedValue s) = true := by
  obtain ⟨blanks, split, -⟩ := Text.exists_blanks (' ' :: endLine (scalar 4 false s))
  unfold clippedValue
  cases h : dropBlankEnd (' ' :: endLine (scalar 4 false s)) with
  | nil => rfl
  | cons c rest =>
    rw [h] at split
    obtain ⟨rfl, -⟩ := List.cons.inj split
    rfl

/-- The tokens of a document without the end of its last text. -/
theorem ofText?_clipped (simple : MembersSimple members) (word : IsWord name)
    (innerSimple : MembersSimple inner) (lastWord : IsWord key) (lost : ¬KeepsEnd s)
    {document : String} (h : document.toList = upToLast members name inner key ++ clippedValue s) :
    Token.ofText? document = none ∨ ∃ value, IsOther s value ∧ Token.ofText? document =
      some (tokensToLast members name inner key ++ (value ++ [.blockEnd, .blockEnd])) := by
  obtain ⟨stop, leads, hrest, column⟩ :=
    leads_upToLast simple word innerSimple lastWord (endsWord_clippedValue s)
  rw [← h] at leads
  have enough : document.toList.length < document.toList.length + 1 := Nat.lt_succ_self _
  have starts := starts_upToLast simple word inner key (clippedValue s)
  rw [← h] at starts
  rw [Token.ofText?_of_starts starts]
  split
  · rcases between_clipped lost hrest column with refuses | ⟨value, later, other, reads, line⟩
    · rw [leads.refuses refuses _ enough]
      exact .inl rfl
    · obtain ⟨final, run, reversed⟩ :=
        (leads.trans reads).finish (line.close (follows_nil 0) (by omega)) enough
      refine .inr ⟨value, other, ?_⟩
      rw [run, Option.map_some, reversed]
      obtain rfl | ⟨style, text, rfl, -⟩ := other <;> simp
  · exact .inl rfl

end Last

end Lexer

namespace Node

variable {rest : List Token} {anchors : List (String × Nat)} {handles : List (String × String)}
  {fuel count : Nat} {name key : String} {members inner : Members} {value : List Token}

/-- A mapping whose last pair is not that of a member. -/
theorem read_blockMapping_concat {place : Place} (block : place.block = true)
    {tokens : List Token} {pair : Node × Node} {parser : Parser}
    (enough : (memberTokens members).length < fuel) (ends : tokens.head? ≠ some .blockEntry)
    (last : blockPairs (read fuel) (fuel - members.length) ⟨tokens, anchors, handles⟩ =
      some ([pair], parser)) :
    read (fuel + 1) place ⟨.blockMappingStart :: (memberTokens members ++ tokens), anchors,
        handles⟩ = some (.mapping none none (toPairs members ++ [pair]), parser) := by
  have count := length_le_memberTokens members
  exact read_blockMapping block (blockPairs_memberTokens members enough (by omega) ends last)

/-- The last member of the last section, with another value. -/
theorem blockPairs_other (other : IsOther s value) (nonempty : "" ≠ s) (enough : 0 < fuel)
    (more : 1 < count) : ∃ style text, text ≠ s ∧
      blockPairs (read fuel) count
          ⟨.key :: .scalar .plain key :: .value :: (value ++ .blockEnd :: rest), anchors, handles⟩ =
        some ([(plainNode key, .scalar none none style text)], ⟨rest, anchors, handles⟩) := by
  rcases other with rfl | ⟨style, text, rfl, other⟩
  · exact ⟨.plain, "", nonempty, blockPairs_omitted key enough more⟩
  · obtain ⟨fuel, rfl⟩ : ∃ m, fuel = m + 1 := ⟨fuel - 1, by omega⟩
    exact ⟨style, text, other, blockPairs_last key rfl (read_scalar style text) more⟩

theorem read_other (other : IsOther s value) (nonempty : "" ≠ s)
    (enough : (memberTokens members).length + (memberTokens inner).length + 4 < fuel) :
    ∃ style text, text ≠ s ∧ read fuel ⟨true, false⟩
        ⟨tokensToLast members name inner key ++ (value ++ [.blockEnd, .blockEnd]), anchors,
          handles⟩ =
      some (.mapping none none (toPairs members ++ [(plainNode name, .mapping none none
        (toPairs inner ++ [(plainNode key, .scalar none none style text)]))]),
          ⟨[], anchors, handles⟩) := by
  obtain ⟨fuel, rfl⟩ : ∃ m, fuel = m + 2 := ⟨fuel - 2, by omega⟩
  have innerCount := length_le_memberTokens inner
  have count := length_le_memberTokens members
  obtain ⟨style, text, differs, last⟩ : ∃ style text, text ≠ s ∧
      blockPairs (read fuel) (fuel - inner.length) ⟨.key :: .scalar .plain key :: .value ::
          (value ++ [.blockEnd, .blockEnd]), anchors, handles⟩ =
        some ([(plainNode key, .scalar none none style text)],
          ⟨[.blockEnd], anchors, handles⟩) :=
    blockPairs_other other nonempty (by omega) (by omega)
  have block : (Place.mk true true).block = true := rfl
  have pair := blockPairs_last name rfl (read_blockMapping_concat block (by omega) (by simp) last)
    (by omega : 1 < fuel + 1 - members.length)
  refine ⟨style, text, differs, ?_⟩
  rw [tokensToLast_append]
  exact read_blockMapping_concat rfl (by omega) (by simp) pair

theorem ofText?_clipped (simple : MembersSimple members) (word : IsWord name)
    (innerSimple : MembersSimple inner) (lastWord : IsWord key) (lost : ¬KeepsEnd s)
    {document : String} (h : document.toList = upToLast members name inner key ++ clippedValue s) :
    Node.ofText? document = none ∨ ∃ style text, text ≠ s ∧ Node.ofText? document =
      some (.mapping none none (toPairs members ++ [(plainNode name, .mapping none none
        (toPairs inner ++ [(plainNode key, .scalar none none style text)]))])) := by
  have nonempty : "" ≠ s := by
    rintro rfl
    exact lost (by decide)
  rcases Lexer.ofText?_clipped simple word innerSimple lastWord lost h with
    none | ⟨value, other, tokens⟩
  · rw [Node.ofText?, none]
    exact .inl rfl
  · have enough : (memberTokens members).length + (memberTokens inner).length + 4 <
        (tokensToLast members name inner key ++
          (value ++ [Token.blockEnd, Token.blockEnd])).length + 1 := by
      rw [tokensToLast_append]
      simp only [List.length_cons, List.length_append]
      omega
    obtain ⟨style, text, differs, read⟩ := read_other other nonempty enough
    exact .inr ⟨style, text, differs, Node.ofText?_of_read tokens rfl read⟩

end Node

end ServiceContract.Yaml
