import ServiceContract.Proofs.Yaml.Style
import ServiceContract.Yaml.Lexer

/-!
# What the lexer makes of a printed token

Between two tokens of a printed tree the lexer is in a block: outside all flows, with no key in
view. `Ready` says what it has read when it arrives at a text; the blocks that end before the text
are closed on the way. Each kind of token leads from one such arrival to the next.
-/

namespace ServiceContract.Yaml

variable {c : Char} {cs text : List Char} {tokens : List Token} {indent : Int} {outer : List Int}
  {allowed : Bool} {column n k fuel : Nat} {keyStart : Option KeyStart}

/-- A text that starts with a token. -/
def Starts (text : List Char) : Prop :=
  ∀ c ∈ text.head?, IsSolid c ∧ c ≠ '#' ∧ c ≠ '\uFEFF'

theorem Starts.endsGap (starts : Starts text) : EndsGap text := fun c hc => (starts c hc).1

namespace Lexer

variable {lexer later : Lexer}

/-- The lexer at the next token, behind the blocks that end before it. -/
def arrive? (lexer : Lexer) : Option Lexer :=
  ((lexer.toNextToken (lexer.cursor.rest.length + 1)).refreshKeys?).map fun lexer =>
    lexer.unroll lexer.cursor.column

theorem run?_succ (lexer : Lexer) (fuel : Nat) :
    run? (fuel + 1) lexer = lexer.arrive?.bind fun lexer =>
      match lexer.cursor.next? with
      | none => (lexer.unroll (-1)).dropKey?
      | some c => (lexer.token? c).bind (run? fuel) := by
  rw [run?, arrive?]
  cases (lexer.toNextToken (lexer.cursor.rest.length + 1)).refreshKeys? <;> rfl

/-- The lexer outside all flows, with no key in view. -/
def between (cursor : Cursor) (tokens : List Token) (indent : Int) (outer : List Int)
    (allowed : Bool) : Lexer :=
  ⟨cursor, tokens, indent, outer, allowed, none, []⟩

/-- The run goes on the same way from another lexer. -/
def Leads (lexer later : Lexer) : Prop :=
  ∀ fuel, lexer.cursor.rest.length < fuel →
    ∃ fuel', later.cursor.rest.length < fuel' ∧ run? fuel lexer = run? fuel' later

theorem Leads.refl (lexer : Lexer) : Leads lexer lexer := fun fuel enough => ⟨fuel, enough, rfl⟩

theorem Leads.trans {middle : Lexer} (first : Leads lexer middle) (second : Leads middle later) :
    Leads lexer later := by
  intro fuel enough
  obtain ⟨fuel₁, enough₁, same₁⟩ := first fuel enough
  obtain ⟨fuel₂, enough₂, same₂⟩ := second fuel₁ enough₁
  exact ⟨fuel₂, enough₂, same₁.trans same₂⟩

/-- The lexer arrives at a text, at a column, with these tokens and blocks. -/
structure Ready (lexer : Lexer) (text : List Char) (column : Nat) (tokens : List Token)
    (indent : Int) (outer : List Int) (allowed : Bool) : Prop where
  arrives : ∃ cursor, lexer.arrive? =
      some (closeBlocks column outer (between cursor tokens indent outer allowed)) ∧
    cursor.rest = text ∧ cursor.column = column
  length : text.length ≤ lexer.cursor.rest.length

/-! ## Blocks -/

theorem closeBlocks_of_le (outer : List Int) (h : lexer.indent ≤ column) :
    closeBlocks column outer lexer = lexer := by
  cases outer with
  | nil => rfl
  | cons above outer => rw [closeBlocks, if_neg (by omega)]

/-- A block is closed before a text at a smaller column. -/
theorem Ready.close {above : Int}
    (ready : Ready lexer text column tokens indent (above :: outer) allowed)
    (h : column < indent) : Ready lexer text column (.blockEnd :: tokens) above outer allowed := by
  obtain ⟨⟨cursor, harrive, here⟩, length⟩ := ready
  refine ⟨⟨cursor, ?_, here⟩, length⟩
  rw [harrive, closeBlocks, if_pos (by exact h)]
  rfl

theorem leads_of_token {here : Lexer} (harrive : lexer.arrive? = some here)
    (hrest : here.cursor.rest = c :: text) (length : text.length < lexer.cursor.rest.length)
    (htoken : here.token? c = some later) (shorter : later.cursor.rest.length ≤ text.length) :
    Leads lexer later := by
  intro fuel enough
  obtain ⟨fuel, rfl⟩ : ∃ m, fuel = m + 1 := ⟨fuel - 1, by omega⟩
  refine ⟨fuel, by omega, ?_⟩
  rw [run?_succ, harrive, Option.bind_some, Cursor.next?_eq hrest]
  simp only [htoken, Option.bind_some]

/-- The token at a text is read. -/
theorem Ready.leads (ready : Ready lexer (c :: text) column tokens indent outer allowed)
    (inside : indent ≤ column) : ∃ cursor : Cursor, cursor.rest = c :: text ∧
      cursor.column = column ∧
      ∀ later, (between cursor tokens indent outer allowed).token? c = some later →
        later.cursor.rest.length ≤ text.length → Leads lexer later := by
  obtain ⟨⟨cursor, harrive, hrest, hcolumn⟩, length⟩ := ready
  rw [closeBlocks_of_le outer (by exact inside)] at harrive
  exact ⟨cursor, hrest, hcolumn, fun later => leads_of_token harrive hrest length⟩

/-! ## Between tokens -/

/-- Spaces before a token are passed over. -/
theorem toNextToken_spaces (h : lexer.cursor.rest = spaces n ++ text) (starts : Starts text) :
    lexer.toNextToken (fuel + 1) = { lexer with cursor := lexer.cursor.ahead n text } := by
  have noMark : lexer.cursor.nextIs '\uFEFF' = false := by
    refine Cursor.nextIs_eq_false fun c hc => ?_
    rw [h] at hc
    cases n with
    | zero => exact (starts c hc).2.2
    | succ n =>
      obtain rfl : ' ' = c := Option.some.inj hc
      decide
  have skipped (tabs : Bool) : (lexer.cursor.skipWhile fun c => c = ' ' || (tabs && c = '\t')) =
      lexer.cursor.ahead n text := by
    have run := Cursor.skipWhile_eq (p := fun c => c = ' ' || (tabs && c = '\t')) h
      (by intro c hc; rw [List.eq_of_mem_replicate hc]; simp)
      (by intro c hc; simp [(starts c hc).1.ne_space, (starts c hc).1.ne_tab])
    rw [run, length_spaces]
  have noComment : (lexer.cursor.ahead n text).nextIs '#' = false :=
    Cursor.nextIs_eq_false fun c hc => (starts c hc).2.1
  have noBreak : (lexer.cursor.ahead n text).atBreak = false :=
    Cursor.atBreak_eq_false fun c hc => (starts c hc).1.isBreak_eq
  rw [toNextToken]
  simp only [noMark, Bool.and_false, Bool.false_eq_true, ↓reduceIte, skipped, Cursor.skipComment,
    noComment, noBreak]

theorem toNextToken_here (starts : Starts lexer.cursor.rest) :
    lexer.toNextToken (fuel + 1) = lexer :=
  toNextToken_spaces (n := 0) rfl starts

/-- A line end outside flows allows a key. -/
theorem toNextToken_line (h : lexer.cursor.rest = '\n' :: text) (outside : lexer.outerKeys = []) :
    lexer.toNextToken (fuel + 1) = toNextToken fuel { lexer with
      cursor := ⟨text, lexer.cursor.index + 1, lexer.cursor.line + 1, 0⟩, keyAllowed := true } := by
  have noMark : lexer.cursor.nextIs '\uFEFF' = false :=
    Cursor.nextIs_eq_false (by rw [h]; simp)
  have skipped (tabs : Bool) : (lexer.cursor.skipWhile fun c => c = ' ' || (tabs && c = '\t')) =
      lexer.cursor := Cursor.skipWhile_here (by simp [h])
  have noComment : lexer.cursor.nextIs '#' = false := Cursor.nextIs_eq_false (by rw [h]; simp)
  have atBreak : lexer.cursor.atBreak = true := by
    simp [Cursor.atBreak, Cursor.next?_eq h, isBreak]
  have ended := Cursor.lineEnd_eq h rfl rfl
  rw [toNextToken]
  simp only [noMark, Bool.and_false, Bool.false_eq_true, ↓reduceIte, skipped, Cursor.skipComment,
    noComment, atBreak, ended, inFlow, outside, List.isEmpty_nil, Bool.not_true, Bool.not_false,
    Bool.or_true]

/-! ## Arrivals -/

/-- A possible key that is no key once its line has ended. -/
def Passes (keyStart : Option KeyStart) (line : Nat) : Prop :=
  ∀ key ∈ keyStart, key.line < line ∧ key.required = false

theorem passes_none (line : Nat) : Passes none line := nofun

theorem refreshKeys?_eq (outside : lexer.outerKeys = [])
    (passes : Passes lexer.keyStart lexer.cursor.line) :
    lexer.refreshKeys? = some { lexer with keyStart := none } := by
  obtain ⟨cursor, reversed, indent, outer, keyAllowed, keyStart, outerKeys⟩ := lexer
  dsimp only at outside passes
  subst outside
  cases keyStart with
  | none => rfl
  | some key =>
    obtain ⟨stale, free⟩ := passes key rfl
    simp [refreshKeys?, refresh?, stale, free]

theorem unroll_eq (outside : lexer.outerKeys = []) (column : Int) :
    lexer.unroll column = closeBlocks column lexer.outer lexer := by
  simp [unroll, inFlow, outside]

/-- The lexer has passed the line end before a token. -/
theorem ready_of_spaces {cursor : Cursor} {keyStart : Option KeyStart}
    (h : cursor.rest = spaces n ++ text) (starts : Starts text)
    (passes : Passes keyStart cursor.line) :
    Ready ⟨cursor, tokens, indent, outer, allowed, keyStart, []⟩ text (cursor.column + n) tokens
      indent outer allowed := by
  refine ⟨⟨cursor.ahead n text, ?_, rfl, rfl⟩, by simp [h]⟩
  rw [arrive?, toNextToken_spaces h starts, refreshKeys?_eq rfl (by exact passes), Option.map_some,
    unroll_eq rfl]
  rfl

/-- The lexer stands before the line end in front of a token. -/
theorem ready_of_line {cursor : Cursor} {keyStart : Option KeyStart}
    (h : cursor.rest = '\n' :: (spaces n ++ text)) (starts : Starts text)
    (passes : Passes keyStart (cursor.line + 1)) :
    Ready ⟨cursor, tokens, indent, outer, allowed, keyStart, []⟩ text n tokens indent outer
      true := by
  refine ⟨⟨⟨text, cursor.index + 1 + n, cursor.line + 1, n⟩, ?_, rfl, rfl⟩, by simp [h]; omega⟩
  have next : toNextToken ((spaces n ++ text).length + 1)
      ⟨⟨spaces n ++ text, cursor.index + 1, cursor.line + 1, 0⟩, tokens, indent, outer, true,
        keyStart, []⟩ = _ := toNextToken_spaces rfl starts
  rw [arrive?, toNextToken_line h rfl, h, List.length_cons, next,
    refreshKeys?_eq rfl (by exact passes), Option.map_some, unroll_eq rfl]
  simp [between, Cursor.ahead]

/-! ## Tokens -/

theorem atMarker_eq_false {cursor : Cursor} {d : Char} (h : cursor.rest = c :: text)
    (other : c ≠ d) : cursor.atMarker d = false := by
  simp [Cursor.atMarker, h, other]

variable {cursor : Cursor}

/-- The hyphen before an entry. -/
theorem token?_entry (h : cursor.rest = '-' :: ' ' :: text) :
    (between cursor tokens indent outer allowed).token? '-' =
      entry? (between cursor tokens indent outer allowed) := by
  have notStart : cursor.atMarker '-' = false := by simp [Cursor.atMarker, h]
  have notEnd : cursor.atMarker '.' = false := atMarker_eq_false h (by decide)
  have alone : cursor.endsAt 1 = true := by rw [Cursor.endsAt_one h]; rfl
  simp [token?, between, notStart, notEnd, alone]

/-- How a block is open at a column for a token that may have to open one. -/
inductive Opens (start : Token) (column : Nat) (tokens : List Token) :
    (indent : Int) → (outer : List Int) → List Token → List Int → Prop
  | deeper {indent : Int} {outer : List Int} (h : indent < column) :
    Opens start column tokens indent outer (start :: tokens) (indent :: outer)
  | same {outer : List Int} : Opens start column tokens column outer tokens outer

theorem Opens.le {start : Token} {tokens' : List Token} {outer' : List Int}
    (opens : Opens start column tokens indent outer tokens' outer') : indent ≤ column := by
  cases opens with
  | deeper h => omega
  | same => exact Int.le_refl _

/-- A block opens at a greater column, its token in front of those that started at that column. -/
theorem roll_eq {start : Token} {tokens' : List Token} {outer' : List Int} (cursor : Cursor)
    (allowed : Bool) (keyStart : Option KeyStart) (last : List Token)
    (opens : Opens start column tokens indent outer tokens' outer') :
    (⟨cursor, last ++ tokens, indent, outer, allowed, keyStart, []⟩ : Lexer).roll column
        tokens.length start =
      ⟨cursor, last ++ tokens', column, outer', allowed, keyStart, []⟩ := by
  cases opens with
  | deeper h =>
    simp [roll, inFlow, h, insert]
  | same =>
    simp [roll, inFlow]

/-- An entry starts with its hyphen. -/
theorem Ready.entry {tokens' : List Token} {outer' : List Int}
    (opens : Opens .blockSequenceStart column tokens indent outer tokens' outer')
    (ready : Ready lexer ('-' :: ' ' :: text) column tokens indent outer true)
    (starts : Starts text) : ∃ later, Leads lexer later ∧
      Ready later text (column + 2) (.blockEntry :: tokens') column outer' true := by
  obtain ⟨cursor, hrest, hcolumn, leads⟩ := ready.leads opens.le
  let behind := cursor.ahead 1 (' ' :: text)
  refine ⟨⟨behind, .blockEntry :: tokens', column, outer', true, none, []⟩, leads _ ?_ ?_, ?_⟩
  · have rolled := roll_eq cursor true none [] opens
    have opened : (between cursor tokens indent outer true).openBlock? .blockSequenceStart =
        some (between cursor tokens' column outer' true) := by
      simpa [openBlock?, between, inFlow, hcolumn] using rolled
    rw [token?_entry hrest, entry?, opened]
    simp [between, dropKey?, simple, push, Cursor.skipMany, Cursor.skip_eq hrest, behind]
  · simp [behind]
  · have arrived : Ready ⟨behind, .blockEntry :: tokens', column, outer', true, none, []⟩ text
        (behind.column + 1) (.blockEntry :: tokens') column outer' true :=
      ready_of_spaces rfl starts (passes_none _)
    rw [← hcolumn] at arrived ⊢
    exact arrived

/-! ## Scalars -/

/-- The key that may start at a token. -/
def keyHere (cursor : Cursor) (tokens : List Token) (indent : Int) (allowed : Bool) :
    Option KeyStart :=
  if allowed then
    some ⟨tokens.length, cursor.index, cursor.line, cursor.column, indent == cursor.column⟩
  else none

theorem saveKey?_between (cursor : Cursor) (tokens : List Token) (indent : Int) (outer : List Int)
    (allowed : Bool) :
    (between cursor tokens indent outer allowed).saveKey? =
      some ⟨cursor, tokens, indent, outer, allowed, keyHere cursor tokens indent allowed, []⟩ := by
  cases allowed <;> rfl

/-- A token inside its block is no key once its line has ended. -/
theorem passes_keyHere {line : Nat} (inside : indent < cursor.column) (h : cursor.line < line) :
    Passes (keyHere cursor tokens indent allowed) line := by
  intro key hkey
  unfold keyHere at hkey
  split at hkey
  · obtain rfl := Option.some.inj hkey
    refine ⟨h, ?_⟩
    rw [beq_eq_false_iff_ne]
    omega
  · cases hkey

section Plain

variable {after : List Char}

theorem ne_indicator_of_leading {next : Option Char} (leading : isLeadingIndicator c next = false) :
    c ∉ "#,[]\x7b\x7d&*!|>'\"%@`".toList := by
  intro hc
  have found : "#,[]\x7b\x7d&*!|>'\"%@`".toList.contains c = true := by simpa using hc
  rw [isLeadingIndicator, if_pos found] at leading
  cases leading

/-- A mark that starts an unquoted text has more of the text behind it. -/
theorem endsAt_of_leading (leading : isLeadingIndicator c text.head? = false)
    (h : cursor.rest = c :: text) (hc : c = '?' ∨ c = ':' ∨ c = '-') :
    cursor.endsAt 1 = false := by
  rw [Cursor.endsAt_one h]
  rcases hc with rfl | rfl | rfl <;> exact leading

theorem notBlank_of_endsAt (h : cursor.endsAt 1 = false) :
    (cursor.ahead? 1).any Cursor.isBlank = false := by
  unfold Cursor.endsAt at h
  cases hnext : cursor.ahead? 1 with
  | none => rfl
  | some d =>
    rw [hnext] at h
    have solid : IsSolid d := h
    exact solid.isBlank_eq

theorem startsPlain_of_leading (solid : IsSolid c)
    (leading : isLeadingIndicator c text.head? = false) (h : cursor.rest = c :: text) :
    (between cursor tokens indent outer allowed).startsPlain c = true := by
  have solid : isBlankOrEnd c = false := solid
  have others := ne_indicator_of_leading leading
  simp only [String.reduceToList, List.mem_cons, List.not_mem_nil, or_false, not_or] at others
  unfold startsPlain
  by_cases hyphen : c = '-'
  · subst hyphen
    have notBlank := notBlank_of_endsAt (endsAt_of_leading leading h (.inr (.inr rfl)))
    simp [between, solid, notBlank]
  by_cases mark : c = '?' ∨ c = ':'
  · have follows : cursor.endsAt 1 = false :=
      endsAt_of_leading leading h (mark.imp_right .inl)
    simp [between, solid, hyphen, mark, inFlow, follows]
  · simp only [not_or] at mark
    simp [solid, hyphen, mark, others]

/-- A character that starts nothing else starts an unquoted text. -/
theorem token?_of_leading (solid : IsSolid c) (leading : isLeadingIndicator c text.head? = false)
    (h : cursor.rest = c :: text) (notMarker : cursor.atDocumentMarker = false) :
    (between cursor tokens indent outer allowed).token? c =
      (between cursor tokens indent outer allowed).plain? := by
  rw [Cursor.atDocumentMarker, Bool.or_eq_false_iff] at notMarker
  have others := ne_indicator_of_leading leading
  simp only [String.reduceToList, List.mem_cons, List.not_mem_nil, or_false, not_or] at others
  have starts : (between cursor tokens indent outer allowed).startsPlain c = true :=
    startsPlain_of_leading solid leading h
  have marker (d : Char) (hd : d = '?' ∨ d = ':' ∨ d = '-') :
      (c = d && cursor.endsAt 1) = false := by
    by_cases same : c = d
    · rw [endsAt_of_leading leading h (same ▸ hd), Bool.and_false]
    · simp [same]
  unfold token?
  simp only [between] at starts ⊢
  simp [others, notMarker, inFlow, starts, marker '?' (by simp), marker ':' (by simp),
    marker '-' (by simp)]

theorem isLeadingIndicator_append (leading : isLeadingIndicator c cs.head? = false)
    (after : List Char) : isLeadingIndicator c (cs ++ after).head? = false := by
  cases cs with
  | cons d cs => exact leading
  | nil =>
    have other := ne_indicator_of_leading leading
    unfold isLeadingIndicator at leading ⊢
    rw [if_neg (by simpa using other)] at leading ⊢
    split at leading
    · cases leading
    · next none => rw [if_neg none]

theorem token?_plain (plain : IsPlain (c :: cs)) (h : cursor.rest = c :: cs ++ after)
    (ends : EndsPlain after) :
    (between cursor tokens indent outer allowed).token? c =
      (between cursor tokens indent outer allowed).plain? := by
  obtain ⟨d, rest, hcs, space, leading⟩ := plain.first
  obtain ⟨rfl, rfl⟩ := List.cons.inj hcs
  exact token?_of_leading (plain.isSolid c List.mem_cons_self space)
    (isLeadingIndicator_append leading after) h (Cursor.atDocumentMarker_of_plain plain h ends)

/-- A plain value ends with its line. -/
theorem Ready.plain (plain : IsPlain cs)
    (ready : Ready lexer (cs ++ '\n' :: (spaces k ++ text)) column tokens indent outer allowed)
    (inside : indent < column) (outside : k ≤ indent) (starts : Starts text) :
    ∃ later, Leads lexer later ∧
      Ready later text k (.scalar .plain (String.ofList cs) :: tokens) indent outer true := by
  obtain ⟨c, rest, rfl, -⟩ := plain.first
  obtain ⟨cursor, hrest, rfl, leads⟩ := ready.leads (by omega)
  have ends : EndsPlain ('\n' :: (spaces k ++ text)) := .inl rfl
  have width : k < (indent + 1).toNat := by omega
  obtain ⟨stop, finish, below⟩ := Cursor.plainEnd?_line
    (Cursor.rest_ahead cursor (c :: rest).length ('\n' :: (spaces k ++ text))) starts.endsGap width
  have read := Cursor.plainScalar?_eq plain hrest (by omega) ends finish
  have passes : Passes (keyHere cursor tokens indent allowed) stop.line :=
    passes_keyHere inside below.line
  refine ⟨⟨stop, .scalar .plain (String.ofList (c :: rest)) :: tokens, indent, outer, true,
    keyHere cursor tokens indent allowed, []⟩, leads _ ?_ ?_, ?_⟩
  · rw [token?_plain plain hrest ends, plain?, saveKey?_between]
    simp [inFlow, read, push]
  · have shorter : text.length ≤ (rest ++ '\n' :: (spaces k ++ text)).length := by
      simp
      omega
    rw [below.rest]
    exact shorter
  · rw [← below.column]
    exact ready_of_spaces (n := 0) below.rest starts passes

end Plain

/-- The quote in front of a text. -/
def quoteMark : ScalarStyle → Char
  | .singleQuoted => '\''
  | _ => '"'

theorem token?_quoted {style : ScalarStyle} (hstyle : style = .singleQuoted ∨ style = .doubleQuoted)
    (h : cursor.rest = quoteMark style :: text) :
    (between cursor tokens indent outer allowed).token? (quoteMark style) =
      (between cursor tokens indent outer allowed).quoted? style := by
  rcases hstyle with rfl | rfl
  all_goals
    have notStart : cursor.atMarker '-' = false := atMarker_eq_false h (by decide)
    have notEnd : cursor.atMarker '.' = false := atMarker_eq_false h (by decide)
    simp [token?, between, notStart, notEnd, quoteMark, inFlow]

/-- A quoted value ends with its line. -/
theorem Ready.quoted {style : ScalarStyle} {s : String} {body : List Char}
    (hstyle : style = .singleQuoted ∨ style = .doubleQuoted)
    (hread : ∀ cursor : Cursor, 0 < cursor.column →
      cursor.rest = body ++ '\n' :: (spaces k ++ text) →
      ∃ stop, cursor.quotedScalar? (style == .singleQuoted) = some (s, stop) ∧
        stop.rest = '\n' :: (spaces k ++ text) ∧ cursor.line ≤ stop.line)
    (ready : Ready lexer (quoteMark style :: body ++ '\n' :: (spaces k ++ text)) column tokens
      indent outer allowed)
    (inside : indent < column) (starts : Starts text) :
    ∃ later, Leads lexer later ∧
      Ready later text k (.scalar style s :: tokens) indent outer true := by
  obtain ⟨cursor, hrest, rfl, leads⟩ := ready.leads (by omega)
  obtain ⟨stop, read, stopRest, line⟩ :=
    hread (cursor.ahead 1 (body ++ '\n' :: (spaces k ++ text))) (by simp) rfl
  have passes : Passes (keyHere cursor tokens indent allowed) (stop.line + 1) := by
    refine passes_keyHere inside ?_
    rw [Cursor.line_ahead] at line
    omega
  refine ⟨⟨stop, .scalar style s :: tokens, indent, outer, false,
    keyHere cursor tokens indent allowed, []⟩, leads _ ?_ ?_, ?_⟩
  · rw [token?_quoted hstyle hrest, quoted?, saveKey?_between]
    simp [Cursor.skip_eq hrest, read, push]
  · have shorter : stop.rest.length ≤ (body ++ '\n' :: (spaces k ++ text)).length := by
      rw [stopRest, List.length_append]
      omega
    exact shorter
  · exact ready_of_line stopRest starts passes

/-- A literal block ends before the line of the next token. -/
theorem Ready.block {P : String → Prop} {body : List Char}
    (hread : ∀ cursor : Cursor, cursor.rest = body ++ (spaces k ++ text) →
      ∃ s stop, P s ∧ cursor.blockScalar? false indent = some (s, stop) ∧
        Cursor.Below cursor text k stop)
    (ready : Ready lexer ('|' :: (body ++ (spaces k ++ text))) column tokens indent outer allowed)
    (inside : indent ≤ column) (starts : Starts text) :
    ∃ s later, P s ∧ Leads lexer later ∧
      Ready later text k (.scalar .literal s :: tokens) indent outer true := by
  obtain ⟨cursor, hrest, rfl, leads⟩ := ready.leads inside
  have behind : cursor.skip.rest = body ++ (spaces k ++ text) := by rw [Cursor.skip_eq hrest]; rfl
  obtain ⟨s, stop, hs, read, below⟩ := hread cursor.skip behind
  have token : (between cursor tokens indent outer allowed).token? '|' =
      (between cursor tokens indent outer allowed).block? .literal := by
    have notStart : cursor.atMarker '-' = false := atMarker_eq_false hrest (by decide)
    have notEnd : cursor.atMarker '.' = false := atMarker_eq_false hrest (by decide)
    simp [token?, between, notStart, notEnd, inFlow]
  refine ⟨s, ⟨stop, .scalar .literal s :: tokens, indent, outer, true, none, []⟩, hs,
    leads _ ?_ ?_, ?_⟩
  · have notFolded : (ScalarStyle.literal == .folded) = false := rfl
    rw [token, block?]
    simp [between, dropKey?, notFolded, read, push]
  · rw [below.rest]
    simp
    omega
  · rw [← below.column]
    exact ready_of_spaces (n := 0) below.rest starts (passes_none _)

/-- A text in a literal block is the value of the block. -/
theorem Ready.literal {s : String} (literal : IsLiteral s.toList)
    (hn : n = (max indent 0).toNat + 2)
    (ready : Ready lexer (endLine (literalBlock n s.toList) ++ (spaces k ++ text)) column tokens
      indent outer allowed)
    (inside : indent < column) (outside : k ≤ indent) (starts : Starts text) :
    ∃ later, Leads lexer later ∧
      Ready later text k (.scalar .literal s :: tokens) indent outer true := by
  have narrow : k ≤ (max indent 0).toNat := by omega
  rw [Cursor.endLine_literalBlock n literal.nonempty, List.cons_append] at ready
  obtain ⟨_, later, rfl, leads, arrived⟩ := ready.block (P := (· = s)) (fun cursor h => by
    obtain ⟨stop, read, below⟩ :=
      Cursor.blockScalar?_literal literal hn narrow starts.endsGap (by simpa using h)
    exact ⟨s, stop, rfl, read, below⟩) (by omega) starts
  exact ⟨later, leads, arrived⟩

/-- The brackets or the braces of an empty flow. -/
inductive IsFlow : (first last : Char) → (opening closing : Token) → Prop
  | sequence : IsFlow '[' ']' .flowSequenceStart .flowSequenceEnd
  | mapping : IsFlow '\x7b' '\x7d' .flowMappingStart .flowMappingEnd

/-- A key in view stays in view on its line. -/
theorem refresh?_keyHere {length : Nat} (short : length ≤ keyReach) :
    refresh? (cursor.ahead length text) (keyHere cursor tokens indent allowed) =
      some (keyHere cursor tokens indent allowed) := by
  cases allowed with
  | false => rfl
  | true =>
    have near : ¬cursor.index + keyReach < cursor.index + length := by omega
    simp [keyHere, refresh?, near]

theorem refreshKeys?_flow {key : Option KeyStart} (kept : refresh? cursor key = some key) :
    (⟨cursor, tokens, indent, outer, allowed, none, [key]⟩ : Lexer).refreshKeys? =
      some ⟨cursor, tokens, indent, outer, allowed, none, [key]⟩ := by
  have absent : refresh? cursor none = some none := rfl
  simp [refreshKeys?, absent, kept]

theorem openFlow?_between (token : Token) (h : cursor.rest = c :: text) :
    (between cursor tokens indent outer allowed).openFlow? token =
      some ⟨cursor.ahead 1 text, token :: tokens, indent, outer, true, none,
        [keyHere cursor tokens indent allowed]⟩ := by
  rw [openFlow?, saveKey?_between]
  simp [simple, push, Cursor.skipMany, Cursor.skip_eq h]

theorem IsFlow.opens {first last : Char} {opening closing : Token}
    (flow : IsFlow first last opening closing) (h : cursor.rest = first :: text) :
    (between cursor tokens indent outer allowed).token? first =
      some ⟨cursor.ahead 1 text, opening :: tokens, indent, outer, true, none,
        [keyHere cursor tokens indent allowed]⟩ := by
  rw [← openFlow?_between opening h]
  cases flow
  all_goals
    have notStart : cursor.atMarker '-' = false := atMarker_eq_false h (by decide)
    have notEnd : cursor.atMarker '.' = false := atMarker_eq_false h (by decide)
    simp [token?, between, notStart, notEnd]

theorem IsFlow.closes {first last : Char} {opening closing : Token} {key : Option KeyStart}
    (flow : IsFlow first last opening closing) (h : cursor.rest = last :: text) :
    (⟨cursor, tokens, indent, outer, allowed, none, [key]⟩ : Lexer).token? last =
      some ⟨cursor.ahead 1 text, closing :: tokens, indent, outer, false, key, []⟩ := by
  cases flow
  all_goals
    have notStart : cursor.atMarker '-' = false := atMarker_eq_false h (by decide)
    have notEnd : cursor.atMarker '.' = false := atMarker_eq_false h (by decide)
    simp [token?, notStart, notEnd, closeFlow?, dropKey?, simple, push, Cursor.skipMany,
      Cursor.skip_eq h]

/-- An empty flow ends with its line. -/
theorem Ready.flow {first last : Char} {opening closing : Token}
    (flow : IsFlow first last opening closing)
    (ready : Ready lexer (first :: last :: '\n' :: (spaces k ++ text)) column tokens indent outer
      allowed)
    (inside : indent < column) (starts : Starts text) :
    ∃ later, Leads lexer later ∧
      Ready later text k (closing :: opening :: tokens) indent outer true := by
  obtain ⟨cursor, hrest, rfl, leads⟩ := ready.leads (by omega)
  let behind := cursor.ahead 1 (last :: '\n' :: (spaces k ++ text))
  let stop := cursor.ahead 2 ('\n' :: (spaces k ++ text))
  let key := keyHere cursor tokens indent allowed
  have opened : Leads lexer ⟨behind, opening :: tokens, indent, outer, true, none, [key]⟩ :=
    leads _ (flow.opens hrest) (Nat.le_refl _)
  have arrived : arrive? ⟨behind, opening :: tokens, indent, outer, true, none, [key]⟩ =
      some ⟨behind, opening :: tokens, indent, outer, true, none, [key]⟩ := by
    have starts : Starts (last :: '\n' :: (spaces k ++ text)) := by
      intro c hc
      obtain rfl : last = c := Option.some.inj hc
      cases flow <;> exact ⟨rfl, by decide, by decide⟩
    have kept : refresh? behind key = some key := refresh?_keyHere (by decide)
    rw [arrive?, toNextToken_here (by exact starts), refreshKeys?_flow kept]
    rfl
  have closed : Leads ⟨behind, opening :: tokens, indent, outer, true, none, [key]⟩
      ⟨stop, closing :: opening :: tokens, indent, outer, false, key, []⟩ := by
    refine leads_of_token arrived rfl (by simp [behind]) (flow.closes rfl) ?_
    simp [stop]
  refine ⟨_, opened.trans closed, ?_⟩
  exact ready_of_line rfl starts (passes_keyHere inside (by simp [stop]))

theorem token?_colon (h : cursor.rest = ':' :: text) (ends : endsWord text = true) :
    (⟨cursor, tokens, indent, outer, allowed, keyStart, []⟩ : Lexer).token? ':' =
      value? ⟨cursor, tokens, indent, outer, allowed, keyStart, []⟩ := by
  have notStart : cursor.atMarker '-' = false := atMarker_eq_false h (by decide)
  have notEnd : cursor.atMarker '.' = false := atMarker_eq_false h (by decide)
  have alone : cursor.endsAt 1 = true := by rw [Cursor.endsAt_one h, ends]
  simp [token?, notStart, notEnd, alone]

/-- At the colon the token of the key is put in front of it. -/
theorem value?_eq {start : Token} {tokens' : List Token} {outer' : List Int} {key : KeyStart}
    (opens : Opens .blockMappingStart column tokens indent outer tokens' outer')
    (position : key.position = tokens.length) (hcolumn : key.column = column)
    (h : cursor.rest = ':' :: text) :
    value? ⟨cursor, start :: tokens, indent, outer, allowed, some key, []⟩ =
      some (between (cursor.ahead 1 text) (.value :: start :: .key :: tokens') column outer'
        false) := by
  have inserted : (⟨cursor, start :: tokens, indent, outer, allowed, some key, []⟩ : Lexer).insert
      tokens.length .key =
        ⟨cursor, [start, .key] ++ tokens, indent, outer, allowed, some key, []⟩ := by
    simp [insert]
  have rolled := roll_eq cursor allowed (some key) [start, .key] opens
  rw [value?]
  simp only [position, hcolumn]
  rw [inserted, rolled]
  simp [simple, push, between, Cursor.skipMany, Cursor.skip_eq h]

/-- A key is found at its colon. -/
theorem Ready.key {key : String} {after : List Char} {tokens' : List Token} {outer' : List Int}
    (plain : IsPlain key.toList) (short : key.toList.length ≤ keyReach)
    (opens : Opens .blockMappingStart column tokens indent outer tokens' outer')
    (ready : Ready lexer (key.toList ++ ':' :: after) column tokens indent outer true)
    (ends : endsWord after = true) :
    ∃ stop : Cursor, Leads lexer (between stop (.value :: .scalar .plain key :: .key :: tokens')
        column outer' false) ∧
      stop.rest = after ∧ stop.column = column + key.toList.length + 1 := by
  obtain ⟨c, rest, hkey, -⟩ := plain.first
  rw [hkey] at ready
  obtain ⟨cursor, hrest, rfl, leads⟩ := ready.leads opens.le
  have whole : cursor.rest = key.toList ++ ':' :: after := by
    rw [hkey]
    exact hrest
  have colon : EndsPlain (':' :: after) := .inr ⟨after, rfl, ends⟩
  let behind := cursor.ahead key.toList.length (':' :: after)
  let named : Lexer := ⟨behind, .scalar .plain key :: tokens, indent, outer, false,
    keyHere cursor tokens indent true, []⟩
  have text : Leads lexer named := by
    have read := Cursor.plainScalar?_eq plain whole opens.le colon
      (Cursor.plainEnd?_colon (Cursor.rest_ahead ..))
    refine leads _ ?_ ?_
    · rw [token?_plain (hkey ▸ plain) hrest colon, plain?, saveKey?_between]
      simp [inFlow, read, push, named, behind]
    · simp [named, behind]
  have arrived : named.arrive? = some named := by
    have starts : Starts (':' :: after) := by
      intro d hd
      obtain rfl : ':' = d := Option.some.inj hd
      exact ⟨rfl, by decide, by decide⟩
    have kept : refresh? behind (keyHere cursor tokens indent true) =
        some (keyHere cursor tokens indent true) := refresh?_keyHere short
    have refreshed : named.refreshKeys? = some named := by
      simp [refreshKeys?, named, kept]
    have inside : named.indent ≤ behind.column := by
      have := opens.le
      simp only [named, behind, Cursor.column_ahead]
      omega
    rw [arrive?, toNextToken_here (by exact starts), refreshed, Option.map_some, unroll_eq rfl,
      closeBlocks_of_le _ (by exact inside)]
  refine ⟨behind.ahead 1 after, text.trans ?_, rfl, by simp [behind]; omega⟩
  refine leads_of_token arrived rfl (by simp [named, behind]) ?_ (Nat.le_refl _)
  rw [token?_colon rfl ends]
  exact value?_eq opens rfl rfl rfl

end Lexer

end ServiceContract.Yaml
