import ServiceContract.Proofs.Text.Extent
import ServiceContract.Proofs.Yaml.Lexer
import ServiceContract.Proofs.Yaml.Tree

/-!
# The tokens of a tree

A tree without floats whose keys are plain words (`IsSimple`) is lexed as the tokens of its values
(`toTokens`). The proof follows the printer: its statement for a value says where the lexer arrives
behind the text of the value, whatever stands there, as long as the line is not indented deeper than
the block around the value (`Follows`).
-/

namespace ServiceContract.Yaml

variable {text after : List Char} {tokens : List Token} {outer : List Int} {allowed : Bool}
  {column n k base : Nat}

/-! ## Trees -/

/-- A key that is written plainly and on the line of its value. -/
def IsWord (key : String) : Prop := isSimpleKey key = true ∧ Style.of true key = .plain

instance (key : String) : Decidable (IsWord key) := by
  unfold IsWord
  infer_instance

mutual

/-- A tree without floats, all of whose keys are words. -/
def IsSimple : Json → Prop
  | .number (.float _) => False
  | .array items => ItemsSimple items
  | .object members => MembersSimple members
  | _ => True

def ItemsSimple : List Json → Prop
  | [] => True
  | item :: items => IsSimple item ∧ ItemsSimple items

def MembersSimple : List (String × Json) → Prop
  | [] => True
  | (key, value) :: members => IsWord key ∧ IsSimple value ∧ MembersSimple members

end

mutual

/-- The tokens of a value that opens its own block. -/
def toTokens : Json → List Token
  | .null => [.scalar .plain "null"]
  | .bool true => [.scalar .plain "true"]
  | .bool false => [.scalar .plain "false"]
  | .number n => [.scalar .plain (String.ofList (numberChars n))]
  | .string s => [.scalar (Style.of false s).scalarStyle s]
  | .array [] => [.flowSequenceStart, .flowSequenceEnd]
  | .array (item :: items) =>
    .blockSequenceStart :: .blockEntry :: toTokens item ++ itemTokens items ++ [.blockEnd]
  | .object [] => [.flowMappingStart, .flowMappingEnd]
  | .object ((key, value) :: members) =>
    .blockMappingStart :: .key :: .scalar .plain key :: .value :: valueTokens value
      ++ memberTokens members ++ [.blockEnd]

/-- The tokens of the items of a list. -/
def itemTokens : List Json → List Token
  | [] => []
  | item :: items => .blockEntry :: toTokens item ++ itemTokens items

/-- The tokens of the members of an object. -/
def memberTokens : List (String × Json) → List Token
  | [] => []
  | (key, value) :: members =>
    .key :: .scalar .plain key :: .value :: valueTokens value ++ memberTokens members

/-- The tokens of the value of a member. A list there opens no block of its own. -/
def valueTokens : Json → List Token
  | .array (item :: items) => .blockEntry :: toTokens item ++ itemTokens items
  | value => toTokens value

end

/-! ## Keys -/

theorem IsWord.isPlain {key : String} (word : IsWord key) : IsPlain key.toList :=
  isPlain_of_style word.2

theorem IsWord.length {key : String} (word : IsWord key) :
    key.toList.length ≤ Lexer.keyReach := by
  have size := Text.length_le_utf8ByteSize key
  have simple := word.1
  rw [← String.length_toList] at size
  simp only [isSimpleKey, Bool.and_eq_true, decide_eq_true_eq] at simple
  have small := simple.2
  have reach : Lexer.keyReach = 1024 := rfl
  omega

/-! ## What a value starts with -/

theorem IsPlain.starts {cs : List Char} (plain : IsPlain cs) (after : List Char) :
    Starts (cs ++ after) := by
  obtain ⟨c, rest, rfl, space, leading⟩ := plain.first
  intro d hd
  obtain rfl : c = d := by simpa using hd
  refine ⟨plain.isSolid c List.mem_cons_self space, ?_, ?_⟩
  · rintro rfl
    cases leading
  · rintro rfl
    cases (plain.printable '\uFEFF' List.mem_cons_self).1

theorem starts_cons {c : Char} (solid : isBlankOrEnd c = false) (hash : c ≠ '#')
    (mark : c ≠ '\uFEFF') (text : List Char) : Starts (c :: text) := by
  intro d hd
  obtain rfl : c = d := Option.some.inj hd
  exact ⟨solid, hash, mark⟩

theorem endLine_of_inside {cs : List Char} (h : ∀ c ∈ cs.getLast?, isBreak c = false) :
    endLine cs = cs ++ ['\n'] := by
  unfold endLine
  cases hlast : cs.getLast? with
  | none => rfl
  | some c =>
    have inside := h c hlast
    simp [inside]

theorem IsPlain.endLine_eq {cs : List Char} (plain : IsPlain cs) : endLine cs = cs ++ ['\n'] :=
  endLine_of_inside fun c hc => (plain.printable c (List.mem_of_getLast? hc)).2

theorem endLine_singleQuoted (n : Nat) (cs : List Char) :
    endLine (singleQuoted n cs) = '\'' :: ((singleBody n false cs ++ ['\'']) ++ ['\n']) := by
  rw [singleQuoted_eq, ← List.cons_append, endLine_of_inside]
  · simp
  · rw [List.getLast?_concat]
    rintro c ⟨⟩
    rfl

theorem endLine_doubleQuoted (cs : List Char) :
    endLine (doubleQuoted cs) = '"' :: ((cs.flatMap writeDouble ++ ['"']) ++ ['\n']) := by
  rw [doubleQuoted, endLine_of_inside]
  · simp
  · rw [List.getLast?_concat]
    rintro c ⟨⟩
    rfl

theorem starts_string (n : Nat) (s : String) (after : List Char) :
    Starts (endLine (scalar n false s) ++ after) := by
  unfold scalar
  cases hs : Style.of false s with
  | plain =>
    have plain := isPlain_of_style hs
    dsimp only
    rw [plain.endLine_eq, List.append_assoc]
    exact plain.starts _
  | singleQuoted =>
    dsimp only
    rw [endLine_singleQuoted]
    exact starts_cons (by decide) (by decide) (by decide) _
  | doubleQuoted =>
    dsimp only
    rw [endLine_doubleQuoted]
    exact starts_cons (by decide) (by decide) (by decide) _
  | literal =>
    dsimp only
    rw [Cursor.endLine_literalBlock n (isLiteral_of_style hs).nonempty]
    exact starts_cons (by decide) (by decide) (by decide) _

/-! ## Members -/

/-- What stands behind the colon of a key. -/
def valueText (n : Nat) : Json → List Char
  | .array (item :: items) => '\n' :: laterItems n (item :: items)
  | .object (m :: members) => '\n' :: laterMembers (n + 2) (m :: members)
  | value => ' ' :: node (n + 2) value

theorem member_eq {key : String} (word : IsWord key) (value : Json) :
    member n key value = key.toList ++ ':' :: valueText n value := by
  match value with
  | .array (item :: items) =>
    rw [member, if_pos word.1, scalar, word.2, valueText, laterItems]
    simp
  | .object ((k, v) :: members) =>
    rw [member, if_pos word.1, scalar, word.2, valueText, laterMembers]
    simp
  | .null | .bool _ | .number _ | .string _ | .array [] | .object [] =>
    rw [member, if_pos word.1, scalar, word.2, valueText]
    all_goals simp

theorem endsWord_valueText (value : Json) (rest : List Char) :
    endsWord (valueText n value ++ rest) = true := by
  match value with
  | .array (_ :: _) | .object (_ :: _) | .null | .bool _ | .number _ | .string _ | .array []
  | .object [] => rfl

theorem starts_member {key : String} (word : IsWord key) (value : Json) (after : List Char) :
    Starts (member n key value ++ after) := by
  rw [member_eq word, List.append_assoc]
  exact word.isPlain.starts _

/-! ## Lines -/

/-- The text goes on with a token on a line that is indented by at most `base`. -/
def Follows (base : Nat) (text : List Char) : Prop :=
  ∃ k rest, text = spaces k ++ rest ∧ Starts rest ∧ k ≤ base

theorem Follows.mono {base' : Nat} (follows : Follows base text) (h : base ≤ base') :
    Follows base' text := by
  obtain ⟨k, rest, htext, starts, hk⟩ := follows
  exact ⟨k, rest, htext, starts, by omega⟩

theorem spaces_append_inj {m n : Nat} {rest rest' : List Char}
    (h : spaces m ++ rest = spaces n ++ rest') (hrest : ∀ c ∈ rest.head?, c ≠ ' ')
    (hrest' : ∀ c ∈ rest'.head?, c ≠ ' ') : m = n ∧ rest = rest' := by
  have spacesAll (n : Nat) : ∀ c ∈ spaces n, (c = ' ' : Bool) = true := by
    intro c hc
    simpa using List.eq_of_mem_replicate hc
  have run : spaces m = spaces n := by
    rw [← Cursor.takeWhile_append (spacesAll m) (by simpa using hrest), h,
      Cursor.takeWhile_append (spacesAll n) (by simpa using hrest')]
  have length : m = n := by simpa using congrArg List.length run
  subst length
  exact ⟨rfl, List.append_cancel_left h⟩

namespace Lexer

/-- The lexer arrives at the token of a line. -/
def AtLine (lexer : Lexer) (text : List Char) (tokens : List Token) (indent : Int)
    (outer : List Int) : Prop :=
  ∃ k rest, text = spaces k ++ rest ∧ (∀ c ∈ rest.head?, c ≠ ' ') ∧
    Ready lexer rest k tokens indent outer true

variable {lexer : Lexer} {indent : Int}

theorem AtLine.ready (line : AtLine lexer (spaces n ++ text) tokens indent outer)
    (starts : Starts text) : Ready lexer text n tokens indent outer true := by
  obtain ⟨k, rest, htext, hrest, ready⟩ := line
  obtain ⟨rfl, rfl⟩ := spaces_append_inj htext (fun c hc => (starts c hc).1.ne_space) hrest
  exact ready

theorem Ready.atLine (ready : Ready lexer text k tokens indent outer true) (starts : Starts text) :
    AtLine lexer (spaces k ++ text) tokens indent outer :=
  ⟨k, text, rfl, fun c hc => (starts c hc).1.ne_space, ready⟩

/-! ## Scalars and empty containers -/

theorem Ready.word {cs : List Char} (plain : IsPlain cs)
    (ready : Ready lexer (endLine cs ++ after) column tokens base outer allowed)
    (inside : base < column) (follows : Follows base after) :
    ∃ later, Leads lexer later ∧
      AtLine later after (.scalar .plain (String.ofList cs) :: tokens) base outer := by
  obtain ⟨k, rest, rfl, starts, hk⟩ := follows
  rw [plain.endLine_eq, List.append_assoc] at ready
  obtain ⟨later, leads, arrived⟩ := ready.plain plain (by omega) (by omega) starts
  exact ⟨later, leads, arrived.atLine starts⟩

/-- A text between quotes, up to the end of its line. -/
theorem Ready.quotedLine {style : ScalarStyle} {s : String} {body : List Char}
    (hstyle : style = .singleQuoted ∨ style = .doubleQuoted)
    (read : ∀ (cursor : Cursor) (text : List Char), 0 < cursor.column →
      cursor.rest = body ++ '\n' :: text →
      ∃ stop, cursor.quotedScalar? (style == .singleQuoted) = some (s, stop) ∧
        stop.rest = '\n' :: text ∧ cursor.line ≤ stop.line)
    (ready : Ready lexer (quoteMark style :: (body ++ ['\n']) ++ after) column tokens base outer
      allowed)
    (inside : base < column) (follows : Follows base after) :
    ∃ later, Leads lexer later ∧ AtLine later after (.scalar style s :: tokens) base outer := by
  obtain ⟨k, rest, rfl, starts, -⟩ := follows
  obtain ⟨later, leads, arrived⟩ := Ready.quoted hstyle (fun cursor => read cursor _)
    (by simpa using ready) (by omega) starts
  exact ⟨later, leads, arrived.atLine starts⟩

theorem Ready.string {s : String}
    (ready : Ready lexer (endLine (scalar (base + 2) false s) ++ after) column tokens base outer
      allowed)
    (inside : base < column) (follows : Follows base after) :
    ∃ later, Leads lexer later ∧
      AtLine later after (.scalar (Style.of false s).scalarStyle s :: tokens) base outer := by
  unfold scalar at ready
  cases hs : Style.of false s with
  | plain =>
    rw [hs] at ready
    have word := ready.word (isPlain_of_style hs) inside follows
    rwa [String.ofList_toList] at word
  | singleQuoted =>
    rw [hs] at ready
    dsimp only at ready
    rw [endLine_singleQuoted] at ready
    refine Ready.quotedLine (.inl rfl) (fun cursor text column h => ?_) ready inside follows
    exact Cursor.quotedScalar?_single (base + 2) (isQuotable_of_style hs) (by omega) column
      (by rw [h, List.append_assoc]; rfl) (by simp)
  | doubleQuoted =>
    rw [hs] at ready
    dsimp only at ready
    rw [endLine_doubleQuoted] at ready
    refine Ready.quotedLine (.inr rfl) (fun cursor text column h => ?_) ready inside follows
    exact Cursor.quotedScalar?_double column (by rw [h, List.append_assoc]; rfl)
  | literal =>
    rw [hs] at ready
    obtain ⟨k, rest, rfl, starts, hk⟩ := follows
    obtain ⟨later, leads, arrived⟩ :=
      ready.literal (isLiteral_of_style hs) (by omega) (by omega) (by omega) starts
    exact ⟨later, leads, arrived.atLine starts⟩

/-- A value that is no container with parts. -/
def IsLeaf : Json → Prop
  | .array (_ :: _) | .object (_ :: _) => False
  | _ => True

/-- A value without parts is written up to the end of its line or of its block. -/
theorem Ready.leaf {value : Json} (leaf : IsLeaf value) (simple : IsSimple value)
    (ready : Ready lexer (node (base + 2) value ++ after) column tokens base outer allowed)
    (inside : base < column) (follows : Follows base after) :
    ∃ later, Leads lexer later ∧
      AtLine later after ((toTokens value).reverse ++ tokens) base outer := by
  match value with
  | .null =>
    rw [node] at ready
    rw [toTokens]
    exact ready.word (isPlain_of_alphanum (by decide) (by decide)) inside follows
  | .bool true =>
    rw [node] at ready
    rw [toTokens]
    exact ready.word (isPlain_of_alphanum (by decide) (by decide)) inside follows
  | .bool false =>
    rw [node] at ready
    rw [toTokens]
    exact ready.word (isPlain_of_alphanum (by decide) (by decide)) inside follows
  | .number (.whole n) =>
    rw [node, numberChars] at ready
    rw [toTokens, numberChars]
    exact ready.word (isPlain_intChars n) inside follows
  | .string s =>
    rw [node] at ready
    rw [toTokens]
    exact ready.string inside follows
  | .array [] =>
    rw [node] at ready
    rw [toTokens]
    obtain ⟨k, rest, rfl, starts, hk⟩ := follows
    obtain ⟨later, leads, arrived⟩ := Ready.flow .sequence ready (by omega) starts
    exact ⟨later, leads, arrived.atLine starts⟩
  | .object [] =>
    rw [node] at ready
    rw [toTokens]
    obtain ⟨k, rest, rfl, starts, hk⟩ := follows
    obtain ⟨later, leads, arrived⟩ := Ready.flow .mapping ready (by omega) starts
    exact ⟨later, leads, arrived.atLine starts⟩

/-! ## Containers -/

theorem starts_node {value : Json} (simple : IsSimple value) (after : List Char) :
    Starts (node n value ++ after) := by
  match value with
  | .null | .bool true | .bool false | .array [] | .object [] | .array (item :: items) =>
    rw [node]
    exact starts_cons (by decide) (by decide) (by decide) _
  | .number (.whole n) =>
    have plain := isPlain_intChars n
    rw [node, numberChars, plain.endLine_eq, List.append_assoc]
    exact plain.starts _
  | .string s =>
    rw [node]
    exact starts_string n s after
  | .object ((key, value) :: members) =>
    rw [IsSimple, MembersSimple] at simple
    rw [node, List.append_assoc]
    exact starts_member simple.1 value _

theorem follows_laterItems (items : List Json) (follows : Follows n after) :
    Follows n (laterItems n items ++ after) := by
  cases items with
  | nil =>
    rw [laterItems]
    exact follows
  | cons item items =>
    have text : laterItems n (item :: items) ++ after =
        spaces n ++ '-' :: (' ' :: node (n + 2) item ++ (laterItems n items ++ after)) := by
      rw [laterItems]
      simp
    exact ⟨n, _, text, starts_cons (by decide) (by decide) (by decide) _, Nat.le_refl _⟩

theorem follows_laterMembers {members : List (String × Json)} (simple : MembersSimple members)
    (follows : Follows n after) : Follows n (laterMembers n members ++ after) := by
  match members with
  | [] =>
    rw [laterMembers]
    exact follows
  | (key, value) :: members =>
    rw [MembersSimple] at simple
    have text : laterMembers n ((key, value) :: members) ++ after =
        spaces n ++ (member n key value ++ (laterMembers n members ++ after)) := by
      rw [laterMembers]
      simp
    exact ⟨n, _, text, starts_member simple.1 value _, Nat.le_refl _⟩

theorem laterItems_cons (n : Nat) (item : Json) (items : List Json) :
    laterItems n (item :: items) = spaces n ++ node n (.array (item :: items)) := by
  rw [laterItems, node]
  simp

theorem laterMembers_cons (n : Nat) (m : String × Json) (members : List (String × Json)) :
    laterMembers n (m :: members) = spaces n ++ node n (.object (m :: members)) := by
  obtain ⟨key, value⟩ := m
  rw [laterMembers, node]
  simp

/-- A block ends before a line that is indented less. -/
theorem AtLine.close {indent : Int} (line : AtLine lexer after tokens n (indent :: outer))
    (follows : Follows base after) (h : base < n) :
    AtLine lexer after (.blockEnd :: tokens) indent outer := by
  obtain ⟨k, rest, rfl, hrest, ready⟩ := line
  obtain ⟨k', rest', same, starts, hk⟩ := follows
  obtain ⟨rfl, rfl⟩ := spaces_append_inj same hrest fun c hc => (starts c hc).1.ne_space
  exact ⟨k, rest, rfl, hrest, ready.close (by omega)⟩

theorem valueTokens_leaf {value : Json} (leaf : IsLeaf value) :
    valueTokens value = toTokens value := by
  match value with
  | .null | .bool _ | .number _ | .string _ | .array [] | .object [] =>
    rw [valueTokens]
    all_goals simp

/-- A value without parts on the line of its key. -/
theorem between_leaf {value : Json} {stop : Cursor} (leaf : IsLeaf value) (simple : IsSimple value)
    (h : stop.rest = valueText base value ++ after) (inside : base < stop.column)
    (follows : Follows base after) :
    ∃ later, Leads (between stop tokens base outer false) later ∧
      AtLine later after ((valueTokens value).reverse ++ tokens) base outer := by
  have text : valueText base value ++ after =
      spaces 1 ++ (node (base + 2) value ++ after) := by
    match value with
    | .null | .bool _ | .number _ | .string _ | .array [] | .object [] => rfl
  have ready : Ready (between stop tokens base outer false) (node (base + 2) value ++ after)
      (stop.column + 1) tokens base outer false :=
    ready_of_spaces (h.trans text) (starts_node simple after) (passes_none _)
  rw [valueTokens_leaf leaf]
  exact ready.leaf leaf simple (by omega) follows

mutual

/-- A value behind a hyphen. -/
theorem Ready.value : (value : Json) → IsSimple value → ∀ {lexer base tokens outer after},
    Ready lexer (node (base + 2) value ++ after) (base + 2) tokens base outer true →
    Follows base after → ∃ later, Leads lexer later ∧
      AtLine later after ((toTokens value).reverse ++ tokens) base outer
  | .array (item :: items), simple, lexer, base, tokens, outer, after, ready, follows => by
    have line := ready.atLine (starts_node simple after)
    rw [← List.append_assoc, ← laterItems_cons] at line
    rw [IsSimple] at simple
    obtain ⟨later, leads, arrived⟩ := AtLine.items (item :: items) simple (by simp)
      (.deeper (by omega)) line (follows.mono (by omega))
    refine ⟨later, leads, ?_⟩
    rw [toTokens]
    rw [itemTokens] at arrived
    simpa using arrived.close follows (by omega)
  | .object (m :: members), simple, lexer, base, tokens, outer, after, ready, follows => by
    have line := ready.atLine (starts_node simple after)
    rw [← List.append_assoc, ← laterMembers_cons] at line
    rw [IsSimple] at simple
    obtain ⟨later, leads, arrived⟩ := AtLine.members (m :: members) simple (by simp)
      (.deeper (by omega)) line (follows.mono (by omega))
    refine ⟨later, leads, ?_⟩
    rw [toTokens]
    rw [memberTokens] at arrived
    simpa using arrived.close follows (by omega)
  | .null, simple, _, _, _, _, _, ready, follows => ready.leaf trivial simple (by omega) follows
  | .bool _, simple, _, _, _, _, _, ready, follows => ready.leaf trivial simple (by omega) follows
  | .number _, simple, _, _, _, _, _, ready, follows => ready.leaf trivial simple (by omega) follows
  | .string _, simple, _, _, _, _, _, ready, follows => ready.leaf trivial simple (by omega) follows
  | .array [], simple, _, _, _, _, _, ready, follows => ready.leaf trivial simple (by omega) follows
  | .object [], simple, _, _, _, _, _, ready, follows =>
    ready.leaf trivial simple (by omega) follows

/-- The items of a list, each on a line of its own. -/
theorem AtLine.items : (items : List Json) → ItemsSimple items → items ≠ [] →
    ∀ {lexer n tokens indent outer tokens' outer' after},
    Opens .blockSequenceStart n tokens indent outer tokens' outer' →
    AtLine lexer (laterItems n items ++ after) tokens indent outer → Follows n after →
    ∃ later, Leads lexer later ∧
      AtLine later after ((itemTokens items).reverse ++ tokens') n outer'
  | item :: items, simple, _, lexer, n, tokens, indent, outer, tokens', outer', after, opens, line,
    follows => by
    have text : laterItems n (item :: items) ++ after =
        spaces n ++ ('-' :: ' ' :: (node (n + 2) item ++ (laterItems n items ++ after))) := by
      rw [laterItems]
      simp
    rw [ItemsSimple] at simple
    rw [text] at line
    obtain ⟨entered, leads₁, ready⟩ := Ready.entry opens
      (line.ready (starts_cons (by decide) (by decide) (by decide) _)) (starts_node simple.1 _)
    obtain ⟨behind, leads₂, line⟩ :=
      Ready.value item simple.1 ready (follows_laterItems items follows)
    by_cases last : items = []
    · subst last
      refine ⟨behind, leads₁.trans leads₂, ?_⟩
      rw [laterItems] at line
      rw [itemTokens, itemTokens]
      simpa using line
    · obtain ⟨later, leads₃, line⟩ := AtLine.items items simple.2 last .same line follows
      refine ⟨later, (leads₁.trans leads₂).trans leads₃, ?_⟩
      rw [itemTokens]
      simpa using line

/-- The members of an object, each on a line of its own. -/
theorem AtLine.members : (members : List (String × Json)) → MembersSimple members → members ≠ [] →
    ∀ {lexer n tokens indent outer tokens' outer' after},
    Opens .blockMappingStart n tokens indent outer tokens' outer' →
    AtLine lexer (laterMembers n members ++ after) tokens indent outer → Follows n after →
    ∃ later, Leads lexer later ∧
      AtLine later after ((memberTokens members).reverse ++ tokens') n outer'
  | (key, value) :: members, simple, _, lexer, n, tokens, indent, outer, tokens', outer', after,
    opens, line, follows => by
    have text : laterMembers n ((key, value) :: members) ++ after =
        spaces n ++ (member n key value ++ (laterMembers n members ++ after)) := by
      rw [laterMembers]
      simp
    rw [MembersSimple] at simple
    rw [text] at line
    have ready := line.ready (starts_member simple.1 value _)
    rw [member_eq simple.1, List.append_assoc] at ready
    obtain ⟨stop, leads₁, hrest, hcolumn⟩ :=
      Ready.key simple.1.isPlain simple.1.length opens ready (endsWord_valueText value _)
    obtain ⟨behind, leads₂, line⟩ := AtLine.value value simple.2.1 hrest (by omega)
      (follows_laterMembers simple.2.2 follows)
    by_cases last : members = []
    · subst last
      refine ⟨behind, leads₁.trans leads₂, ?_⟩
      rw [laterMembers] at line
      rw [memberTokens, memberTokens]
      simpa using line
    · obtain ⟨later, leads₃, line⟩ := AtLine.members members simple.2.2 last .same line follows
      refine ⟨later, (leads₁.trans leads₂).trans leads₃, ?_⟩
      rw [memberTokens]
      simpa using line

/-- The value of a member, behind the colon of its key. -/
theorem AtLine.value : (value : Json) → IsSimple value → ∀ {stop n tokens outer after},
    stop.rest = valueText n value ++ after → n < stop.column → Follows n after →
    ∃ later, Leads (between stop tokens n outer false) later ∧
      AtLine later after ((valueTokens value).reverse ++ tokens) n outer
  | .array (item :: items), simple, stop, n, tokens, outer, after, hrest, _, follows => by
    have starts := starts_node (n := n) simple after
    have ready : Ready (between stop tokens n outer false) _ n tokens n outer true :=
      ready_of_line (by rw [hrest, valueText, laterItems_cons]; simp) starts (passes_none _)
    have line := ready.atLine starts
    rw [← List.append_assoc, ← laterItems_cons] at line
    rw [IsSimple] at simple
    obtain ⟨later, leads, line⟩ :=
      AtLine.items (item :: items) simple (by simp) .same line follows
    refine ⟨later, leads, ?_⟩
    rw [itemTokens] at line
    rw [valueTokens]
    exact line
  | .object (m :: members), simple, stop, n, tokens, outer, after, hrest, _, follows => by
    have starts := starts_node (n := n + 2) simple after
    have ready : Ready (between stop tokens n outer false) _ (n + 2) tokens n outer true :=
      ready_of_line (by rw [hrest, valueText, laterMembers_cons]; simp) starts (passes_none _)
    have line := ready.atLine starts
    rw [← List.append_assoc, ← laterMembers_cons] at line
    rw [IsSimple] at simple
    obtain ⟨later, leads, line⟩ := AtLine.members (m :: members) simple (by simp)
      (.deeper (by omega)) line (follows.mono (by omega))
    refine ⟨later, leads, ?_⟩
    rw [memberTokens] at line
    rw [valueTokens, toTokens]
    · simpa using line.close follows (by omega)
    · simp
  | .null, simple, _, _, _, _, _, hrest, inside, follows =>
    between_leaf trivial simple hrest inside follows
  | .bool _, simple, _, _, _, _, _, hrest, inside, follows =>
    between_leaf trivial simple hrest inside follows
  | .number _, simple, _, _, _, _, _, hrest, inside, follows =>
    between_leaf trivial simple hrest inside follows
  | .string _, simple, _, _, _, _, _, hrest, inside, follows =>
    between_leaf trivial simple hrest inside follows
  | .array [], simple, _, _, _, _, _, hrest, inside, follows =>
    between_leaf trivial simple hrest inside follows
  | .object [], simple, _, _, _, _, _, hrest, inside, follows =>
    between_leaf trivial simple hrest inside follows

end

end Lexer

end ServiceContract.Yaml
