import ServiceContract.Proofs.Toml.Text
import ServiceContract.Toml.Reader

/-!
# Reading TOML back

A table of sections, each with texts, flags and lists of texts under bare keys, is read back from
its text (`read?_print`). Each line that is written is read as one statement, whatever comes behind
it, and the statements build up the sections one after the other.
-/

namespace ServiceContract.Toml

variable {c : Char} {cs more rest blank : List Char} {fuel inner depth : Nat} {key : String}
  {v : Json}

/-! ## Gaps -/

/-- A character that no gap goes over. -/
structure IsSolid (c : Char) : Prop where
  notBlank : isBlank c = false
  notFeed : c ≠ '\n'
  notReturn : c ≠ '\r'
  notHash : c ≠ '#'

theorem skipBlankLines_solid (solid : IsSolid c) (rest : List Char) :
    skipBlankLines (c :: rest) = c :: rest := by
  have notBlank := solid.notBlank
  unfold skipBlankLines
  split
  · next same => cases same; cases notBlank
  · next same => cases same; cases notBlank
  · next same => cases same; exact absurd rfl solid.notFeed
  · next same => cases same; exact absurd rfl solid.notReturn
  · rfl

/-- Blanks and line feeds in front of something are gone over. -/
theorem skipBlankLines_append (white : ∀ c ∈ blank, isBlank c = true ∨ c = '\n')
    (rest : List Char) : skipBlankLines (blank ++ rest) = skipBlankLines rest := by
  induction blank with
  | nil => rfl
  | cons c blank ih =>
    obtain ⟨hc, later⟩ := List.forall_mem_cons.1 white
    rw [List.cons_append]
    simp only [isBlank, Bool.or_eq_true, decide_eq_true_eq] at hc
    rcases hc with (rfl | rfl) | rfl
    all_goals rw [skipBlankLines, ih later]

theorem white_lineFeed : ∀ c ∈ ['\n'], isBlank c = true ∨ c = '\n' := by simp

theorem skipGap?_append (white : ∀ c ∈ blank, isBlank c = true ∨ c = '\n') (solid : IsSolid c)
    (rest : List Char) : skipGap? (fuel + 1) (blank ++ c :: rest) = some (c :: rest) := by
  have moved : skipBlankLines (blank ++ c :: rest) = c :: rest := by
    rw [skipBlankLines_append white, skipBlankLines_solid solid]
  rw [skipGap?, moved]
  split
  · next same => cases same; exact absurd rfl solid.notHash
  · rfl

/-! ## Values -/

/-- What a section may hold under a key. -/
inductive IsSetting : Json → Prop
  | text (s : String) : IsSetting (.string s)
  | flag (b : Bool) : IsSetting (.bool b)
  | texts (texts : List String) : IsSetting (.array (texts.map .string))

/-- What is written for a text starts with a quote. -/
theorem exists_text_start (s : String) (rest : List Char) :
    ∃ quote more, text s ++ rest = quote :: more ∧ (quote = '"' ∨ quote = '\'') := by
  have written := written_text s
  generalize text s = chars at written ⊢
  cases written with
  | basic => exact ⟨'"', _, rfl, .inl rfl⟩
  | literal => exact ⟨'\'', _, rfl, .inr rfl⟩
  | basicLines => exact ⟨'"', _, rfl, .inl rfl⟩
  | literalLines => exact ⟨'\'', _, rfl, .inr rfl⟩

theorem isSolid_quote {quote : Char} (h : quote = '"' ∨ quote = '\'') : IsSolid quote := by
  rcases h with rfl | rfl
  · exact ⟨by decide, by decide, by decide, by decide⟩
  · exact ⟨by decide, by decide, by decide, by decide⟩

theorem value?_text (fuel depth : Nat) (s : String) (ends : EndsText rest) :
    value? (fuel + 1) depth (text s ++ rest) = some (.string s, rest) := by
  have read := text?_text s ends
  obtain ⟨quote, more, start, hquote⟩ := exists_text_start s rest
  rw [start] at read ⊢
  have notBracket : quote ≠ '[' := by rcases hquote with rfl | rfl <;> decide
  have notBrace : quote ≠ '\x7b' := by rcases hquote with rfl | rfl <;> decide
  rw [value?, if_neg notBracket, if_neg notBrace, scalar?, read]

theorem value?_flag (b : Bool) (rest : List Char) :
    value? (fuel + 1) depth (value (.bool b) ++ rest) = some (.bool b, rest) := by
  cases b <;> rfl

theorem endsText_cons (notDouble : c ≠ '"') (notSingle : c ≠ '\'') (rest : List Char) :
    EndsText (c :: rest) :=
  ⟨by simpa using notDouble, by simpa using notSingle⟩

theorem skipGap?_solid (solid : IsSolid c) (rest : List Char) :
    skipGap? (fuel + 1) (c :: rest) = some (c :: rest) :=
  skipGap?_append (List.forall_mem_nil _) solid rest

theorem isSolid_comma : IsSolid ',' := ⟨by decide, by decide, by decide, by decide⟩

theorem isSolid_bracket : IsSolid ']' := ⟨by decide, by decide, by decide, by decide⟩

section Items

variable {item : Json} {items : List Json} {read : List Char → Read Json}

theorem items?_end (white : ∀ c ∈ blank, isBlank c = true ∨ c = '\n') (rest : List Char) :
    items? read (fuel + 1) (blank ++ ']' :: rest) = some ([], rest) := by
  rw [items?, skipGap?_append white isSolid_bracket]
  rfl

/-- An item that the closing bracket follows. -/
theorem items?_last (solid : IsSolid c) (open' : c ≠ ']')
    (reads : read (c :: cs) = some (item, ']' :: rest)) :
    items? read (fuel + 1) (c :: cs) = some ([item], rest) := by
  rw [items?, skipGap?_solid solid]
  simp [open', reads, skipGap?_solid isSolid_bracket]

/-- An item that a comma follows. -/
theorem items?_more (white : ∀ c ∈ blank, isBlank c = true ∨ c = '\n') (solid : IsSolid c)
    (open' : c ≠ ']') (reads : read (c :: cs) = some (item, ',' :: more))
    (later : items? read fuel more = some (items, rest)) :
    items? read (fuel + 1) (blank ++ c :: cs) = some (item :: items, rest) := by
  rw [items?, skipGap?_append white solid]
  simp [open', reads, skipGap?_solid isSolid_comma, later]

end Items

theorem notBracket_of_quote {quote : Char} (h : quote = '"' ∨ quote = '\'') : quote ≠ ']' := by
  rcases h with rfl | rfl <;> decide

/-- Texts on lines of their own are read back one after the other. -/
theorem items?_itemLines (texts : List String) (enough : texts.length < fuel) (rest : List Char) :
    items? (value? (inner + 1) depth) fuel (itemLines (texts.map .string) ++ '\n' :: ']' :: rest) =
      some (texts.map .string, rest) := by
  induction texts generalizing fuel with
  | nil =>
    obtain ⟨fuel, rfl⟩ := Nat.exists_eq_add_one_of_ne_zero (Nat.ne_zero_of_lt enough)
    exact items?_end white_lineFeed rest
  | cons s texts ih =>
    obtain ⟨fuel, rfl⟩ := Nat.exists_eq_add_one_of_ne_zero (Nat.ne_zero_of_lt enough)
    have later := ih (Nat.lt_of_succ_lt_succ enough)
    have ends : EndsText (',' :: (itemLines (texts.map .string) ++ '\n' :: ']' :: rest)) :=
      endsText_cons (by decide) (by decide) _
    have reads := value?_text inner depth s ends
    obtain ⟨quote, more, start, hquote⟩ := exists_text_start s
      (',' :: (itemLines (texts.map .string) ++ '\n' :: ']' :: rest))
    have layout : itemLines ((s :: texts).map .string) ++ '\n' :: ']' :: rest =
        ['\n', ' ', ' ', ' ', ' '] ++ (text s ++
          ',' :: (itemLines (texts.map .string) ++ '\n' :: ']' :: rest)) := by
      simp [itemLines, value]
    rw [start] at reads
    rw [layout, start]
    exact items?_more (by simp [isBlank]) (isSolid_quote hquote) (notBracket_of_quote hquote) reads
      later

theorem length_le_itemLines (items : List Json) : items.length ≤ (itemLines items).length := by
  induction items with
  | nil => exact Nat.zero_le _
  | cons item items ih =>
    rw [itemLines]
    simp only [List.length_cons, List.length_append]
    omega

theorem value?_array {items : List Json} {body : List Char}
    (reads : items? (value? fuel 79) fuel body = some (items, rest)) :
    value? (fuel + 1) depthLimit ('[' :: body) = some (.array items, rest) := by
  rw [value?, if_pos rfl, if_neg (by decide), show depthLimit - 1 = 79 from rfl, reads]
  rfl

theorem length_array_pos (items : List Json) : 0 < (value (.array items)).length := by
  match items with
  | [] => simp [value]
  | [item] => simp [value]
  | first :: second :: items => simp [value]

/-- A setting is read back from what is written for it. -/
theorem value?_value (setting : IsSetting v) (ends : EndsText rest)
    (enough : (value v ++ rest).length ≤ fuel) :
    value? (fuel + 1) depthLimit (value v ++ rest) = some (v, rest) := by
  cases setting with
  | text s =>
    rw [value]
    exact value?_text _ _ s ends
  | flag b => exact value?_flag b rest
  | texts texts =>
    have written := length_array_pos (texts.map .string)
    obtain ⟨fuel, rfl⟩ : ∃ n, fuel = n + 1 :=
      ⟨fuel - 1, by rw [List.length_append] at enough; omega⟩
    match texts with
    | [] => exact value?_array (items?_end (List.forall_mem_nil _) rest)
    | [s] =>
      have ends : EndsText (']' :: rest) := endsText_cons (by decide) (by decide) rest
      have reads := value?_text fuel 79 s ends
      obtain ⟨quote, more, start, hquote⟩ := exists_text_start s (']' :: rest)
      have layout : value (.array ([s].map .string)) ++ rest = '[' :: (text s ++ ']' :: rest) := by
        simp [value]
      rw [start] at reads
      rw [layout, start]
      exact value?_array (items?_last (isSolid_quote hquote) (notBracket_of_quote hquote) reads)
    | s :: t :: texts =>
      have layout : value (.array ((s :: t :: texts).map .string)) ++ rest =
          '[' :: (itemLines ((s :: t :: texts).map .string) ++ '\n' :: ']' :: rest) := by
        simp [value]
      have room := length_le_itemLines ((s :: t :: texts).map .string)
      rw [layout] at enough ⊢
      rw [List.length_map] at room
      simp only [List.length_cons, List.length_append] at enough room
      exact value?_array (items?_itemLines _ (by simp; omega) rest)

/-! ## Lines -/

theorem isBareChar_of_isBareKey (bare : isBareKey key = true) :
    ∃ c cs, key.toList = c :: cs ∧ ∀ d ∈ c :: cs, isBareChar d = true := by
  simp only [isBareKey, Bool.and_eq_true, Bool.not_eq_true'] at bare
  obtain ⟨nonempty, bare⟩ := bare
  cases h : key.toList with
  | nil =>
    have empty : key = "" := by
      rw [← String.ofList_toList (s := key), h]
    rw [empty] at nonempty
    cases nonempty
  | cons c cs =>
    refine ⟨c, cs, rfl, fun d hd => ?_⟩
    rw [h] at bare
    exact List.all_eq_true.1 bare d hd

theorem isSolid_of_isBareChar (bare : isBareChar c = true) : IsSolid c where
  notBlank := by
    refine Bool.eq_false_iff.2 fun h => ?_
    simp only [isBlank, Bool.or_eq_true, decide_eq_true_eq] at h
    rcases h with rfl | rfl <;> cases bare
  notFeed := by rintro rfl; cases bare
  notReturn := by rintro rfl; cases bare
  notHash := by rintro rfl; cases bare

/-- What is no letter, digit, underscore or dash ends a bare key. -/
theorem key?_bare (bare : isBareKey key = true) (ends : isBareChar c = false) (rest : List Char) :
    key? (key.toList ++ c :: rest) = some (key, c :: rest) := by
  obtain ⟨d, ds, hkey, hbare⟩ := isBareChar_of_isBareKey bare
  have notText : lineText? (key.toList ++ c :: rest) = none := by
    rw [hkey, List.cons_append]
    unfold lineText?
    split
    · next same => cases same; exact absurd (hbare _ List.mem_cons_self) (by decide)
    · next same => cases same; exact absurd (hbare _ List.mem_cons_self) (by decide)
    · rfl
  have run : (key.toList ++ c :: rest).takeWhile isBareChar = key.toList := by
    rw [List.takeWhile_append_of_pos (by rw [hkey]; exact hbare), List.takeWhile_cons, ends]
    simp
  have nonempty : key.toList.isEmpty = false := by rw [hkey]; rfl
  rw [key?, notText]
  simp only [run, nonempty, String.ofList_toList, List.drop_left]
  rfl

theorem skipBlanks_cons (solid : isBlank c = false) (rest : List Char) :
    skipBlanks (c :: rest) = c :: rest := by
  simp [skipBlanks, solid]

theorem skipBlanks_bareKey (bare : isBareKey key = true) (rest : List Char) :
    skipBlanks (key.toList ++ rest) = key.toList ++ rest := by
  obtain ⟨c, cs, hkey, hbare⟩ := isBareChar_of_isBareKey bare
  have solid := isSolid_of_isBareChar (hbare c List.mem_cons_self)
  rw [hkey, List.cons_append]
  exact skipBlanks_cons solid.notBlank _

/-- A bare key is read as a path. -/
theorem keyPath?_bare (bare : isBareKey key = true) (white : ∀ c ∈ blank, isBlank c = true)
    (ends : isBareChar c = false) (solid : isBlank c = false) (single : c ≠ '.')
    (rest : List Char) :
    keyPath? (key.toList ++ (blank ++ c :: rest)) = some ([], key, c :: rest) := by
  have behind : skipBlanks (blank ++ c :: rest) = c :: rest := by
    rw [skipBlanks, List.dropWhile_append_of_pos white]
    exact skipBlanks_cons solid rest
  have read : key? (key.toList ++ (blank ++ c :: rest)) = some (key, blank ++ c :: rest) := by
    cases blank with
    | nil => exact key?_bare bare ends rest
    | cons d blank =>
      have space : isBlank d = true := white d List.mem_cons_self
      simp only [isBlank, Bool.or_eq_true, decide_eq_true_eq] at space
      rcases space with rfl | rfl
      · exact key?_bare bare (by decide) _
      · exact key?_bare bare (by decide) _
  have path (fuel : Nat) : path? (fuel + 1) (key.toList ++ (blank ++ c :: rest)) =
      some ([key], c :: rest) := by
    rw [path?, skipBlanks_bareKey bare, read]
    simp [behind, single]
  rw [keyPath?, path]
  rfl

/-- What is written for a setting does not start with a blank. -/
theorem skipBlanks_value (setting : IsSetting v) (rest : List Char) :
    skipBlanks (' ' :: (value v ++ rest)) = value v ++ rest := by
  show skipBlanks (value v ++ rest) = value v ++ rest
  cases setting with
  | text s =>
    obtain ⟨quote, more, start, hquote⟩ := exists_text_start s rest
    rw [value, start]
    exact skipBlanks_cons (isSolid_quote hquote).notBlank more
  | flag b => cases b <;> exact skipBlanks_cons (by decide) _
  | texts texts =>
    match texts with
    | [] => exact skipBlanks_cons (by decide) _
    | [s] => exact skipBlanks_cons (by decide) _
    | s :: t :: texts => exact skipBlanks_cons (by decide) _

theorem endLine?_lineFeed (rest : List Char) : endLine? ('\n' :: rest) = some rest := rfl

/-- A line with a setting is read as an assignment. -/
theorem assignment?_line (bare : isBareKey key = true) (setting : IsSetting v) (rest : List Char) :
    assignment? (key.toList ++ [' ', '=', ' '] ++ value v ++ '\n' :: rest) =
      some (.assignment [] key v, rest) := by
  have white : ∀ c ∈ [' '], isBlank c = true := by simp [isBlank]
  have path := keyPath?_bare (c := '=') bare white (by decide) (by decide) (by decide)
    (' ' :: (value v ++ '\n' :: rest))
  have layout : key.toList ++ [' ', '=', ' '] ++ value v ++ '\n' :: rest =
      key.toList ++ ([' '] ++ '=' :: ' ' :: (value v ++ '\n' :: rest)) := by simp
  have start : skipBlanks (' ' :: (value v ++ '\n' :: rest)) = value v ++ '\n' :: rest :=
    skipBlanks_value setting _
  have ends : EndsText ('\n' :: rest) := endsText_cons (by decide) (by decide) rest
  have read := value?_value setting ends (Nat.le_refl _)
  rw [layout, assignment?, path]
  simp only [start, read, Option.bind_eq_bind, Option.bind_some, endLine?_lineFeed]
  rfl

/-- The head of a section is read as a header. -/
theorem header?_line (bare : isBareKey key = true) (rest : List Char) :
    header? (key.toList ++ ']' :: '\n' :: rest) = some (.table [] key, rest) := by
  have path := keyPath?_bare (c := ']') bare (List.forall_mem_nil _) (by decide) (by decide)
    (by decide) ('\n' :: rest)
  obtain ⟨c, cs, hkey, hbare⟩ := isBareChar_of_isBareKey bare
  rw [List.nil_append] at path
  unfold header?
  split
  · next same =>
    rw [hkey] at same
    cases same
    exact absurd (hbare _ List.mem_cons_self) (by decide)
  · rw [path]
    simp only [endLine?_lineFeed]
    rfl

/-! ## Statements -/

/-- Characters are read as some statements, given fuel for each and for the end. -/
def Says (cs : List Char) (statements : List Statement) : Prop :=
  ∀ fuel, statements.length < fuel → statements? fuel cs = some statements

theorem says_nil : Says [] [] := by
  intro fuel enough
  obtain ⟨fuel, rfl⟩ := Nat.exists_eq_add_one_of_ne_zero (Nat.ne_zero_of_lt enough)
  rfl

variable {statement : Statement} {statements : List Statement}

theorem Says.assignment (solid : IsSolid c) (noHeader : c ≠ '[')
    (reads : assignment? (c :: cs) = some (statement, rest)) (later : Says rest statements) :
    Says (c :: cs) (statement :: statements) := by
  intro fuel enough
  obtain ⟨fuel, rfl⟩ := Nat.exists_eq_add_one_of_ne_zero (Nat.ne_zero_of_lt enough)
  rw [statements?, skipGap?_solid solid]
  simp [noHeader, reads, later fuel (by simpa using enough)]

theorem Says.header (white : ∀ c ∈ blank, isBlank c = true ∨ c = '\n')
    (reads : header? cs = some (statement, rest)) (later : Says rest statements) :
    Says (blank ++ '[' :: cs) (statement :: statements) := by
  intro fuel enough
  obtain ⟨fuel, rfl⟩ := Nat.exists_eq_add_one_of_ne_zero (Nat.ne_zero_of_lt enough)
  have solid : IsSolid '[' := ⟨by decide, by decide, by decide, by decide⟩
  rw [statements?, skipGap?_append white solid]
  simp [reads, later fuel (by simpa using enough)]

/-- A table of settings under bare keys. -/
structure IsSection (members : Members) : Prop where
  bare : ∀ member ∈ members, isBareKey member.1 = true
  settings : ∀ member ∈ members, IsSetting member.2
  distinct : members.keys.Nodup

/-- The statements of a table of settings. -/
def assignments (members : Members) : List Statement :=
  members.map fun (key, v) => .assignment [] key v

theorem IsSetting.notObject (setting : IsSetting v) (members : Members) : v ≠ .object members := by
  rintro rfl
  cases setting

theorem says_plainMembers {members : Members} (bare : ∀ member ∈ members, isBareKey member.1 = true)
    (settings : ∀ member ∈ members, IsSetting member.2) (later : Says rest statements) :
    Says (plainMembers members ++ rest) (assignments members ++ statements) := by
  induction members with
  | nil => exact later
  | cons member members ih =>
    obtain ⟨key, v⟩ := member
    obtain ⟨hkey, bare⟩ := List.forall_mem_cons.1 bare
    obtain ⟨hv, settings⟩ := List.forall_mem_cons.1 settings
    have line := assignment?_line hkey hv (plainMembers members ++ rest)
    obtain ⟨c, cs, hkeyChars, hbare⟩ := isBareChar_of_isBareKey hkey
    have written : plainMembers ((key, v) :: members) ++ rest =
        key.toList ++ [' ', '=', ' '] ++ value v ++ '\n' :: (plainMembers members ++ rest) := by
      rw [plainMembers]
      · simp [keyChars, hkey]
      · exact fun inner h => hv.notObject inner h
    have first := hbare c List.mem_cons_self
    have solid : IsSolid c := isSolid_of_isBareChar first
    have noHeader : c ≠ '[' := by rintro rfl; cases first
    rw [written]
    rw [hkeyChars] at line ⊢
    exact Says.assignment solid noHeader line (ih bare settings)

/-- A document of sections. -/
def document (tables : List (String × Members)) : Members :=
  tables.map fun (key, inner) => (key, .object inner)

/-- The statements of a document of sections. -/
def statementsOf (tables : List (String × Members)) : List Statement :=
  tables.flatMap fun (key, inner) => .table [] key :: assignments inner

theorem plainMembers_document (tables : List (String × Members)) :
    plainMembers (document tables) = [] := by
  induction tables with
  | nil => rfl
  | cons table tables ih => exact ih

theorem sections_eq_nil {members : Members} (settings : ∀ member ∈ members, IsSetting member.2)
    (path : List Char) : sections path members = [] := by
  induction members with
  | nil => rw [sections]
  | cons member members ih =>
    obtain ⟨key, v⟩ := member
    obtain ⟨hv, settings⟩ := List.forall_mem_cons.1 settings
    rw [sections]
    · exact ih settings
    · rintro _ inner ⟨⟩
      exact hv.notObject inner rfl

theorem sections_cons {inner : Members} (bare : isBareKey key = true) (ok : IsSection inner)
    (tables : List (String × Members)) :
    sections [] (document ((key, inner) :: tables)) =
      '\n' :: '[' :: (key.toList ++ ']' :: '\n' ::
        (plainMembers inner ++ sections [] (document tables))) := by
  show sections [] ((key, .object inner) :: document tables) = _
  rw [sections, sections_eq_nil ok.settings, keyChars, if_pos bare]
  simp

/-- The first section is read, whatever gap there is in front of it. -/
theorem says_section {inner : Members} (white : ∀ c ∈ blank, isBlank c = true ∨ c = '\n')
    (bare : isBareKey key = true) (ok : IsSection inner) (later : Says rest statements) :
    Says (blank ++ '[' :: (key.toList ++ ']' :: '\n' :: (plainMembers inner ++ rest)))
      (.table [] key :: (assignments inner ++ statements)) :=
  .header white (header?_line bare _) (says_plainMembers ok.bare ok.settings later)

/-- Sections under bare keys that differ. -/
structure IsDocument (tables : List (String × Members)) : Prop where
  bare : ∀ table ∈ tables, isBareKey table.1 = true
  sections : ∀ table ∈ tables, IsSection table.2
  distinct : (tables.map (·.1)).Nodup

theorem says_sections {tables : List (String × Members)}
    (bare : ∀ table ∈ tables, isBareKey table.1 = true)
    (ok : ∀ table ∈ tables, IsSection table.2) :
    Says (sections [] (document tables)) (statementsOf tables) := by
  induction tables with
  | nil =>
    rw [document, List.map_nil, sections]
    exact says_nil
  | cons table tables ih =>
    obtain ⟨key, inner⟩ := table
    obtain ⟨hkey, bare⟩ := List.forall_mem_cons.1 bare
    obtain ⟨hinner, ok⟩ := List.forall_mem_cons.1 ok
    rw [sections_cons hkey hinner]
    exact says_section white_lineFeed hkey hinner (ih bare ok)

/-- The first line of a document is not blank. -/
theorem toList_print (tables : List (String × Members)) :
    (print (document tables)).toList = (sections [] (document tables)).drop 1 := by
  rw [print, plainMembers_document]
  exact String.toList_ofList

theorem says_print {tables : List (String × Members)} (ok : IsDocument tables) :
    Says (print (document tables)).toList (statementsOf tables) := by
  rw [toList_print]
  cases tables with
  | nil =>
    rw [document, List.map_nil, sections]
    exact says_nil
  | cons table tables =>
    obtain ⟨key, inner⟩ := table
    obtain ⟨hkey, bare⟩ := List.forall_mem_cons.1 ok.bare
    obtain ⟨hinner, sections⟩ := List.forall_mem_cons.1 ok.sections
    rw [sections_cons hkey hinner]
    exact says_section (List.forall_mem_nil _) hkey hinner (says_sections bare sections)

/-! ## The document -/

/-- The entries of a section that has been read. -/
def sectionEntries (members : Members) : Entries := members.map fun (key, v) => (key, .value v)

/-- The entries of a document of sections that has been read. -/
def documentEntries (tables : List (String × Members)) : Entries :=
  tables.map fun (key, inner) => (key, .table .header (sectionEntries inner))

theorem entriesToMembers_sectionEntries (members : Members) :
    entriesToMembers (sectionEntries members) = members := by
  induction members with
  | nil => rfl
  | cons member members ih =>
    obtain ⟨key, v⟩ := member
    show (key, v) :: entriesToMembers (sectionEntries members) = (key, v) :: members
    rw [ih]

theorem entriesToMembers_documentEntries (tables : List (String × Members)) :
    entriesToMembers (documentEntries tables) = document tables := by
  induction tables with
  | nil => rfl
  | cons table tables ih =>
    obtain ⟨key, inner⟩ := table
    show (key, Json.object (entriesToMembers (sectionEntries inner))) ::
      entriesToMembers (documentEntries tables) = (key, .object inner) :: document tables
    rw [entriesToMembers_sectionEntries, ih]

variable {entries before : Entries} {item item' : Item}

theorem lookup_eq_none (absent : key ∉ entries.map (·.1)) : entries.lookup key = none := by
  refine List.lookup_eq_none_iff.2 fun entry hentry => bne_iff_ne.2 fun same => ?_
  exact absent (same ▸ List.mem_map_of_mem hentry)

theorem lookup_last (absent : key ∉ before.map (·.1)) :
    (before ++ [(key, item)]).lookup key = some item := by
  simp [List.lookup_append, lookup_eq_none absent]

theorem replace_last (absent : key ∉ before.map (·.1)) :
    Entries.replace (before ++ [(key, item)]) key item' = before ++ [(key, item')] := by
  induction before with
  | nil => simp [Entries.replace]
  | cons entry before ih =>
    obtain ⟨k, old⟩ := entry
    rw [List.map_cons, List.mem_cons, not_or] at absent
    rw [List.cons_append, Entries.replace, if_neg (Ne.symm absent.1), ih absent.2, List.cons_append]

/-- A header opens a section behind those that are there. -/
theorem add_table (absent : key ∉ entries.map (·.1)) (current : List String) :
    Document.add ⟨entries, current⟩ (.table [] key) =
      some ⟨entries ++ [(key, .table .header [])], [key]⟩ := by
  simp [Document.add, Entries.update, Entries.openTable, lookup_eq_none absent]

/-- An assignment gives a new member to the section that is open. -/
theorem add_assignment {inner : Entries} {name : String} (absent : key ∉ before.map (·.1))
    (fresh : name ∉ inner.map (·.1)) :
    Document.add ⟨before ++ [(key, .table .header inner)], [key]⟩ (.assignment [] name v) =
      some ⟨before ++ [(key, .table .header (inner ++ [(name, .value v)]))], [key]⟩ := by
  simp [Document.add, Entries.update, Entries.assign, lookup_last absent, lookup_eq_none fresh,
    replace_last absent]

theorem foldlM_assignments {members : Members} {inner : Entries}
    (absent : key ∉ before.map (·.1)) (distinct : members.keys.Nodup)
    (fresh : ∀ name ∈ members.keys, name ∉ inner.map (·.1)) :
    (assignments members).foldlM Document.add ⟨before ++ [(key, .table .header inner)], [key]⟩ =
      some ⟨before ++ [(key, .table .header (inner ++ sectionEntries members))], [key]⟩ := by
  induction members generalizing inner with
  | nil => simp [assignments, sectionEntries]
  | cons member members ih =>
    obtain ⟨name, v⟩ := member
    obtain ⟨notLater, distinct⟩ := List.nodup_cons.1 distinct
    obtain ⟨hname, fresh⟩ := List.forall_mem_cons.1 fresh
    have fresh : ∀ other ∈ Members.keys members,
        other ∉ (inner ++ [(name, Item.value v)]).map (·.1) := by
      intro other hother hmem
      rw [List.map_append, List.mem_append] at hmem
      rcases hmem with hmem | hmem
      · exact fresh other hother hmem
      · obtain rfl : other = name := by simpa using hmem
        exact notLater hother
    show (do
      let next ← Document.add _ (.assignment [] name v)
      (assignments members).foldlM Document.add next) = _
    rw [add_assignment absent hname]
    refine (ih distinct fresh).trans ?_
    simp [sectionEntries]

/-- Sections that are read are put behind those that are there. -/
theorem foldlM_statementsOf (read : List (String × Members)) {tables : List (String × Members)}
    (ok : ∀ table ∈ tables, IsSection table.2) (distinct : ((read ++ tables).map (·.1)).Nodup)
    (current : List String) :
    ∃ current', (statementsOf tables).foldlM Document.add ⟨documentEntries read, current⟩ =
      some ⟨documentEntries (read ++ tables), current'⟩ := by
  induction tables generalizing read current with
  | nil => exact ⟨current, by simp [statementsOf]⟩
  | cons table tables ih =>
    obtain ⟨key, inner⟩ := table
    obtain ⟨hinner, ok⟩ := List.forall_mem_cons.1 ok
    have absent : key ∉ (documentEntries read).map (·.1) := by
      rw [List.map_append] at distinct
      intro mem
      refine (List.nodup_append.1 distinct).2.2 key ?_ key List.mem_cons_self rfl
      simpa [documentEntries] using mem
    have split : read ++ (key, inner) :: tables = (read ++ [(key, inner)]) ++ tables := by simp
    rw [split] at distinct ⊢
    have fresh : ∀ name ∈ inner.keys, name ∉ ([] : Entries).map (·.1) :=
      fun _ _ => List.not_mem_nil
    have opened := foldlM_assignments absent hinner.distinct fresh
    obtain ⟨current', later⟩ := ih (read ++ [(key, inner)]) ok distinct [key]
    refine ⟨current', ?_⟩
    show (do
      let next ← Document.add _ (.table [] key)
      (assignments inner ++ statementsOf tables).foldlM Document.add next) = _
    rw [add_table absent, Option.bind_eq_bind, Option.bind_some, List.foldlM_append, opened,
      List.nil_append, Option.bind_eq_bind, Option.bind_some, ← later]
    simp [documentEntries]

theorem ofStatements?_statementsOf {tables : List (String × Members)} (ok : IsDocument tables) :
    Document.ofStatements? (statementsOf tables) = some (document tables) := by
  obtain ⟨current, read⟩ := foldlM_statementsOf [] ok.sections ok.distinct []
  rw [Document.ofStatements?, show Document.empty = ⟨documentEntries [], []⟩ from rfl, read,
    Option.map_some, entriesToMembers_documentEntries, List.nil_append]

/-! ## The whole text -/

theorem length_le_plainMembers {members : Members}
    (settings : ∀ member ∈ members, IsSetting member.2) :
    members.length ≤ (plainMembers members).length := by
  induction members with
  | nil => exact Nat.zero_le _
  | cons member members ih =>
    obtain ⟨key, v⟩ := member
    obtain ⟨hv, settings⟩ := List.forall_mem_cons.1 settings
    have := ih settings
    rw [plainMembers]
    · simp only [List.length_cons, List.length_append]
      omega
    · exact fun inner h => hv.notObject inner h

theorem length_statementsOf {tables : List (String × Members)}
    (bare : ∀ table ∈ tables, isBareKey table.1 = true)
    (ok : ∀ table ∈ tables, IsSection table.2) :
    (statementsOf tables).length + tables.length ≤ (sections [] (document tables)).length := by
  induction tables with
  | nil => exact Nat.zero_le _
  | cons table tables ih =>
    obtain ⟨key, inner⟩ := table
    obtain ⟨hkey, bare⟩ := List.forall_mem_cons.1 bare
    obtain ⟨hinner, ok⟩ := List.forall_mem_cons.1 ok
    have := ih bare ok
    have := length_le_plainMembers hinner.settings
    rw [sections_cons hkey hinner]
    simp only [statementsOf, List.flatMap_cons, assignments, List.length_cons, List.length_append,
      List.length_map] at *
    omega

/-- A document of sections is read back from its text. -/
theorem read?_print {tables : List (String × Members)} (ok : IsDocument tables) :
    read? (print (document tables)) = some (.object (document tables)) := by
  have unmarked : dropByteOrderMark (print (document tables)).toList =
      (print (document tables)).toList := by
    rw [toList_print]
    cases tables with
    | nil =>
      rw [document, List.map_nil, sections]
      rfl
    | cons table tables =>
      rw [sections_cons (ok.bare table List.mem_cons_self) (ok.sections table List.mem_cons_self)]
      rfl
  have enough : (statementsOf tables).length < (print (document tables)).toList.length + 1 := by
    have room := length_statementsOf ok.bare ok.sections
    rw [toList_print, List.length_drop]
    cases tables with
    | nil => exact Nat.succ_pos _
    | cons table tables =>
      rw [List.length_cons] at room
      omega
  rw [read?, unmarked]
  simp only [says_print ok _ enough, Option.bind_some, ofStatements?_statementsOf ok,
    Option.map_some]

end ServiceContract.Toml
