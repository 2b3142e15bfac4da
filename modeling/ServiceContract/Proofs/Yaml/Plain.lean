import ServiceContract.Proofs.Yaml.Gap

/-!
# Reading plain scalars back

A text is written plainly when nothing in it means anything else (`IsPlain`). It is then read word
by word, with the spaces between them, up to the colon behind a key or to the end of its line; the
induction is on the words. Behind the line the reader has already passed over the indentation of the
next one.
-/

namespace ServiceContract.Yaml

variable {cs rest after : List Char}

/-- A text that can stand without quotes. -/
structure IsPlain (cs : List Char) : Prop where
  printable : ∀ c ∈ cs, isPrintable c = true ∧ isBreak c = false
  first : ∃ c rest, cs = c :: rest ∧ c ≠ ' ' ∧ isLeadingIndicator c rest.head? = false
  last : cs.getLast? ≠ some ' '
  inner : hasInnerIndicator cs = false
  marker : startsLikeMarker cs = false

/-- Whether nothing but a blank, a line end or the end follows. -/
def endsWord (rest : List Char) : Bool := rest.head?.all isBlankOrEnd

/-- No colon of a text ends a word. -/
def ColonsInside (cs : List Char) : Prop :=
  ∀ before after, cs = before ++ ':' :: after → endsWord after = false

/-- No word of a text starts a comment. -/
def HashesInside (cs : List Char) : Prop := ∀ before after, cs ≠ before ++ ' ' :: '#' :: after

/-- What stands behind a plain scalar: a blank or a line end, or the colon behind a key. -/
def EndsPlain (after : List Char) : Prop :=
  endsWord after = true ∨ ∃ more, after = ':' :: more ∧ endsWord more = true

theorem endsWord_append (h : endsWord cs = false) (rest : List Char) :
    endsWord (cs ++ rest) = false := by
  cases cs with
  | nil => cases h
  | cons c cs => exact h

theorem ColonsInside.word {w more before : List Char} (h : ColonsInside (w ++ more))
    (hw : w = before ++ ':' :: after) (rest : List Char) :
    endsWord (after ++ (more ++ rest)) = false := by
  rw [← List.append_assoc]
  refine endsWord_append (h before (after ++ more) ?_) rest
  rw [hw, List.append_assoc, List.cons_append]

theorem ColonsInside.drop {first : List Char} (h : ColonsInside (first ++ cs)) :
    ColonsInside cs := by
  intro before after hcs
  refine h (first ++ before) after ?_
  rw [hcs, List.append_assoc]

theorem HashesInside.drop {first : List Char} (h : HashesInside (first ++ cs)) :
    HashesInside cs := by
  intro before after hcs
  refine h (first ++ before) after ?_
  rw [hcs, List.append_assoc]

theorem isInnerIndicator_eq_false (inner : hasInnerIndicator cs = false) {before after : List Char}
    {previous c : Char} (h : cs = before ++ previous :: c :: after) :
    isInnerIndicator previous c after.head? = false := by
  induction before generalizing cs with
  | nil =>
    rw [List.nil_append] at h
    rw [h, hasInnerIndicator, Bool.or_eq_false_iff] at inner
    exact inner.1
  | cons d before ih =>
    obtain ⟨e, more, hmore⟩ : ∃ e more, before ++ previous :: c :: after = e :: more := by
      cases before with
      | nil => exact ⟨_, _, rfl⟩
      | cons e more => exact ⟨_, _, rfl⟩
    rw [List.cons_append, hmore] at h
    rw [h, hasInnerIndicator, Bool.or_eq_false_iff] at inner
    exact ih inner.2 hmore.symm

theorem IsPlain.colonsInside (plain : IsPlain cs) : ColonsInside cs := by
  intro before after h
  rcases List.eq_nil_or_concat before with rfl | ⟨before, previous, rfl⟩
  · obtain ⟨c, rest, hcs, -, leading⟩ := plain.first
    obtain ⟨rfl, rfl⟩ := List.cons.inj (hcs.symm.trans h)
    simpa [isLeadingIndicator, endsWord] using leading
  · rw [List.concat_eq_append, List.append_assoc, List.singleton_append] at h
    have inside := isInnerIndicator_eq_false plain.inner h
    simp only [isInnerIndicator, Bool.or_eq_false_iff, decide_true, Bool.true_and] at inside
    exact inside.1

theorem IsPlain.hashesInside (plain : IsPlain cs) : HashesInside cs := by
  intro before after h
  have inside := isInnerIndicator_eq_false plain.inner h
  simp [isInnerIndicator, isBlankOrEnd] at inside

theorem IsPlain.isSolid (plain : IsPlain cs) : ∀ c ∈ cs, c ≠ ' ' → IsSolid c := by
  intro c hc space
  obtain ⟨printable, line⟩ := plain.printable c hc
  exact isSolid_of_printable printable space line

/-! ## Words -/

/-- A text of words with spaces between them, none of which ends the scalar. -/
structure IsWords (cs : List Char) : Prop where
  nonempty : cs ≠ []
  solid : ∀ c ∈ cs, c ≠ ' ' → IsSolid c
  first : ∀ c ∈ cs.head?, c ≠ ' ' ∧ c ≠ '#'
  last : cs.getLast? ≠ some ' '
  colons : ColonsInside cs
  hashes : HashesInside cs

theorem IsPlain.isWords (plain : IsPlain cs) : IsWords cs := by
  obtain ⟨c, rest, rfl, space, leading⟩ := plain.first
  refine ⟨by simp, plain.isSolid, fun d hd => ?_, plain.last, plain.colonsInside,
    plain.hashesInside⟩
  obtain rfl : c = d := by simpa using hd
  refine ⟨space, ?_⟩
  rintro rfl
  cases leading

/-- The words behind some spaces are words. -/
theorem IsWords.behind_spaces {w : List Char} {k : Nat} {c : Char}
    (words : IsWords (w ++ (spaces (k + 1) ++ c :: rest))) (space : c ≠ ' ') :
    IsWords (c :: rest) := by
  have whole : w ++ (spaces (k + 1) ++ c :: rest) = (w ++ spaces (k + 1)) ++ c :: rest := by simp
  have last := words.last
  have colons := words.colons
  have hashes := words.hashes
  rw [whole] at last colons hashes
  refine ⟨by simp, fun d hd => words.solid d (by simp only [List.mem_append]; exact .inr (.inr hd)),
    fun d hd => ?_, by simpa [List.getLast?_append] using last, colons.drop, hashes.drop⟩
  obtain rfl : c = d := by simpa using hd
  refine ⟨space, ?_⟩
  rintro rfl
  exact hashes (w ++ spaces k) rest (by simp [spaces, List.replicate_succ'])

/-- Words are one of them, alone or with spaces and other words behind it. -/
theorem IsWords.exists_word (words : IsWords cs) :
    ∃ w more, cs = w ++ more ∧ w ≠ [] ∧ (∀ c ∈ w, IsSolid c) ∧
      (more = [] ∨ ∃ k others, more = spaces (k + 1) ++ others ∧ IsWords others) := by
  obtain ⟨w, more, rfl, hw, hmore⟩ := exists_run (· ≠ ' ') cs
  obtain ⟨k, others, rfl, hothers⟩ := exists_spaces more
  refine ⟨w, spaces k ++ others, rfl, ?_, fun c hc =>
    words.solid c (List.mem_append_left _ hc) (by simpa using hw c hc), ?_⟩
  · rintro rfl
    obtain ⟨c, rest, hcs⟩ := List.exists_cons_of_ne_nil words.nonempty
    rw [List.nil_append] at hcs
    have space := (words.first c (by rw [List.nil_append, hcs]; rfl)).1
    exact space (by simpa using hmore c (by rw [hcs]; rfl))
  · cases others with
    | nil =>
      cases k with
      | zero => exact .inl rfl
      | succ k =>
        have last := words.last
        simp [spaces, List.getLast?_append, List.getLast?_replicate] at last
    | cons c rest =>
      have space : c ≠ ' ' := hothers c rfl
      cases k with
      | zero => exact absurd (by simpa [spaces] using hmore c rfl) space
      | succ k => exact .inr ⟨k, c :: rest, rfl, words.behind_spaces space⟩

namespace Cursor

variable {cursor : Cursor} {indent fuel : Nat}

theorem endsAt_one {c : Char} (h : cursor.rest = c :: rest) : cursor.endsAt 1 = endsWord rest := by
  rw [endsAt, ahead?, h, endsWord]
  cases rest <;> rfl

/-- A word is read up to the blank, the line end or the bare colon that ends it. -/
theorem word?_eq (w : List Char) (h : cursor.rest = w ++ rest) (solid : ∀ c ∈ w, IsSolid c)
    (colons : ∀ before after, w = before ++ ':' :: after → endsWord (after ++ rest) = false)
    (ends : EndsPlain rest)
    (enough : w.length < fuel) :
    word? false fuel cursor = some (w, cursor.ahead w.length rest) := by
  induction w generalizing fuel cursor with
  | nil =>
    obtain ⟨fuel, rfl⟩ : ∃ m, fuel = m + 1 := ⟨fuel - 1, by omega⟩
    have hrest : cursor.rest = rest := h
    have here : cursor.ahead 0 rest = cursor := by rw [← hrest]; rfl
    rw [word?, next?, hrest, List.length_nil, here]
    rcases ends with ends | ⟨more, rfl, ends⟩
    · cases rest with
      | nil => rfl
      | cons c rest =>
        have separates : isBlankOrEnd c = true := ends
        simp [separates]
    · have colon : cursor.endsAt 1 = true := by rw [endsAt_one hrest, ends]
      simp [colon]
  | cons c w ih =>
    obtain ⟨fuel, rfl⟩ : ∃ m, fuel = m + 1 := ⟨fuel - 1, by simp at enough; omega⟩
    obtain ⟨hc, hw⟩ := List.forall_mem_cons.1 solid
    have inside : (c = ':' && cursor.endsAt 1) = false := by
      rw [List.cons_append] at h
      by_cases colon : c = ':'
      · subst colon
        rw [endsAt_one h, colons [] w rfl]
        rfl
      · simp [colon]
    rw [List.cons_append] at h
    have later : word? false fuel (cursor.ahead 1 (w ++ rest)) = _ := ih rfl hw
      (fun before after hw => colons (c :: before) after (by rw [hw, List.cons_append]))
      (by simpa using enough)
    have notEnd : isBlankOrEnd c = false := hc
    rw [word?, next?_eq h]
    simp only [notEnd, inside, Bool.false_and, Bool.or_false, Bool.false_eq_true, ↓reduceIte,
      skip_eq h, later, Option.map_some, ahead_ahead]
    rw [List.length_cons, Nat.add_comm]

/-- What comes behind the last word of a plain scalar: whether it is another line, and the cursor
there. -/
def plainEnd? (indent : Nat) (cursor : Cursor) : Option (Bool × Cursor) :=
  if cursor.next?.any fun c => isBlank c || isBreak c then
    (cursor.gap? indent (cursor.rest.length + 1) ⟨[], [], [], false⟩).bind fun (gap, cursor) =>
      if cursor.column < indent then some (gap.broken, cursor) else none
  else some (false, cursor)

theorem plainEnd?_cases {broken : Bool} {later : Cursor}
    (h : cursor.plainEnd? indent = some (broken, later)) :
    ((cursor.next?.any fun c => isBlank c || isBreak c) = true ∧
      ∃ gap, cursor.gap? indent (cursor.rest.length + 1) ⟨[], [], [], false⟩ = some (gap, later) ∧
        later.column < indent ∧ gap.broken = broken) ∨
    ((cursor.next?.any fun c => isBlank c || isBreak c) = false ∧ broken = false ∧
      later = cursor) := by
  unfold plainEnd? at h
  split at h
  · rename_i separates
    obtain ⟨⟨gap, stop⟩, hgap, hstop⟩ := Option.bind_eq_some_iff.1 h
    dsimp only at hstop
    by_cases outside : stop.column < indent
    · rw [if_pos outside] at hstop
      obtain ⟨rfl, rfl⟩ := Prod.mk.inj (Option.some.inj hstop)
      exact .inl ⟨separates, gap, hgap, outside, rfl⟩
    · rw [if_neg outside] at hstop
      cases hstop
  · rename_i separates
    obtain ⟨rfl, rfl⟩ := Prod.mk.inj (Option.some.inj h)
    exact .inr ⟨by simpa using separates, rfl, rfl⟩

/-- A key ends at its colon. -/
theorem plainEnd?_colon (h : cursor.rest = ':' :: rest) :
    cursor.plainEnd? indent = some (false, cursor) := by
  rw [plainEnd?, next?_eq h]
  rfl

/-- Any other scalar ends before the next token. -/
theorem plainEnd?_line {k : Nat} (h : cursor.rest = '\n' :: (spaces k ++ rest))
    (ends : EndsGap rest) (outside : k < indent) :
    ∃ later, cursor.plainEnd? indent = some (true, later) ∧ Below cursor rest k later := by
  have enough : ([] : List Char).length + k + 1 < cursor.rest.length + 1 := by
    rw [h, List.length_nil, List.length_cons, List.length_append, length_spaces]
    omega
  obtain ⟨later, hgap, below⟩ := gap?_lines indent [] k h ends
    (by intro c hc; obtain rfl := List.mem_singleton.1 hc; decide) enough
  refine ⟨later, ?_, below⟩
  have column : later.column < indent := by rw [below.column]; exact outside
  rw [plainEnd?, next?_eq h, hgap]
  simp [isBreak, column]

section Words

variable {w text : List Char} {gap : Gap} {broken : Bool} {later stop : Cursor}

/-- The last word of a plain scalar. -/
theorem plainFrom?_last (notMarker : cursor.atDocumentMarker = false)
    (notHash : cursor.nextIs '#' = false) (written : w ≠ [])
    (hword : word? false (cursor.rest.length + 1) cursor = some (w, stop))
    (finish : stop.plainEnd? indent = some (broken, later)) :
    plainFrom? false indent (fuel + 1) gap cursor = some (gap.fold ++ w, broken, later) := by
  rw [plainFrom?, notMarker, notHash, hword]
  simp only [Bool.or_self, Bool.false_eq_true, ↓reduceIte, written]
  rcases plainEnd?_cases finish with ⟨separates, gap', hgap, outside, rfl⟩ | ⟨separates, rfl, rfl⟩
  · rw [if_pos separates, hgap]
    simp [outside]
  · rw [if_neg (by simp [separates])]

/-- A word of a plain scalar with another one behind it. -/
theorem plainFrom?_more {k : Nat} (notMarker : cursor.atDocumentMarker = false)
    (notHash : cursor.nextIs '#' = false) (written : w ≠ [])
    (hword : word? false (cursor.rest.length + 1) cursor =
      some (w, cursor.ahead w.length (spaces (k + 1) ++ rest)))
    (ends : EndsGap rest) (column : indent ≤ cursor.column + 1)
    (next : plainFrom? false indent fuel ⟨spaces (k + 1), [], [], false⟩
      (cursor.ahead (w.length + (k + 1)) rest) = some (text, broken, later)) :
    plainFrom? false indent (fuel + 1) gap cursor =
      some (gap.fold ++ w ++ text, broken, later) := by
  have enough : k + 1 < (spaces (k + 1) ++ rest).length + 1 := by
    rw [List.length_append, length_spaces]
    omega
  have hgap := gap?_spaces indent (k + 1) [] (rest_ahead cursor w.length _) ends enough
  have blank : ((cursor.ahead w.length (spaces (k + 1) ++ rest)).next?.any fun c =>
      isBlank c || isBreak c) = true := rfl
  have inside : ¬cursor.column + (w.length + (k + 1)) < indent := by omega
  rw [plainFrom?, notMarker, notHash, hword]
  simp only [Bool.or_self, Bool.false_eq_true, ↓reduceIte, written]
  rw [if_pos blank, rest_ahead, hgap]
  simp [inside, next]

end Words

/-- Words are read one after the other. -/
theorem plainFrom?_eq (cs : List Char) (gap : Gap) (h : cursor.rest = cs ++ after)
    (words : IsWords cs) (notMarker : cursor.atDocumentMarker = false)
    (column : indent ≤ cursor.column + 1) (ends : EndsPlain after) {broken : Bool} {later : Cursor}
    (finish : (cursor.ahead cs.length after).plainEnd? indent = some (broken, later))
    (enough : cs.length < fuel) :
    plainFrom? false indent fuel gap cursor = some (gap.fold ++ cs, broken, later) := by
  induction hn : cs.length using Nat.strongRecOn generalizing cs gap cursor fuel with
  | ind n ih =>
    obtain ⟨fuel, rfl⟩ : ∃ m, fuel = m + 1 := ⟨fuel - 1, by omega⟩
    have notHash : cursor.nextIs '#' = false := by
      obtain ⟨c, rest, rfl⟩ := List.exists_cons_of_ne_nil words.nonempty
      refine nextIs_eq_false ?_
      rw [h]
      exact fun d hd => (words.first d hd).2
    obtain ⟨w, more, rfl, written, solid, tail⟩ := words.exists_word
    rw [List.append_assoc] at h
    have hword (stops : EndsPlain (more ++ after)) :
        word? false (cursor.rest.length + 1) cursor =
          some (w, cursor.ahead w.length (more ++ after)) :=
      word?_eq w h solid (fun before after' hw => words.colons.word hw after) stops
        (by rw [h, List.length_append]; omega)
    rcases tail with rfl | ⟨k, others, rfl, otherWords⟩
    · rw [List.append_nil] at finish ⊢
      exact plainFrom?_last notMarker notHash written (hword ends) finish
    · obtain ⟨c, rest, rfl⟩ := List.exists_cons_of_ne_nil otherWords.nonempty
      have length : (w ++ (spaces (k + 1) ++ c :: rest)).length =
          w.length + (k + 1) + (c :: rest).length := by
        rw [List.length_append, List.length_append, length_spaces]
        omega
      rw [length] at finish hn
      have separates : IsSolid c :=
        otherWords.solid c List.mem_cons_self (otherWords.first c rfl).1
      have next : plainFrom? false indent fuel ⟨spaces (k + 1), [], [], false⟩
          (cursor.ahead (w.length + (k + 1)) (c :: rest ++ after)) =
            some (spaces (k + 1) ++ c :: rest, broken, later) := by
        refine ih (c :: rest).length (by omega) (c :: rest) _ rfl otherWords ?_ ?_ ?_ ?_ rfl
        · exact atDocumentMarker_eq_false (by rw [column_ahead]; omega)
        · rw [column_ahead]
          omega
        · simpa using finish
        · omega
      rw [← List.append_assoc]
      have spaced : spaces (k + 1) ++ c :: rest ++ after =
          spaces (k + 1) ++ (c :: rest ++ after) := List.append_assoc ..
      rw [spaced] at hword
      exact plainFrom?_more notMarker notHash written (hword (.inl rfl)) (endsGap_cons separates)
        column next

/-- A plain text starts no document and ends none. -/
theorem atDocumentMarker_of_plain (plain : IsPlain cs) (h : cursor.rest = cs ++ after)
    (ends : endsWord after = true ∨ ∃ more, after = ':' :: more ∧ endsWord more = true) :
    cursor.atDocumentMarker = false := by
  have differs (d : Char) (hd : d = '-' ∨ d = '.') : cursor.atMarker d = false := by
    have behind : ∀ r, after ≠ d :: r := by
      rintro r rfl
      rcases ends with ends | ⟨more, hmore, -⟩
      · rcases hd with rfl | rfl <;> cases ends
      · rcases hd with rfl | rfl <;> cases hmore
    have front : ∀ r, cs ≠ d :: d :: d :: r := by
      rintro r rfl
      have marker := plain.marker
      rcases hd with rfl | rfl <;> cases marker
    have other : cursor.rest.take 3 ≠ [d, d, d] := by
      rw [h]
      intro same
      have whole := List.take_append_drop 3 (cs ++ after)
      rw [same] at whole
      rcases List.append_eq_cons_iff.1 whole.symm with ⟨-, text⟩ | ⟨cs, rfl, two⟩
      · exact behind _ text
      rcases List.append_eq_cons_iff.1 two.symm with ⟨-, text⟩ | ⟨cs, rfl, one⟩
      · exact behind _ text
      rcases List.append_eq_cons_iff.1 one.symm with ⟨-, text⟩ | ⟨cs, rfl, -⟩
      · exact behind _ text
      · exact front _ rfl
    simp [atMarker, other]
  rw [atDocumentMarker, differs '-' (.inl rfl), differs '.' (.inr rfl), Bool.or_self]

/-- A plain text is read up to what ends it. -/
theorem plainScalar?_eq {parent : Int} (plain : IsPlain cs) (h : cursor.rest = cs ++ after)
    (column : parent ≤ cursor.column)
    (ends : EndsPlain after)
    {broken : Bool} {later : Cursor}
    (finish : (cursor.ahead cs.length after).plainEnd? (parent + 1).toNat = some (broken, later)) :
    cursor.plainScalar? false parent = some (String.ofList cs, broken, later) := by
  have enough : cs.length < cursor.rest.length + 1 := by
    rw [h, List.length_append]
    omega
  rw [plainScalar?, plainFrom?_eq cs ⟨[], [], [], false⟩ h plain.isWords
    (atDocumentMarker_of_plain plain h ends) (by omega) ends finish enough]
  rfl

/-! ## Colons that end a line -/

/-- No word stands in front of a colon that is alone. -/
theorem plainFrom?_alone {gap : Gap} (h : cursor.rest = ':' :: after) (ends : endsWord after = true)
    (inside : 0 < cursor.column) (unbroken : gap.broken = false) :
    plainFrom? false indent (fuel + 1) gap cursor = some ([], false, cursor) := by
  have notMarker : cursor.atDocumentMarker = false := atDocumentMarker_eq_false inside
  have notHash : cursor.nextIs '#' = false := nextIs_eq_false (by rw [h]; simp)
  have own : cursor.ahead 0 (':' :: after) = cursor := by rw [← h]; rfl
  have hword : word? false (cursor.rest.length + 1) cursor = some ([], cursor) := by
    rw [word?_eq [] h nofun (by simp) (.inr ⟨after, rfl, ends⟩) (Nat.succ_pos _), List.length_nil,
      own]
  have notBlank : (cursor.next?.any fun c => isBlank c || isBreak c) = false := by
    rw [next?_eq h]
    rfl
  rw [plainFrom?, notMarker, notHash, hword]
  simp [notBlank, unbroken]

/-- Words are read up to a colon that ends the last of them or stands alone behind it. -/
theorem plainFrom?_colon (cs : List Char) (gap : Gap) (h : cursor.rest = cs ++ ':' :: after)
    (ends : endsWord after = true) (solid : ∀ c ∈ cs, c ≠ ' ' → IsSolid c)
    (first : ∀ c ∈ cs.head?, c ≠ ' ' ∧ c ≠ '#')
    (colons : ∀ before more, cs = before ++ ':' :: more → endsWord (more ++ ':' :: after) = false)
    (hashes : HashesInside cs) (inside : 0 < cursor.column) (column : indent ≤ cursor.column + 1)
    (unbroken : gap.broken = false) (enough : cs.length < fuel) :
    ∃ text later, plainFrom? false indent fuel gap cursor = some (text, false, later) ∧
      later.rest = ':' :: after ∧ cursor.column ≤ later.column := by
  induction hn : cs.length using Nat.strongRecOn generalizing cs gap cursor fuel with
  | ind n ih =>
    obtain ⟨fuel, rfl⟩ : ∃ m, fuel = m + 1 := ⟨fuel - 1, by omega⟩
    by_cases none : cs = []
    · subst none
      exact ⟨[], cursor, plainFrom?_alone h ends inside unbroken, h, Nat.le_refl _⟩
    have notMarker : cursor.atDocumentMarker = false := atDocumentMarker_eq_false inside
    have notHash : cursor.nextIs '#' = false := by
      obtain ⟨c, cs, rfl⟩ := List.exists_cons_of_ne_nil none
      exact nextIs_eq_false (by rw [h]; exact fun d hd => (first d hd).2)
    obtain ⟨w, more, rfl, hw, hmore⟩ := exists_run (· ≠ ' ') cs
    have written : w ≠ [] := by
      rintro rfl
      obtain ⟨c, more, rfl⟩ := List.exists_cons_of_ne_nil none
      exact (first c rfl).1 (by simpa using hmore c rfl)
    have wordSolid : ∀ c ∈ w, IsSolid c := fun c hc =>
      solid c (List.mem_append_left _ hc) (by simpa using hw c hc)
    rw [List.append_assoc] at h
    have hword (stops : EndsPlain (more ++ ':' :: after)) :
        word? false (cursor.rest.length + 1) cursor =
          some (w, cursor.ahead w.length (more ++ ':' :: after)) := by
      refine word?_eq w h wordSolid (fun before rest hw => ?_) stops ?_
      · rw [← List.append_assoc]
        exact colons before (rest ++ more) (by rw [hw, List.append_assoc, List.cons_append])
      · rw [h, List.length_append]
        omega
    obtain ⟨k, others, rfl, hothers⟩ := exists_spaces more
    cases k with
    | zero =>
      -- The run ends where the words do, so the colon ends the last one.
      obtain rfl : others = [] := by
        cases others with
        | nil => rfl
        | cons c others => exact absurd (by simpa [spaces] using hmore c rfl) (hothers c rfl)
      have colon : EndsPlain (':' :: after) := .inr ⟨after, rfl, ends⟩
      exact ⟨_, _, plainFrom?_last notMarker notHash written (hword colon) (plainEnd?_colon rfl),
        rfl, by simp⟩
    | succ k =>
      have whole : w ++ (spaces (k + 1) ++ others) = (w ++ spaces (k + 1)) ++ others := by simp
      have spaced : spaces (k + 1) ++ others ++ ':' :: after =
          spaces (k + 1) ++ (others ++ ':' :: after) := List.append_assoc ..
      rw [whole] at hashes
      have gapEnds : EndsGap (others ++ ':' :: after) := by
        cases others with
        | nil => exact endsGap_cons rfl
        | cons c others => exact endsGap_cons (solid c (by simp) (hothers c rfl))
      have next : ∃ text later, plainFrom? false indent fuel ⟨spaces (k + 1), [], [], false⟩
          (cursor.ahead (w.length + (k + 1)) (others ++ ':' :: after)) =
            some (text, false, later) ∧ later.rest = ':' :: after ∧
              cursor.column + (w.length + (k + 1)) ≤ later.column := by
        refine ih others.length (by simp at hn; omega) others _ rfl
          (fun c hc => solid c (by simp [hc])) (fun c hc => ⟨hothers c hc, ?_⟩)
          (fun before more hmore => ?_) hashes.drop ?_ ?_ rfl (by simp at enough; omega) rfl
        · rintro rfl
          obtain ⟨others, rfl⟩ : ∃ rest, others = '#' :: rest := List.head?_eq_some_iff.1 hc
          exact hashes (w ++ spaces k) others (by simp [spaces, List.replicate_succ'])
        · exact colons (w ++ spaces (k + 1) ++ before) more (by rw [whole, hmore]; simp)
        · rw [column_ahead]
          omega
        · rw [column_ahead]
          omega
      obtain ⟨text, later, hread, hrest, hcolumn⟩ := next
      rw [spaced] at hword
      exact ⟨_, later, plainFrom?_more notMarker notHash written (hword (.inl rfl)) gapEnds column
        hread, hrest, by omega⟩

/-- A plain text is read up to one of its colons if the line ends there. -/
theorem plainScalar?_colon {parent : Int} {more : List Char} (plain : IsPlain (cs ++ ':' :: more))
    (h : cursor.rest = cs ++ ':' :: after) (ends : endsWord after = true)
    (inside : 0 < cursor.column) (column : parent ≤ cursor.column) :
    ∃ text later, cursor.plainScalar? false parent = some (text, false, later) ∧
      later.rest = ':' :: after ∧ cursor.column ≤ later.column := by
  have solid : ∀ c ∈ cs, c ≠ ' ' → IsSolid c := fun c hc =>
    plain.isSolid c (List.mem_append_left _ hc)
  have first : ∀ c ∈ cs.head?, c ≠ ' ' ∧ c ≠ '#' := by
    intro c hc
    refine plain.isWords.first c ?_
    rw [List.head?_append, hc, Option.some_or]
    rfl
  have colons : ∀ before rest, cs = before ++ ':' :: rest →
      endsWord (rest ++ ':' :: after) = false := by
    intro before rest split
    have own := plain.colonsInside before (rest ++ ':' :: more) (by rw [split]; simp)
    cases rest with
    | nil => rfl
    | cons c rest => exact own
  have hashes : HashesInside cs := by
    intro before rest split
    exact plain.hashesInside before (rest ++ ':' :: more) (by rw [split]; simp)
  have near : (parent + 1).toNat ≤ cursor.column + 1 := by omega
  have enough : cs.length < cursor.rest.length + 1 := by
    rw [h, List.length_append]
    omega
  obtain ⟨text, later, read, hrest, hcolumn⟩ := plainFrom?_colon cs ⟨[], [], [], false⟩ h ends solid
    first colons hashes inside near rfl enough
  refine ⟨String.ofList text, later, ?_, hrest, hcolumn⟩
  rw [plainScalar?, read]
  rfl

end Cursor

end ServiceContract.Yaml
