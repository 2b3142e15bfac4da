import ServiceContract.Proofs.Digits
import ServiceContract.Proofs.Yaml.Literal
import ServiceContract.Proofs.Yaml.Plain
import ServiceContract.Proofs.Yaml.Quoted

/-!
# What the styles of a text allow

A text is written in a style only if its characters allow the style, so that it can be read back.
Words and whole numbers can always be written plainly, and whatever is written is allowed in a text.
-/

namespace ServiceContract.Yaml

variable {s : String} {inKey : Bool}

theorem printable_of_special (h : (Traits.of s.toList).special = false) :
    ∀ c ∈ s.toList, isPrintable c = true := by
  intro c hc
  have plain := List.any_eq_false.1 h c hc
  simpa using plain

/-- The styles that a wish for a style can lead to. -/
theorem Style.of_cases (inKey : Bool) (s : String) :
    let t := Traits.of s.toList
    (Style.of inKey s = .plain → Style.wanted s = .plain ∧ t.special = false ∧
      t.multiline = false ∧ t.openEnds = false ∧ t.indicators = false) ∧
    (Style.of inKey s = .singleQuoted → Style.wanted s ≠ .literal ∧ t.special = false ∧
      t.spaceBreak = false ∧ t.breakSpace = false) ∧
    (Style.of inKey s = .literal → Style.wanted s = .literal ∧ t.special = false) := by
  intro t
  refine ⟨fun h => ?_, fun h => ?_, fun h => ?_⟩
  all_goals
    unfold Style.of at h
    cases hw : Style.wanted s <;> rw [hw] at h <;> dsimp only at h
    all_goals repeat' split at h
    all_goals simp_all [t]

theorem not_mem_of_wanted (h : Style.wanted s ≠ .literal) : '\n' ∉ s.toList := by
  intro newline
  refine h ?_
  have found : s.toList.contains '\n' = true := by simpa using newline
  rw [Style.wanted, if_pos found]

/-- A text that is written plainly can stand without quotes. -/
theorem isPlain_of_style (h : Style.of inKey s = .plain) : IsPlain s.toList := by
  obtain ⟨wanted, special, multiline, openEnds, indicators⟩ := (Style.of_cases inKey s).1 h
  have nonempty : s.toList ≠ [] := by
    intro empty
    obtain rfl : s = "" := String.toList_inj.1 empty
    cases wanted
  simp only [Traits.of, Bool.or_eq_false_iff] at multiline openEnds indicators
  obtain ⟨c, rest, hs⟩ := List.exists_cons_of_ne_nil nonempty
  have first : c ≠ ' ' := by
    have := openEnds.1
    simp only [hs, List.head?_cons, Option.any_some, Bool.or_eq_false_iff] at this
    simpa [isSpace] using this.1
  have leading : isLeadingIndicator c rest.head? = false := by
    simpa [hs] using indicators.1.2
  have last : s.toList.getLast? ≠ some ' ' := by
    intro space
    have := openEnds.2
    rw [space] at this
    cases this
  refine ⟨fun c hc => ⟨printable_of_special special c hc, ?_⟩, ⟨c, rest, hs, first, leading⟩,
    last, indicators.2, indicators.1.1⟩
  have inside := List.any_eq_false.1 multiline c hc
  simpa using inside

/-- A text that is written in single quotes can stand there. -/
theorem isQuotable_of_style (h : Style.of inKey s = .singleQuoted) : IsQuotable s.toList := by
  obtain ⟨wanted, special, spaceBreak, breakSpace⟩ := (Style.of_cases inKey s).2.1 h
  exact ⟨printable_of_special special, not_mem_of_wanted wanted, breakSpace, spaceBreak⟩

/-- A text that is written as a block can stand in one. -/
theorem isLiteral_of_style (h : Style.of inKey s = .literal) : IsLiteral s.toList := by
  obtain ⟨wanted, special⟩ := (Style.of_cases inKey s).2.2 h
  refine ⟨printable_of_special special, fun empty => ?_⟩
  obtain rfl : s = "" := String.toList_inj.1 empty
  cases wanted

/-! ## Words and numbers -/

theorem isPrintable_of_alphanum {c : Char} (h : c.isAlphanum = true) : isPrintable c = true := by
  have range : 48 ≤ c.toNat ∧ c.toNat ≤ 122 := by
    delta Char.isAlphanum Char.isAlpha Char.isUpper Char.isLower Char.isDigit at h
    simp only [Bool.or_eq_true, Bool.and_eq_true, decide_eq_true_eq, ge_iff_le,
      UInt32.le_iff_toNat_le] at h
    rcases h with (⟨above, below⟩ | ⟨above, below⟩) | ⟨above, below⟩
    all_goals
      simp at above below
      omega
  simp only [isPrintable, Bool.or_eq_true, Bool.and_eq_true, decide_eq_true_eq]
  omega

theorem isSolid_of_alphanum {c : Char} (h : c.isAlphanum = true) : IsSolid c := by
  simp only [IsSolid, isBlankOrEnd, isBreak, Bool.or_eq_false_iff, decide_eq_false_iff_not]
  refine ⟨⟨⟨?_, ?_⟩, ⟨⟨⟨?_, ?_⟩, ?_⟩, ?_⟩, ?_⟩, ?_⟩ <;>
  · rintro rfl
    cases h

theorem hasInnerIndicator_eq_false {cs : List Char} (h : ∀ c ∈ cs, c ≠ ':' ∧ c ≠ '#') :
    hasInnerIndicator cs = false := by
  induction cs with
  | nil => rfl
  | cons previous cs ih =>
    cases cs with
    | nil => rfl
    | cons c rest =>
      have none : isInnerIndicator previous c rest.head? = false := by
        simp [isInnerIndicator, h c (by simp)]
      rw [hasInnerIndicator, none, Bool.false_or]
      exact ih fun d hd => h d (List.mem_cons_of_mem _ hd)

/-- Letters, digits and hyphens mean nothing else behind the first character. -/
theorem isPlain_of_word {c : Char} {cs : List Char}
    (inside : ∀ d ∈ c :: cs, d.isAlphanum = true ∨ d = '-')
    (leading : isLeadingIndicator c cs.head? = false)
    (marker : startsLikeMarker (c :: cs) = false) : IsPlain (c :: cs) := by
  have others : ∀ d ∈ c :: cs, d ≠ ' ' ∧ d ≠ ':' ∧ d ≠ '#' := by
    intro d hd
    refine ⟨?_, ?_, ?_⟩ <;>
    · rintro rfl
      exact absurd (inside _ hd) (by decide)
  refine ⟨fun d hd => ?_, ⟨c, cs, rfl, (others c List.mem_cons_self).1, leading⟩, ?_, ?_, marker⟩
  · rcases inside d hd with word | rfl
    · exact ⟨isPrintable_of_alphanum word, (isSolid_of_alphanum word).isBreak_eq⟩
    · exact ⟨rfl, rfl⟩
  · intro last
    exact (others ' ' (List.mem_of_getLast? last)).1 rfl
  · exact hasInnerIndicator_eq_false fun d hd => (others d hd).2

/-- Letters and digits can stand without quotes. -/
theorem isPlain_of_alphanum {cs : List Char} (nonempty : cs ≠ [])
    (all : cs.all Char.isAlphanum = true) : IsPlain cs := by
  have all := List.all_eq_true.1 all
  obtain ⟨c, cs, rfl⟩ := List.exists_cons_of_ne_nil nonempty
  have hc := all c List.mem_cons_self
  have indicators : "?:-#,[]\x7b\x7d&*!|>'\"%@`.".toList.any Char.isAlphanum = false := by decide
  have other : ∀ d ∈ "?:-#,[]\x7b\x7d&*!|>'\"%@`.".toList, c ≠ d := by
    rintro d hd rfl
    exact List.any_eq_false.1 indicators c hd hc
  refine isPlain_of_word (fun d hd => .inl (all d hd)) ?_ ?_
  · simp at other
    simp [isLeadingIndicator, other]
  · simp at other
    simp [startsLikeMarker, other]

theorem isPlain_intChars (n : Int) : IsPlain (Json.intChars n) := by
  have digits : ∀ c ∈ Nat.toDigits 10 n.natAbs, c.isAlphanum = true := by
    intro c hc
    have digit := isDigit_toDigits _ c hc
    simp [Char.isAlphanum, digit]
  obtain ⟨d, ds, hdigits, hd⟩ := exists_digit_toDigits n.natAbs
  rw [Json.intChars]
  split
  · rw [hdigits] at digits ⊢
    have word := digits d List.mem_cons_self
    refine isPlain_of_word (fun c hc => ?_) ?_ ?_
    · rcases List.mem_cons.1 hc with rfl | hc
      · exact .inr rfl
      · exact .inl (digits c hc)
    · have solid : isBlankOrEnd d = false := isSolid_of_alphanum word
      simp [isLeadingIndicator, solid]
    · have notHyphen : d ≠ '-' := by
        rintro rfl
        cases word
      simp [startsLikeMarker, notHyphen]
  · exact isPlain_of_alphanum (by simp [hdigits]) (List.all_eq_true.2 digits)

end ServiceContract.Yaml
