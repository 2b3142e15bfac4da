import Mathlib.Algebra.GroupWithZero.Nat
import ServiceContract.Proofs.CommandLine

/-!
# Flags at several levels

A flag that every level knows may stand before the subcommand, behind it, or at both places. What
the words of an accepted line spell is what its levels were given, one level after the other
(`given_of_readFrom`): no flag is lost, and none is made up. But the levels are checked one by one,
and a count is that of one level. So silence and talk exclude each other only where one level has
both, and only the innermost level that has a counted flag counts (`commonFlags_by_level`).
-/

namespace ServiceContract.CommandLine

/-! ## The flags that words spell -/

namespace Flag

def all : List Flag := common ++ [allGroups, group, failFast, detailed, path, force, format]

/-- The flag with a long name, whichever level knows it. -/
def ofName? (name : String) : Option Flag := all.find? fun flag => flag.long == name

/-- The flag with a letter, whichever level knows it. -/
def ofLetter? (letter : Char) : Option Flag := all.find? fun flag => flag.short? == some letter

/-- The flags of a cluster. It ends with a flag that takes a value. -/
def ofLetters : List Char → List Flag
  | [] => []
  | letter :: letters =>
    match ofLetter? letter with
    | none => []
    | some flag => flag :: if flag.takesValue then [] else ofLetters letters

/-- The flags that a word spells. -/
def ofWord : Word → List Flag
  | .long name _ => (ofName? name).toList
  | .short letters => ofLetters letters
  | .escape | .plain => []

/-- The flags that a line spells before two dashes alone end the flags. -/
def mentioned : List String → List Flag
  | [] => []
  | text :: texts =>
    match Word.ofText text with
    | .escape => []
    | word => ofWord word ++ mentioned texts

theorem ofName?_long (flag : Flag) : ofName? flag.long = some flag := by
  cases flag <;> decide

theorem ofLetter?_of_short? {flag : Flag} {letter : Char} (h : flag.short? = some letter) :
    ofLetter? letter = some flag := by
  cases flag <;> cases h <;> decide

end Flag

namespace Level

variable {level inner : Level} {flag : Flag}

theorem ofName?_of_long? {name : String} (h : level.long? name = some flag) :
    Flag.ofName? name = some flag := by
  have same : flag.long = name := beq_iff_eq.1 (List.find?_some h :)
  rw [← same, Flag.ofName?_long]

theorem ofLetter?_of_short? {letter : Char} (h : level.short? letter = some flag) :
    Flag.ofLetter? letter = some flag :=
  Flag.ofLetter?_of_short? (beq_iff_eq.1 (List.find?_some h :))

/-- The name of a subcommand is no flag. -/
theorem ofText_of_subcommand? {text : String} (h : level.subcommand? text = some inner) :
    Word.ofText text = .plain := by
  obtain ⟨_, _, split, -⟩ := List.lookup_eq_some_iff.1 h
  have mem : (text, inner) ∈ level.subcommands := by rw [split]; simp
  have plain : ∀ entry ∈ level.subcommands, Word.ofText entry.1 = .plain := by
    cases level <;> decide +kernel
  exact plain _ mem

end Level

/-! ## The flags that a level has read -/

namespace Reading

/-- The flags that were given, the last one perhaps unchecked. -/
def flags (r : Reading) : List Flag :=
  r.given.map (·.flag) ++
    match r.pending with
    | .flag flag _ => [flag]
    | .nothing | .operands _ => []

/-- A level reads on: it gets some more flags, and operands may follow. -/
structure Gets (r r' : Reading) (more : List Flag) : Prop where
  flags : r'.flags = r.flags ++ more
  literal : r'.literal = r.literal

variable {level : Level} {r r' : Reading} {flag : Flag} {more : List Flag} {value : Option String}
  {environment : Option String}

theorem Gets.trans {r₁ r₂ r₃ : Reading} {flags more : List Flag} (first : Gets r₁ r₂ flags)
    (later : Gets r₂ r₃ more) : Gets r₁ r₃ (flags ++ more) where
  flags := by rw [later.flags, first.flags, List.append_assoc]
  literal := later.literal.trans first.literal

theorem push_of_pushOnce (h : r.pushOnce flag value = .ok r') : r' = r.push flag value := by
  unfold pushOnce at h
  split at h
  · cases h
  · exact (Except.ok.inj h).symm

/-- A flag that is kept is the last one given. -/
theorem exists_push_of_record (h : r.record flag value = .ok r') : ∃ v, r' = r.push flag v := by
  unfold record at h
  split at h
  · exact ⟨_, (Except.ok.inj h).symm⟩
  · exact ⟨_, push_of_pushOnce h⟩
  · cases h
  · obtain ⟨s, once, h⟩ := bind_eq_ok_iff.1 h
    obtain ⟨-, -, h⟩ := bind_eq_ok_iff.1 h
    obtain rfl := Except.ok.inj h
    exact ⟨_, push_of_pushOnce once⟩
  · cases h
  · obtain ⟨-, -, h⟩ := bind_eq_ok_iff.1 h
    exact ⟨_, (Except.ok.inj h).symm⟩
  · cases h
  · cases h

theorem gets_of_record (settled : r.pending = .nothing) (h : r.record flag value = .ok r') :
    Gets r r' [flag] ∧ r'.pending = .nothing := by
  obtain ⟨v, rfl⟩ := exists_push_of_record h
  refine ⟨⟨?_, rfl⟩, settled⟩
  simp [flags, push, settled]

theorem gets_of_settle (h : r.settle level = .ok r') : Gets r r' [] ∧ r'.pending = .nothing := by
  unfold settle at h
  split at h
  · next pending =>
    obtain rfl := Except.ok.inj h
    exact ⟨⟨(List.append_nil _).symm, rfl⟩, pending⟩
  · next flag value pending =>
    obtain ⟨⟨flags, literal⟩, settled⟩ := gets_of_record rfl h
    refine ⟨⟨?_, literal⟩, settled⟩
    rw [flags]
    simp [Reading.flags, pending]
  · next words pending =>
    split at h
    · obtain rfl := Except.ok.inj h
      refine ⟨⟨?_, rfl⟩, rfl⟩
      simp [Reading.flags, pending]
    · cases h

theorem gets_of_complete (h : r.complete level flag value = .ok r') : Gets r r' [flag] := by
  obtain ⟨s, settle, record⟩ := bind_eq_ok_iff.1 h
  obtain ⟨first, settled⟩ := gets_of_settle settle
  exact first.trans (gets_of_record settled record).1

theorem gets_of_await (h : r.await level flag = .ok r') : Gets r r' [flag] := by
  obtain ⟨s, settle, h⟩ := bind_eq_ok_iff.1 h
  obtain rfl := Except.ok.inj h
  obtain ⟨first, settled⟩ := gets_of_settle settle
  refine first.trans ⟨?_, rfl⟩
  simp [flags, settled]

theorem gets_of_long {name : String} (h : r.long level name value = .ok r') :
    Gets r r' (Flag.ofName? name).toList := by
  unfold long at h
  split at h
  · cases h
  · next flag known =>
    rw [Level.ofName?_of_long? known]
    split at h
    · exact gets_of_await h
    · exact gets_of_complete h
    · exact gets_of_complete h
    · cases h

theorem gets_of_cluster {letters : List Char} (h : r.cluster level letters = .ok r') :
    Gets r r' (Flag.ofLetters letters) := by
  induction letters generalizing r with
  | nil =>
    obtain rfl := Except.ok.inj h
    exact ⟨(List.append_nil _).symm, rfl⟩
  | cons letter letters ih =>
    unfold cluster at h
    split at h
    · cases h
    · next flag known =>
      rw [Flag.ofLetters, Level.ofLetter?_of_short? known]
      dsimp only
      split at h
      · next takesValue =>
        rw [if_pos takesValue]
        split at h
        · exact gets_of_await h
        · exact gets_of_complete h
      · next takesNone =>
        obtain ⟨s, complete, h⟩ := bind_eq_ok_iff.1 h
        rw [if_neg takesNone]
        exact (gets_of_complete complete).trans (ih h)

theorem gets_of_operand {text : String} (h : r.operand level text = .ok r') : Gets r r' [] := by
  unfold operand at h
  split at h
  · cases h
  split at h
  · cases h
  split at h
  · next words pending =>
    obtain rfl := Except.ok.inj h
    exact ⟨by simp [flags, pending], rfl⟩
  · next pending =>
    obtain rfl := Except.ok.inj h
    exact ⟨by simp [flags, pending], rfl⟩
  · obtain ⟨s, settle, h⟩ := bind_eq_ok_iff.1 h
    obtain rfl := Except.ok.inj h
    obtain ⟨first, settled⟩ := gets_of_settle settle
    exact first.trans ⟨by simp [flags, settled], rfl⟩

/-- What a word leads to: two dashes alone end the flags, other words give what they spell. -/
theorem gets_of_word {text : String} (calm : r.literal = false) (h : r.word level text = .ok r') :
    (Word.ofText text = .escape ∧ r'.flags = r.flags ∧ r'.literal = true) ∨
      (Word.ofText text ≠ .escape ∧ Gets r r' (Flag.ofWord (Word.ofText text))) := by
  unfold word at h
  rw [if_neg (by simp [calm])] at h
  split at h
  · next form =>
    obtain rfl := Except.ok.inj h
    exact .inl ⟨form, rfl, rfl⟩
  · next form =>
    rw [form]
    exact .inr ⟨nofun, gets_of_long h⟩
  · next form =>
    rw [form]
    exact .inr ⟨nofun, gets_of_cluster h⟩
  · next form =>
    rw [form]
    refine .inr ⟨nofun, ?_⟩
    split at h
    · next flag awaits =>
      obtain rfl := Except.ok.inj h
      -- The word is the value that the last flag waits for.
      refine ⟨?_, rfl⟩
      unfold awaiting? at awaits
      split at awaits
      · next pending =>
        rw [if_neg (by simp [calm])] at awaits
        obtain rfl := Option.some.inj awaits
        simp [flags, pending, Flag.ofWord]
      · cases awaits
      · cases awaits
      · cases awaits
    · exact gets_of_operand h

theorem gets_of_word_literal {text : String} (literal : r.literal = true)
    (h : r.word level text = .ok r') : Gets r r' [] := by
  unfold word at h
  rw [if_pos literal] at h
  exact gets_of_operand h

/-- The checks of a whole level change nothing. -/
theorem settle_of_finish {entered : Bool} (h : r.finish environment level entered = .ok r') :
    r.settle level = .ok r' := by
  unfold finish at h
  obtain ⟨s, settle, h⟩ := bind_eq_ok_iff.1 h
  simp only [bind, Except.bind, throw, throwThe, MonadExceptOf.throw, pure, Except.pure] at h
  split at h
  · cases h
  split at h
  · cases h
  split at h
  · cases h
  split at h
  · cases h
  · rw [settle, h]

theorem given_of_finish {entered : Bool} (h : r.finish environment level entered = .ok r') :
    r'.given.map (·.flag) = r.flags := by
  obtain ⟨⟨flags, -⟩, settled⟩ := gets_of_settle (settle_of_finish h)
  rw [← List.append_nil r.flags, ← flags, Reading.flags, settled]
  simp

end Reading

variable {environment : Option String} {level : Level} {r : Reading} {words : List String}
  {levels : List (Level × Reading)}

/-- The flags that the levels of a line were given, from the outermost level on. -/
def given (levels : List (Level × Reading)) : List Flag :=
  levels.flatMap fun level => level.2.given.map (·.flag)

/-- The levels of an accepted line were given what the line spells. -/
theorem given_of_readFrom (h : readFrom environment level r words = .ok levels) :
    given levels = r.flags ++ if r.literal then [] else Flag.mentioned words := by
  induction words generalizing level r levels with
  | nil =>
    obtain ⟨r', finish, h⟩ := bind_eq_ok_iff.1 h
    obtain rfl := Except.ok.inj h
    simp [given, Reading.given_of_finish finish, Flag.mentioned]
  | cons word words ih =>
    unfold readFrom at h
    split at h
    · cases h
    split at h
    · next inner enters =>
      obtain ⟨inside, hinside, h⟩ := bind_eq_ok_iff.1 h
      obtain ⟨r', finish, h⟩ := bind_eq_ok_iff.1 h
      obtain rfl := Except.ok.inj h
      split at enters
      · next free =>
        have calm : r.literal = false := by simp_all
        have plain := Level.ofText_of_subcommand? enters
        rw [given, List.flatMap_cons, Reading.given_of_finish finish, ← given, ih hinside]
        simp [calm, Flag.mentioned, plain, Flag.ofWord, Reading.flags, Reading.empty]
      · cases enters
    · obtain ⟨r', step, h⟩ := bind_eq_ok_iff.1 h
      rw [ih h]
      cases calm : r.literal with
      | true =>
        obtain ⟨flags, literal⟩ := Reading.gets_of_word_literal calm step
        rw [flags, literal, calm]
        simp
      | false =>
        rcases Reading.gets_of_word calm step with ⟨form, flags, literal⟩ | ⟨form, flags, literal⟩
        · rw [flags, literal]
          simp [Flag.mentioned, form]
        · rw [flags, literal, calm]
          simp [Flag.mentioned]

theorem given_of_read (h : CommandLine.read environment words = .ok levels) :
    given levels = Flag.mentioned words :=
  given_of_readFrom h

/-! ## What the invocation keeps of them -/

variable {flag : Flag}

theorem Reading.has_iff_mem : r.has flag = true ↔ flag ∈ r.given.map (·.flag) := by
  simp [Reading.has]

theorem Reading.has_iff_count_pos : r.has flag = true ↔ 0 < r.count flag := by
  rw [Reading.has, Reading.count, List.countP_pos_iff, List.any_eq_true]

theorem mem_given_iff : flag ∈ given levels ↔ ∃ level ∈ levels, level.2.has flag = true := by
  simp [given, Reading.has_iff_mem, List.mem_flatMap]

/-- How often a flag was given is the sum over the levels. -/
theorem count_given (levels : List (Level × Reading)) (flag : Flag) :
    (given levels).count flag = (levels.map (·.2.count flag)).sum := by
  induction levels with
  | nil => rfl
  | cons level levels ih =>
    rw [given, List.flatMap_cons, List.count_append, ← given, ih, List.map_cons, List.sum_cons]
    congr 1
    rw [List.count_eq_countP, List.countP_map]
    rfl

theorem count_eq_zero_of_lacks (lacks : ∀ level ∈ levels, ¬level.2.has flag = true) :
    (given levels).count flag = 0 :=
  List.count_eq_zero.2 fun mem =>
    have ⟨level, hlevel, has⟩ := mem_given_iff.1 mem
    lacks level hlevel has

theorem innermostCount_eq (levels : List (Level × Reading)) (flag : Flag) :
    Invocation.innermostCount levels flag = ((levels.reverse.find? (·.2.has flag)).map fun level =>
      min (level.2.count flag) Invocation.countLimit).getD 0 := by
  have counted : ((fun n => decide (0 < n)) ∘ fun level : Level × Reading =>
      min (level.2.count flag) Invocation.countLimit) = fun level => level.2.has flag := by
    funext level
    have positive : 0 < min (level.2.count flag) Invocation.countLimit ↔
        level.2.has flag = true := by
      rw [Reading.has_iff_count_pos, Nat.lt_min]
      exact and_iff_left (by decide)
    rw [Function.comp_apply, Bool.eq_iff_iff, decide_eq_true_iff, positive]
  rw [Invocation.innermostCount, List.find?_map, counted]

/-- Of a counted flag there is the count of the innermost level that has it. -/
theorem innermostCount_cases (levels : List (Level × Reading)) (flag : Flag) :
    (Invocation.innermostCount levels flag = 0 ∧ ∀ level ∈ levels, ¬level.2.has flag = true) ∨
    ∃ outer level inner, levels = outer ++ level :: inner ∧ level.2.has flag = true ∧
      (∀ level ∈ inner, ¬level.2.has flag = true) ∧
      Invocation.innermostCount levels flag =
        min (level.2.count flag) Invocation.countLimit := by
  rw [innermostCount_eq]
  cases h : levels.reverse.find? (·.2.has flag) with
  | none =>
    refine .inl ⟨rfl, fun level mem => ?_⟩
    exact List.find?_eq_none.1 h level (List.mem_reverse.2 mem)
  | some level =>
    obtain ⟨has, inner, outer, split, lacks⟩ := List.find?_eq_some_iff_append.1 h
    refine .inr ⟨outer.reverse, level, inner.reverse, ?_, has, fun level mem => ?_, rfl⟩
    · rw [← List.reverse_reverse levels, split]
      simp
    · simpa using lacks level (List.mem_reverse.1 mem)

/-- Only the innermost level counts: it is all where no other level has the flag, or where it alone
gets to the limit. -/
theorem innermostCount_eq_total_iff (levels : List (Level × Reading)) (flag : Flag) :
    Invocation.innermostCount levels flag =
        min ((given levels).count flag) Invocation.countLimit ↔
      Invocation.innermostCount levels flag = Invocation.countLimit ∨
        (levels.filter (·.2.has flag)).length ≤ 1 := by
  rcases innermostCount_cases levels flag with
    ⟨zero, lacks⟩ | ⟨outer, level, inner, rfl, has, lacks, count⟩
  · have none : levels.filter (·.2.has flag) = [] := List.filter_eq_nil_iff.2 lacks
    simp [zero, count_eq_zero_of_lacks lacks, none]
  · have total : (given (outer ++ level :: inner)).count flag =
        (given outer).count flag + level.2.count flag := by
      have inside := count_eq_zero_of_lacks lacks
      rw [count_given] at inside ⊢
      simp [inside, count_given]
    have one : ((outer ++ level :: inner).filter (·.2.has flag)).length ≤ 1 ↔
        (given outer).count flag = 0 := by
      have inside : inner.filter (·.2.has flag) = [] := List.filter_eq_nil_iff.2 lacks
      rw [List.filter_append, List.filter_cons, if_pos has, inside, List.count_eq_zero,
        mem_given_iff]
      simp
    rw [count, total, one]
    have positive := Reading.has_iff_count_pos.1 has
    omega

/-- Of an accepted line no flag is lost, but the levels are judged one by one: no level has both
flags that exclude each other, and the count is that of the innermost level which has any. -/
theorem commonFlags_by_level {invocation : Invocation}
    (accepted : Invocation.read environment words = .ok invocation) :
    ∃ levels, CommandLine.read environment words = .ok levels ∧
      given levels = Flag.mentioned words ∧
      (∀ level ∈ levels, ¬(level.2.has .quiet = true ∧ level.2.has .verbose = true)) ∧
      (invocation.quiet = true ↔ .quiet ∈ Flag.mentioned words) ∧
      (0 < invocation.verbose ↔ .verbose ∈ Flag.mentioned words) ∧
      (invocation.verbose = min ((Flag.mentioned words).count .verbose) Invocation.countLimit ↔
        invocation.verbose = Invocation.countLimit ∨
          (levels.filter (·.2.has .verbose)).length ≤ 1) := by
  obtain ⟨levels, hlevels, h⟩ := bind_eq_ok_iff.1 accepted
  have mentioned := given_of_read hlevels
  refine ⟨levels, hlevels, mentioned, fun level mem => ?_, ?_⟩
  · exact (finished_of_readFrom hlevels level mem).not_both (by decide)
  unfold Invocation.ofLevels at h
  split at h
  · cases h
  obtain ⟨command, -, h⟩ := bind_eq_ok_iff.1 h
  obtain rfl := Except.ok.inj h
  rw [← mentioned]
  refine ⟨?_, ?_, innermostCount_eq_total_iff levels .verbose⟩
  · rw [mem_given_iff]
    exact List.any_eq_true
  · show 0 < Invocation.innermostCount levels .verbose ↔ _
    rw [mem_given_iff]
    rcases innermostCount_cases levels .verbose with
      ⟨zero, lacks⟩ | ⟨outer, level, inner, rfl, has, -, count⟩
    · rw [zero]
      simpa using lacks
    · rw [count]
      have positive := Reading.has_iff_count_pos.1 has
      exact ⟨fun _ => ⟨level, by simp, has⟩, fun _ => Nat.lt_min.2 ⟨positive, by decide⟩⟩

/-- The count where it goes wrong: one flag of two is lost. -/
def twiceVerbose : Invocation :=
  { verbose := 1, quiet := false, config := none, output := none, noColor := false,
    command := .codes }

theorem commonFlags_by_level_twiceVerbose :
    Invocation.read none ["-v", "codes", "-v"] = .ok twiceVerbose ∧
    ∃ levels, CommandLine.read none ["-v", "codes", "-v"] = .ok levels ∧
      given levels = Flag.mentioned ["-v", "codes", "-v"] ∧
      (∀ level ∈ levels, ¬(level.2.has .quiet = true ∧ level.2.has .verbose = true)) ∧
      (twiceVerbose.quiet = true ↔ .quiet ∈ Flag.mentioned ["-v", "codes", "-v"]) ∧
      (0 < twiceVerbose.verbose ↔ .verbose ∈ Flag.mentioned ["-v", "codes", "-v"]) ∧
      (twiceVerbose.verbose =
          min ((Flag.mentioned ["-v", "codes", "-v"]).count .verbose) Invocation.countLimit ↔
        twiceVerbose.verbose = Invocation.countLimit ∨
          (levels.filter (·.2.has .verbose)).length ≤ 1) :=
  ⟨by rfl, commonFlags_by_level (by rfl)⟩

/-- At two levels the flags that exclude each other are taken together, and a flag that may be
repeated counts once. -/
theorem commonFlags_not_as_declared :
    (∃ invocation, Invocation.read none ["-q", "codes", "-v"] = .ok invocation ∧
      invocation.quiet = true ∧ 0 < invocation.verbose) ∧
    ∃ invocation, Invocation.read none ["-v", "codes", "-v"] = .ok invocation ∧
      invocation.verbose ≠
        min ((Flag.mentioned ["-v", "codes", "-v"]).count .verbose) Invocation.countLimit :=
  ⟨⟨{ twiceVerbose with quiet := true }, by rfl, by decide, by decide⟩, twiceVerbose, by rfl,
    by decide⟩

end ServiceContract.CommandLine
