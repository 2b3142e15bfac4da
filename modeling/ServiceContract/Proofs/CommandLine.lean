import ServiceContract.Invocation

/-!
# What an accepted command line satisfies

Every level of a command line that is accepted was checked when its words were at an end: no two of
its flags exclude each other, and where it takes operands it has some (`Reading.Finished`). For the
arguments of validation this means that there is a file, and that groups are named only where not
all groups are asked for (`validateArguments_of_read`).
-/

namespace ServiceContract

theorem bind_eq_ok_iff {ε α β : Type} {x : Except ε α} {f : α → Except ε β} {b : β} :
    (x >>= f) = .ok b ↔ ∃ a, x = .ok a ∧ f a = .ok b := by
  cases x with
  | error e => exact ⟨nofun, fun ⟨_, h, _⟩ => nomatch h⟩
  | ok a => exact ⟨fun h => ⟨a, rfl, h⟩, fun ⟨_, h, hf⟩ => by cases h; exact hf⟩

namespace CommandLine

namespace Reading

variable {environment : Option String} {level : Level} {r r' : Reading} {flag other : Flag}

/-- What holds of a level whose words are at an end. -/
structure Finished (level : Level) (r : Reading) : Prop where
  calm : r.conflicting = false
  supplied : level.operand?.isSome → r.operands ≠ []

theorem finished_of_finish {entered : Bool} (h : r.finish environment level entered = .ok r') :
    r'.Finished level := by
  unfold finish at h
  obtain ⟨s, -, h⟩ := bind_eq_ok_iff.1 h
  -- The four checks, in order; a failed one gives no reading.
  simp only [bind, Except.bind, throw, throwThe, MonadExceptOf.throw, pure, Except.pure] at h
  split at h
  · cases h
  split at h
  · cases h
  split at h
  · cases h
  next conflicting =>
    split at h
    · cases h
    next missing =>
      obtain rfl := Except.ok.inj h
      refine ⟨Bool.eq_false_iff.2 conflicting, fun takes empty => missing ?_⟩
      rw [takes, empty]
      rfl

theorem Finished.not_both (h : r.Finished level) (excluded : (flag, other) ∈ Flag.conflicts) :
    ¬(r.has flag = true ∧ r.has other = true) := by
  rintro ⟨hflag, hother⟩
  have conflicting : r.conflicting = true :=
    List.any_eq_true.2 ⟨(flag, other), excluded, by simp [hflag, hother]⟩
  rw [h.calm] at conflicting
  cases conflicting

theorem has_of_values_ne_nil (h : r.values flag ≠ []) : r.has flag = true := by
  obtain ⟨value, hvalue⟩ := List.exists_mem_of_ne_nil _ h
  obtain ⟨occurrence, hgiven, -⟩ := List.mem_filterMap.1 hvalue
  obtain ⟨hgiven, same⟩ := List.mem_filter.1 hgiven
  exact List.any_eq_true.2 ⟨occurrence, hgiven, same⟩

end Reading

open Reading (Finished)

variable {environment : Option String} {level : Level} {r : Reading} {words : List String}
  {levels : List (Level × Reading)}

/-- All levels of a command line are finished, those inside as well as those around them. -/
theorem finished_of_readFrom (h : readFrom environment level r words = .ok levels) :
    ∀ entry ∈ levels, entry.2.Finished entry.1 := by
  induction words generalizing level r levels with
  | nil =>
    obtain ⟨r', finish, h⟩ := bind_eq_ok_iff.1 h
    obtain rfl := Except.ok.inj h
    exact List.forall_mem_singleton.2 (Reading.finished_of_finish finish)
  | cons word words ih =>
    unfold readFrom at h
    split at h
    · cases h
    split at h
    · obtain ⟨inside, hinside, h⟩ := bind_eq_ok_iff.1 h
      obtain ⟨r', finish, h⟩ := bind_eq_ok_iff.1 h
      obtain rfl := Except.ok.inj h
      exact List.forall_mem_cons.2 ⟨Reading.finished_of_finish finish, ih hinside⟩
    · obtain ⟨r', -, h⟩ := bind_eq_ok_iff.1 h
      exact ih h

end CommandLine

open CommandLine

variable {environment : Option String} {words : List String} {invocation : Invocation}
  {arguments : ValidateArguments}

theorem Command.ofReading_eq_validate {level : Level} {r : Reading}
    (h : Command.ofReading level r = .ok (.validate arguments)) :
    level = .validate ∧ arguments =
      { files := r.operands.map Path.mk
        allGroups := r.has .allGroups
        groups := r.values .group
        failFast := r.has .failFast
        detailed := r.has .detailed } := by
  cases level with
  | validate =>
    obtain rfl := Command.validate.inj (Except.ok.inj h)
    exact ⟨rfl, rfl⟩
  | configGet =>
    unfold Command.ofReading at h
    dsimp only at h
    split at h <;> cases h
  | completions =>
    unfold Command.ofReading at h
    dsimp only at h
    split at h
    · cases h
    · split at h <;> cases h
  | top | codes | config | configInit | configShow | configPath => cases h

/-- The arguments of validation are read off the innermost level, which is finished. -/
theorem exists_reading_of_read (accepted : Invocation.read environment words = .ok invocation)
    (validates : invocation.command = .validate arguments) :
    ∃ levels r, CommandLine.read environment words = .ok levels ∧
      levels.getLast? = some (.validate, r) ∧ r.Finished .validate ∧ arguments =
        { files := r.operands.map Path.mk
          allGroups := r.has .allGroups
          groups := r.values .group
          failFast := r.has .failFast
          detailed := r.has .detailed } := by
  obtain ⟨levels, hlevels, h⟩ := bind_eq_ok_iff.1 accepted
  unfold Invocation.ofLevels at h
  split at h
  · cases h
  next level r last =>
    obtain ⟨command, hcommand, h⟩ := bind_eq_ok_iff.1 h
    obtain rfl := Except.ok.inj h
    obtain rfl : command = .validate arguments := validates
    obtain ⟨rfl, harguments⟩ := Command.ofReading_eq_validate hcommand
    exact ⟨levels, r, hlevels, last, finished_of_readFrom hlevels _ (List.mem_of_getLast? last),
      harguments⟩

/-- There is a file to validate, and groups are named only where not all are asked for. -/
theorem validateArguments_of_read (accepted : Invocation.read environment words = .ok invocation)
    (validates : invocation.command = .validate arguments) :
    arguments.files ≠ [] ∧ ¬(arguments.allGroups = true ∧ arguments.groups ≠ []) := by
  obtain ⟨levels, r, -, -, finished, rfl⟩ := exists_reading_of_read accepted validates
  refine ⟨fun empty => finished.supplied rfl (List.map_eq_nil_iff.1 empty), ?_⟩
  rintro ⟨all, named⟩
  have excluded : (Flag.allGroups, Flag.group) ∈ Flag.conflicts := by decide
  exact finished.not_both excluded ⟨all, Reading.has_of_values_ne_nil named⟩

end ServiceContract
