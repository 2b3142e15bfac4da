import ServiceContract.Proofs.Run.Batch

/-!
# What a run prints

Data and reports are for everyone; messages, headings, tables and progress are for people. In the
formats for programs the output is the texts of the steps of the first kind and nothing else
(`Console.renderAll_of_machine`), so neither colours nor quiet runs can change it. A run of
validation then prints its reports once or nothing at all, and for people a quiet run only leaves
out the first line (`validation_output_unpolluted`).
-/

namespace ServiceContract

open Document (Loaded Unloadable)

/-! ## Steps -/

namespace Console

/-- Whether a step is for people only. -/
def Step.isForPeople : Step → Bool
  | .info _ | .success _ | .warning _ | .section _ | .table _ | .progress .. => true
  | .raw _ | .line _ | .data _ | .reports _ => false

/-- The text of a step that is for programs, too. -/
def Step.content? (format : OutputFormat) : Step → Option String
  | .raw text => some text
  | .line text => some (text ++ "\n")
  | .data value => some (format.render value)
  | .reports list => some (format.renderReports list ++ "\n")
  | .info _ | .success _ | .warning _ | .section _ | .table _ | .progress .. => none

/-- What remains for programs of a sequence of steps. -/
def contents (format : OutputFormat) (steps : List Step) : List String :=
  steps.filterMap (Step.content? format)

variable {console : Console}

theorem content?_of_isForPeople (format : OutputFormat) {step : Step}
    (people : step.isForPeople = true) : step.content? format = none := by
  cases step <;> first | rfl | cases people

@[simp] theorem renderAll_nil : console.renderAll [] = "" := rfl

@[simp] theorem renderAll_cons (step : Step) (steps : List Step) :
    console.renderAll (step :: steps) = console.render step ++ console.renderAll steps := by
  rw [renderAll, List.map_cons, String.join_cons, renderAll]

theorem render_of_machine (machine : console.format ≠ .human) (step : Step) :
    console.render step = (step.content? console.format).getD "" := by
  have people : console.forPeople = false := by simpa [forPeople] using machine
  have silent : console.talks = false := by simp [talks, people]
  cases step <;> simp [render, Step.content?, people, silent]

/-- In a format for programs, what is for people leaves no trace. -/
theorem renderAll_of_machine (machine : console.format ≠ .human) (steps : List Step) :
    console.renderAll steps = String.join (contents console.format steps) := by
  induction steps with
  | nil => rfl
  | cons step steps ih =>
    rw [renderAll_cons, render_of_machine machine, ih]
    cases h : step.content? console.format with
    | none => simp [contents, h]
    | some text => simp [contents, h]

theorem contents_filter (format : OutputFormat) (steps : List Step) :
    contents format (steps.filter fun step => !step.isForPeople) = contents format steps := by
  rw [contents, List.filterMap_filter]
  refine List.filterMap_congr fun step _ => ?_
  cases people : step.isForPeople with
  | true => exact (content?_of_isForPeople format people).symm
  | false => rfl

/-- Whether a step is a message, which a quiet run leaves out. -/
def Step.isMessage : Step → Bool
  | .info _ | .success _ | .section _ => true
  | _ => false

theorem render_of_isMessage (format : OutputFormat) (color : Bool) {step : Step}
    (message : step.isMessage = true) : render ⟨format, color, true⟩ step = "" := by
  cases step with
  | info | success | «section» => simp [render, talks]
  | _ => cases message

theorem render_of_not_isMessage (format : OutputFormat) (color : Bool) {step : Step}
    (other : step.isMessage = false) :
    render ⟨format, color, true⟩ step = render ⟨format, color, false⟩ step := by
  cases step with
  | info | success | «section» => cases other
  | _ => rfl

/-- A quiet run writes what remains without messages. -/
theorem renderAll_quiet (format : OutputFormat) (color : Bool) (steps : List Step) :
    renderAll ⟨format, color, true⟩ steps =
      renderAll ⟨format, color, false⟩ (steps.filter fun step => !step.isMessage) := by
  induction steps with
  | nil => rfl
  | cons step steps ih =>
    rw [renderAll_cons, ih]
    cases message : step.isMessage with
    | true =>
      rw [List.filter_cons_of_neg (by simp [message]), render_of_isMessage format color message,
        String.empty_append]
    | false =>
      rw [List.filter_cons_of_pos (by simp [message]), renderAll_cons,
        render_of_not_isMessage format color message]

end Console

/-! ## Runs of validation -/

/-- Nothing is taken where the first file cannot be loaded, and only there. -/
theorem Takes.nothing_iff {failFast : Bool} {scope : Scope} {world : World} {files : List Path}
    {taken : List (Loaded world)} {stop : Option (Failure × Nat)}
    (takes : Takes failFast scope world files taken stop) :
    stop.isSome ∧ taken = [] ↔
      ∃ path rest failure code, files = path :: rest ∧ Unloadable world path failure code := by
  constructor
  · rintro ⟨stopped, nothing⟩
    cases takes with
    | all => cases stopped
    | unloadable split _ stop => exact ⟨_, _, _, _, by rw [split, nothing]; rfl, stop⟩
    | rejected => cases stopped
  · rintro ⟨path, rest, failure, code, first, unloadable⟩
    have nothing : taken = [] := by
      cases taken with
      | nil => rfl
      | cons d taken =>
        obtain ⟨same, -⟩ := List.cons_prefix_cons.1 (first ▸ takes.prefix_paths)
        have fails := (Document.unloadable_iff.1 unloadable).1
        rw [← same, d.loads] at fails
        cases fails
    cases takes with
    | all split =>
      rw [split, nothing] at first
      cases first
    | unloadable => exact ⟨rfl, nothing⟩
    | rejected => exact absurd nothing (by simp)

namespace ValidateArguments

variable {arguments : ValidateArguments} {configured scope : Scope} {world : World}
  {taken : List (Loaded world)} {stop : Option (Failure × Nat)} {reports : List Report}

theorem contents_opening (format : OutputFormat) :
    Console.contents format (arguments.opening scope taken) = [] := by
  have people : ∀ step ∈ arguments.opening scope taken, step.isForPeople = true := by
    rw [opening, List.forall_mem_cons]
    exact ⟨rfl, List.forall_mem_map.2 fun _ _ => rfl⟩
  exact List.filterMap_eq_nil_iff.2 fun step h => Console.content?_of_isForPeople format (people step h)

/-- Programs read the reports of a run, once, if there are any. -/
theorem contents_run_of_takes (once : arguments.inputCount ≤ 1)
    (takes : Takes arguments.failFast (arguments.scope configured) world arguments.files taken stop)
    (each : List.Forall₂ (IsReport (arguments.scope configured) arguments.detailed) taken reports)
    (format : OutputFormat) :
    Console.contents format (arguments.run configured world).1 =
      if stop.isSome ∧ taken = [] then [] else [format.renderReports reports ++ "\n"] := by
  have empty : reports = [] ↔ taken = [] := by
    rw [← List.length_eq_zero_iff, ← each.length_eq, List.length_eq_zero_iff]
  rw [run_of_takes once takes each, Console.contents, List.filterMap_append]
  refine (congrArg (· ++ _) (contents_opening format)).trans ?_
  simp only [List.nil_append, empty]
  split <;> rfl

/-- The line that a run for people starts with. -/
def announcement (arguments : ValidateArguments) : String :=
  "INFO: Validating " ++ toString arguments.files.length ++ " document(s)\n"

theorem render_announcement (arguments : ValidateArguments) :
    Console.render ⟨.human, false, false⟩ (.info ("Validating " ++
      toString arguments.files.length ++ " document(s)")) = arguments.announcement := by
  have info (text : String) :
      Console.render ⟨.human, false, false⟩ (.info text) = "INFO:" ++ " " ++ text ++ "\n" := rfl
  have line (number : String) : "INFO:" ++ " " ++ ("Validating " ++ number ++ " document(s)") ++
      "\n" = "INFO: Validating " ++ number ++ " document(s)\n" :=
    String.toList_injective (by simp [String.toList_append])
  rw [info]
  exact line _

theorem run_eq_cons (arguments : ValidateArguments) (configured : Scope) (world : World)
    (once : arguments.inputCount ≤ 1) :
    ∃ rest, (arguments.run configured world).1 =
      .info ("Validating " ++ toString arguments.files.length ++ " document(s)") :: rest ∧
        ∀ step ∈ rest, step.isMessage = false := by
  rw [run, if_neg (Nat.not_lt.2 once)]
  refine ⟨_, List.cons_append, fun step h => ?_⟩
  rcases List.mem_append.1 h with h | h
  · obtain ⟨path, -, rfl⟩ := List.mem_map.1 h
    rfl
  · split at h
    · cases h
    · obtain rfl := List.mem_singleton.1 h
      rfl

/-- For people, a run writes its first line and then what a quiet run writes. -/
theorem renderAll_run_talking (once : arguments.inputCount ≤ 1) :
    Console.renderAll ⟨.human, false, false⟩ (arguments.run configured world).1 =
      arguments.announcement ++
        Console.renderAll ⟨.human, false, true⟩ (arguments.run configured world).1 := by
  obtain ⟨rest, steps, plain⟩ := run_eq_cons arguments configured world once
  have kept : (rest.filter fun step => !step.isMessage) = rest :=
    List.filter_eq_self.2 fun step h => by simp [plain step h]
  rw [steps, Console.renderAll_quiet, List.filter_cons_of_neg (by simp [Console.Step.isMessage]),
    kept, Console.renderAll_cons, render_announcement]

end ValidateArguments

theorem Invocation.run_validate (invocation : Invocation) {arguments : ValidateArguments}
    {settings : Settings} {format : OutputFormat} {world : World}
    (validates : invocation.command = .validate arguments)
    (found : invocation.settings world = .ok settings)
    (chosen : invocation.format settings = .ok format) (terminal : Bool) :
    let color := invocation.color terminal && settings.output.color
    let judged := arguments.run settings.validation world
    invocation.run terminal world =
      ⟨Console.renderAll ⟨format, color, invocation.quiet⟩ judged.1, judged.2,
        some (LogReport.of invocation settings world.logVariables), world.tree, color⟩ := by
  simp only [run, found, runWith, chosen, Command.run, validates]

open ValidateArguments (contents_run_of_takes renderAll_run_talking run_of_twice)

/-- In the formats for programs the output of any steps is that of the data and reports among them.
So a run of validation prints its reports once or nothing at all, quiet or not. For people, a quiet
run leaves out the first line. -/
theorem validation_output_unpolluted :
    (∀ (console : Console) (steps : List Console.Step), console.format ≠ .human →
      console.renderAll steps = String.join (Console.contents console.format steps) ∧
      console.renderAll (steps.filter fun step => !step.isForPeople) = console.renderAll steps ∧
      ∀ color quiet,
        Console.renderAll ⟨console.format, color, quiet⟩ steps = console.renderAll steps) ∧
    ∀ (invocation : Invocation) (arguments : ValidateArguments) (settings : Settings)
      (format : OutputFormat) (world : World), invocation.command = .validate arguments →
      invocation.settings world = .ok settings → invocation.format settings = .ok format →
      let scope := arguments.scope settings.validation
      let outcome (quiet terminal : Bool) := { invocation with quiet }.run terminal world
      -- Whether it is quiet does not matter to what a run comes to.
      (∀ quiet terminal,
        (outcome quiet terminal).failure = (arguments.run settings.validation world).2 ∧
          (outcome quiet terminal).tree = world.tree) ∧
      -- Programs read the same in any case: nothing or the reports.
      (format ≠ .human → ∃ output,
        (∀ quiet terminal, (outcome quiet terminal).output = output) ∧
        (output = "" ↔ 1 < arguments.inputCount ∨
          ∃ path rest failure code, arguments.files = path :: rest ∧
            Unloadable world path failure code) ∧
        (output ≠ "" → ∃ taken stop reports,
          Takes arguments.failFast scope world arguments.files taken stop ∧
            List.Forall₂ (IsReport scope arguments.detailed) taken reports ∧
            output = format.renderReports reports ++ "\n")) ∧
      -- People read one line less.
      (format = .human → ∀ terminal, (invocation.color terminal && settings.output.color) = false →
        (1 < arguments.inputCount →
          (outcome false terminal).output = "" ∧ (outcome true terminal).output = "") ∧
        (arguments.inputCount ≤ 1 → (outcome false terminal).output =
          arguments.announcement ++ (outcome true terminal).output)) := by
  refine ⟨fun console steps machine => ⟨?_, ?_, fun color quiet => ?_⟩, ?_⟩
  · exact Console.renderAll_of_machine machine steps
  · rw [Console.renderAll_of_machine machine, Console.renderAll_of_machine machine,
      Console.contents_filter]
  · have other : (Console.mk console.format color quiet).format ≠ .human := machine
    rw [Console.renderAll_of_machine machine, Console.renderAll_of_machine other]
  intro invocation arguments settings format world validates found chosen scope outcome
  have outcomes (quiet terminal : Bool) : outcome quiet terminal = _ :=
    Invocation.run_validate { invocation with quiet } validates found chosen terminal
  refine ⟨fun quiet terminal => ?_, fun machine => ?_, fun people terminal plain => ?_⟩
  · rw [outcomes]
    exact ⟨rfl, rfl⟩
  · have printed (quiet terminal : Bool) : (outcome quiet terminal).output =
        String.join (Console.contents format (arguments.run settings.validation world).1) := by
      rw [outcomes]
      exact Console.renderAll_of_machine machine _
    refine ⟨_, printed, ?_⟩
    by_cases once : arguments.inputCount ≤ 1
    · obtain ⟨taken, stop, takes⟩ := exists_takes arguments.failFast scope world arguments.files
      obtain ⟨reports, each⟩ : ∃ reports,
          List.Forall₂ (IsReport scope arguments.detailed) taken reports :=
        ⟨_, forall₂_isReport_iff.2 rfl⟩
      rw [contents_run_of_takes once takes each, or_iff_right (Nat.not_lt.2 once),
        ← takes.nothing_iff]
      split
      · next nothing => exact ⟨iff_of_true rfl nothing, fun some => absurd rfl some⟩
      · next something =>
        have line : String.join [format.renderReports reports ++ "\n"] =
            format.renderReports reports ++ "\n" := by simp
        rw [line]
        exact ⟨iff_of_false (by simp) something, fun _ => ⟨taken, stop, reports, takes, each, rfl⟩⟩
    · have twice : 1 < arguments.inputCount := Nat.not_le.1 once
      rw [run_of_twice arguments settings.validation world twice]
      exact ⟨iff_of_true rfl (.inl twice), fun some => absurd rfl some⟩
  · subst people
    refine ⟨fun twice => ?_, fun once => ?_⟩
    · rw [outcomes, outcomes, run_of_twice arguments settings.validation world twice]
      exact ⟨rfl, rfl⟩
    · rw [outcomes, outcomes]
      show Console.renderAll ⟨.human, invocation.color terminal && _, false⟩ _ =
        _ ++ Console.renderAll ⟨.human, invocation.color terminal && _, true⟩ _
      rw [plain]
      exact renderAll_run_talking once

open ValidateArguments (inputFirst withInput) in
/-- A run that accepts standard input and then misses a file, for programs and for people. -/
theorem validation_output_unpolluted_inputFirst :
    let world := withInput "\x7b\x7d" .empty
    let asked (format : OutputFormat) : Invocation :=
      ⟨0, false, none, some format, true, .validate inputFirst⟩
    let outcome (format : OutputFormat) (quiet terminal : Bool) :=
      { asked format with quiet }.run terminal world
    (OutputFormat.json ≠ .human ∧ Console.renderAll ⟨.json, true, false⟩
      [.info "two", .data (.bool true), .progress 2 "files", .line "end"] = "trueend\n") ∧
    ((asked .json).settings world = .ok .default ∧ (asked .json).format .default = .ok .json ∧
      ∀ quiet terminal, (outcome .json quiet terminal).output =
        "[\x7b\"file\":\"-\",\"valid\":true\x7d]\n") ∧
    ((asked .human).format .default = .ok .human ∧ inputFirst.inputCount ≤ 1 ∧
      ∀ terminal, (outcome .human false terminal).output =
        "INFO: Validating 2 document(s)\n" ++ (outcome .human true terminal).output) := by
  intro world asked outcome
  obtain ⟨steps, runs⟩ := validation_output_unpolluted
  have found (format : OutputFormat) : (asked format).settings world = .ok .default := by rfl
  have chosen (format : OutputFormat) : (asked format).format .default = .ok format := rfl
  obtain ⟨-, programs, -⟩ := runs (asked .json) inputFirst .default .json world rfl (found _)
    (chosen _)
  obtain ⟨-, -, people⟩ := runs (asked .human) inputFirst .default .human world rfl (found _)
    (chosen _)
  obtain ⟨output, same, -, -⟩ := programs (by decide)
  have printed : (outcome .json false false).output =
      "[\x7b\"file\":\"-\",\"valid\":true\x7d]\n" := by rfl
  have once : inputFirst.inputCount ≤ 1 := by decide
  refine ⟨⟨by decide, ?_⟩, ⟨found _, chosen _, fun quiet terminal => ?_⟩, chosen _, once,
    fun terminal => ?_⟩
  · exact (steps ⟨.json, true, false⟩ _ (by decide)).1.trans (by rfl)
  · exact (same quiet terminal).trans ((same false false).symm.trans printed)
  · exact (people rfl terminal (by cases terminal <;> rfl)).2 once

end ServiceContract
