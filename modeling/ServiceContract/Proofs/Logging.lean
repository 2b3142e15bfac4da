import ServiceContract.Logging

/-!
# Which source decides what is logged

Any number of settings files may be applied, one after the other (`Logging.applyFiles`). What one of
them changes is said once; by induction, the last file that gives a level or a known form decides
among the files. In a whole run the environment comes before the files and the files before the
verbosity, and a quiet run logs errors whatever they say (`Logging.resolveAll_by_precedence`).
-/

namespace ServiceContract

namespace LogFormat

/-- A form is named by its own name, in any case. -/
theorem ofSetting?_eq_some_iff (text : String) (format : LogFormat) :
    ofSetting? text = some format ↔
      text.toList.map Char.toLower = format.name.toList.map Char.toLower := by
  have spelled (word : String) : String.ofList (text.toList.map Char.toLower) = word ↔
      text.toList.map Char.toLower = word.toList := by
    rw [← String.toList_inj, String.toList_ofList]
  unfold ofSetting?
  split
  · next h =>
    rw [(spelled _).1 h]
    cases format <;> decide
  · next h =>
    rw [(spelled _).1 h]
    cases format <;> decide
  · next h =>
    rw [(spelled _).1 h]
    cases format <;> decide
  · next notCompact notFull notJson =>
    rw [spelled] at notCompact notFull notJson
    refine iff_of_false nofun ?_
    cases format with
    | compact => exact notCompact
    | full => exact notFull
    | json => exact notJson

/-- The form that is given, if a name is given and known. -/
def known? (given : Option String) : Option LogFormat := given.bind ofSetting?

/-- The name that is given for a form and is none. -/
def unknown? (given : Option String) : Option String :=
  given.filter fun name => (ofSetting? name).isNone

theorem known?_of_unknown {given : Option String} {name : String} (h : given = some name)
    (unknown : ofSetting? name = none) : known? given = none := by
  subst h
  exact unknown

end LogFormat

namespace Logging

variable {logging : Logging} {warning : String → LogWarning} {format : Option String}

/-! ## One source -/

theorem withFormat_eq : logging.withFormat warning format =
    ({ logging with format := (LogFormat.known? format).getD logging.format },
      (LogFormat.unknown? format).toList.map warning) := by
  unfold withFormat LogFormat.known? LogFormat.unknown?
  cases format with
  | none => rfl
  | some name =>
    cases known : LogFormat.ofSetting? name with
    | none => simp [known, Option.filter_some]
    | some format => simp [known, Option.filter_some]

/-- A file changes the level unless there is a verbosity, and the form if it names one. -/
theorem applyFile_eq (logging : Logging) (file : LogSettings) (verbosity : Nat) :
    logging.applyFile file verbosity =
      ({ logging with
          level := if verbosity = 0 then file.level.getD logging.level else logging.level
          format := (LogFormat.known? file.format).getD logging.format },
        (LogFormat.unknown? file.format).toList.map .file) :=
  withFormat_eq

/-- The environment changes the level if it gives one, and the form if it names one. -/
theorem applyVariables_eq (logging : Logging) (environment : LogVariables) :
    logging.applyVariables environment =
      ({ logging with
          level := environment.level.getD logging.level
          format := (LogFormat.known? environment.format).getD logging.format },
        (LogFormat.unknown? environment.format).toList.map .environment) :=
  withFormat_eq

/-! ## Several files -/

/-- Applies settings files one after the other. -/
def applyFiles (logging : Logging) (verbosity : Nat) : List LogSettings → Logging × List LogWarning
  | [] => (logging, [])
  | file :: files =>
    let (logging, warnings) := logging.applyFile file verbosity
    let (logging, later) := logging.applyFiles verbosity files
    (logging, warnings ++ later)

/-- The last of several sources that give a value. -/
def last? {α β : Type} (value? : α → Option β) (sources : List α) : Option β :=
  (sources.filterMap value?).getLast?

/-- The last value decides; the first source counts only where no later one gives any. -/
theorem getD_last?_cons {α β : Type} (value? : α → Option β) (source : α) (sources : List α)
    (default : β) : (last? value? (source :: sources)).getD default =
      (last? value? sources).getD ((value? source).getD default) := by
  unfold last?
  rw [List.filterMap_cons]
  cases value? source with
  | none => rfl
  | some value => rw [List.getLast?_cons]; rfl

/-- Among the files the last one that says something decides, for the level and for the form. -/
theorem applyFiles_eq (logging : Logging) (verbosity : Nat) (files : List LogSettings) :
    logging.applyFiles verbosity files =
      ({ logging with
          level := if verbosity = 0 then (last? (·.level) files).getD logging.level
            else logging.level
          format := (last? (LogFormat.known? ·.format) files).getD logging.format },
        (files.filterMap (LogFormat.unknown? ·.format)).map .file) := by
  induction files generalizing logging with
  | nil =>
    show (logging, []) = _
    by_cases silent : verbosity = 0 <;> simp [silent, last?]
  | cons file files ih =>
    have warnings : (LogFormat.unknown? file.format).toList.map LogWarning.file ++
        (files.filterMap (LogFormat.unknown? ·.format)).map .file =
          ((file :: files).filterMap (LogFormat.unknown? ·.format)).map .file := by
      rw [List.filterMap_cons]
      cases LogFormat.unknown? file.format <;> rfl
    rw [applyFiles, applyFile_eq]
    dsimp only
    rw [ih, ← warnings, getD_last?_cons, getD_last?_cons]
    by_cases silent : verbosity = 0
    · simp only [silent, if_true]
    · simp only [silent, if_false]

/-! ## A whole run -/

/-- What a run logs with any number of settings files. -/
def resolveAll (verbose : Nat) (quiet : Bool) (files : List LogSettings)
    (environment : LogVariables) : Logging × List LogWarning :=
  let verbosity := if quiet then 0 else verbose
  let (logging, fileWarnings) := (ofVerbosity verbosity).applyFiles verbosity files
  let (logging, variableWarnings) := logging.applyVariables environment
  (if quiet then logging.silenced else logging, fileWarnings ++ variableWarnings)

theorem resolveAll_singleton (verbose : Nat) (quiet : Bool) (file : LogSettings)
    (environment : LogVariables) :
    resolveAll verbose quiet [file] environment = resolve verbose quiet file environment := by
  simp only [resolveAll, resolve, applyFiles, List.append_nil]

/-- The level that a verbosity asks for. -/
def levelOf (verbosity : Nat) : String := (["warn", "info", "debug"][verbosity]?).getD "trace"

theorem ofVerbosity_eq (verbosity : Nat) : ofVerbosity verbosity =
    { level := levelOf verbosity
      format := if 3 ≤ verbosity then .full else .compact
      console := true
      threadIds := 3 ≤ verbosity
      sourceLocation := 2 ≤ verbosity
      spanEvents := 3 ≤ verbosity } := by
  match verbosity with
  | 0 | 1 | 2 => rfl
  | n + 3 => simp [ofVerbosity, levelOf]

/-- The level of a run: errors if it is quiet; else what the environment says; else, where no
verbosity is asked for, the last level that a file gives; else the level of the verbosity. -/
def decidedLevel (verbose : Nat) (quiet : Bool) (files : List LogSettings)
    (environment : LogVariables) : String :=
  if quiet then "error"
  else environment.level.getD
    (if verbose = 0 then (last? (·.level) files).getD (levelOf 0) else levelOf verbose)

/-- The form of a run: what the environment names; else the last one that a file names; else that of
the verbosity. -/
def decidedFormat (verbosity : Nat) (files : List LogSettings) (environment : LogVariables) :
    LogFormat :=
  (LogFormat.known? environment.format).getD
    ((last? (LogFormat.known? ·.format) files).getD (if 3 ≤ verbosity then .full else .compact))

theorem resolveAll_eq (verbose : Nat) (quiet : Bool) (files : List LogSettings)
    (environment : LogVariables) :
    let verbosity := if quiet then 0 else verbose
    resolveAll verbose quiet files environment =
      ({ level := decidedLevel verbose quiet files environment
         format := decidedFormat verbosity files environment
         console := !quiet
         threadIds := 3 ≤ verbosity
         sourceLocation := 2 ≤ verbosity
         spanEvents := 3 ≤ verbosity },
        (files.filterMap (LogFormat.unknown? ·.format)).map .file ++
          (LogFormat.unknown? environment.format).toList.map .environment) := by
  intro verbosity
  unfold resolveAll decidedLevel decidedFormat
  simp only [applyFiles_eq, applyVariables_eq, ofVerbosity_eq]
  cases quiet with
  | true => rfl
  | false =>
    by_cases silent : verbose = 0
    · subst silent
      rfl
    · simp [silent, verbosity]

/-- A form that is not known counts like none. -/
theorem last?_known_erase {name : String} (unknown : LogFormat.ofSetting? name = none)
    (before after : List LogSettings) {file : LogSettings} (given : file.format = some name) :
    last? (LogFormat.known? ·.format) (before ++ { file with format := none } :: after) =
      last? (LogFormat.known? ·.format) (before ++ file :: after) := by
  have nothing := LogFormat.known?_of_unknown given unknown
  have erased : LogFormat.known? none = none := rfl
  simp only [last?, List.filterMap_append, List.filterMap_cons, nothing, erased]

/-- The level of a run and the form of its messages are those of the first source that has a say;
everything else follows from the verbosity, but for the console, which a quiet run leaves alone. A
form that is not known changes nothing, and each one gives a warning, those of the files in their
order before that of the environment. -/
theorem resolveAll_by_precedence (verbose : Nat) (quiet : Bool) (files : List LogSettings)
    (environment : LogVariables) :
    let verbosity := if quiet then 0 else verbose
    let logging := (resolveAll verbose quiet files environment).1
    let warnings := (resolveAll verbose quiet files environment).2
    logging.level = decidedLevel verbose quiet files environment ∧
    logging.format = decidedFormat verbosity files environment ∧
    logging.threadIds = decide (3 ≤ verbosity) ∧
    logging.sourceLocation = decide (2 ≤ verbosity) ∧
    logging.spanEvents = decide (3 ≤ verbosity) ∧
    (logging.console = false ↔ quiet = true) ∧
    warnings = (files.filterMap (LogFormat.unknown? ·.format)).map .file ++
      (LogFormat.unknown? environment.format).toList.map .environment ∧
    (∀ name, LogFormat.ofSetting? name = none →
      (∀ before file after, files = before ++ file :: after → file.format = some name →
        (resolveAll verbose quiet (before ++ { file with format := none } :: after)
          environment).1 = logging) ∧
      (environment.format = some name →
        (resolveAll verbose quiet files { environment with format := none }).1 = logging)) ∧
    (∀ name format, LogFormat.ofSetting? name = some format ↔
      name.toList.map Char.toLower = format.name.toList.map Char.toLower) ∧
    ∀ file, files = [file] →
      resolve verbose quiet file environment = (logging, warnings) := by
  intro verbosity logging warnings
  have run : (logging, warnings) = _ := resolveAll_eq verbose quiet files environment
  obtain ⟨hlogging, hwarnings⟩ := Prod.mk.inj run
  rw [hlogging, hwarnings]
  refine ⟨rfl, rfl, rfl, rfl, rfl, by cases quiet <;> simp, rfl, fun name unknown => ⟨?_, ?_⟩,
    LogFormat.ofSetting?_eq_some_iff, ?_⟩
  · rintro before file after rfl given
    have level (f : LogSettings) : last? (·.level) (before ++ { f with format := none } :: after) =
        last? (·.level) (before ++ f :: after) := by
      simp only [last?, List.filterMap_append, List.filterMap_cons]
    rw [resolveAll_eq]
    simp only [decidedLevel, decidedFormat, level, last?_known_erase unknown before after given]
  · intro given
    have nothing := LogFormat.known?_of_unknown given unknown
    have erased : LogFormat.known? none = none := rfl
    rw [resolveAll_eq]
    simp only [decidedLevel, decidedFormat, nothing, erased]
  · rintro file rfl
    rw [← resolveAll_singleton, resolveAll_eq]

/-- A level that an unknown form stands beside, behind a form in capital letters. -/
theorem resolveAll_by_precedence_unknownForms :
    let shouted : LogSettings := ⟨some "info", some "JSON"⟩
    let unknown : LogSettings := ⟨some "debug", some "pretty"⟩
    let environment : LogVariables := ⟨none, some "yaml"⟩
    let resolved := resolveAll 0 false [shouted, unknown] environment
    LogFormat.ofSetting? "pretty" = none ∧ resolved.1.level = "debug" ∧
      resolved.1.format = .json ∧ resolved.2 = [.file "pretty", .environment "yaml"] ∧
      (resolveAll 0 false [shouted, { unknown with format := none }] environment).1 =
        resolved.1 := by
  intro shouted unknown environment resolved
  have nothing : LogFormat.ofSetting? "pretty" = none := by decide
  obtain ⟨level, format, -, -, -, -, warnings, unknowns, -⟩ :=
    resolveAll_by_precedence 0 false [shouted, unknown] environment
  exact ⟨nothing, level, format.trans (by decide), warnings.trans (by decide),
    (unknowns "pretty" nothing).1 [shouted] unknown [] rfl rfl⟩

end Logging

end ServiceContract
