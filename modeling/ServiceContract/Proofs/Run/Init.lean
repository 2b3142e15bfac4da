import ServiceContract.Proofs.Settings.Source
import ServiceContract.Run

/-!
# New settings files

`config init` refuses to replace a file unless it is asked to, and writes the defaults otherwise;
whatever else stands in the tree stays (`init_keeps_files`). Done again, it changes nothing more. It
does not always fail for the same reason: a directory made on the way may stand where settings are
looked for, and then no run gets as far as its command (`init_again_stops_early`).
-/

namespace ServiceContract

open FileTree (above)

/-! ## The command -/

namespace SettingsAction

variable {tree : FileTree} {target : Path}

theorem runInit_of_has (stands : tree.has target = true) :
    runInit target false tree = .failed tree (.settings (.alreadyThere target)) := by
  rw [runInit, if_pos (by simp [stands])]

theorem runInit_of_allowed {force : Bool} (allowed : force = true ∨ tree.has target = false) :
    (∃ tree' place, runInit target force tree =
        .told tree' [.success ("✓ Created config at " ++ target.text)] ∧
      tree.IsSave tree' target (Settings.default.render (.ofPath target)) place) ∨
    ∃ tree' failure, runInit target force tree = .failed tree' failure ∧
      (tree.save target (Settings.default.render (.ofPath target))).2 = false ∧
      tree.GrowsAt tree' (above target) := by
  have writes : (tree.has target && !force) = false := by
    rcases allowed with forced | absent
    · rw [forced, Bool.not_true, Bool.and_false]
    · rw [absent, Bool.false_and]
  rw [runInit, if_neg (by rw [writes]; exact Bool.false_ne_true)]
  obtain ⟨tree', place, outcome, saved⟩ | ⟨tree', failure, outcome, unwritten, grows⟩ :=
    Settings.default.save_cases tree target
  · exact .inl ⟨tree', place, by rw [outcome], saved⟩
  · exact .inr ⟨tree', failure, by rw [outcome], unwritten, grows⟩

end SettingsAction

namespace Invocation

variable {invocation : Invocation} {target : Path} {force terminal : Bool} {world : World}
  {settings : Settings}

theorem exists_format (valid : settings.validate = .ok ()) (invocation : Invocation) :
    ∃ format, invocation.format settings = .ok format := by
  have known : (OutputFormat.ofSetting? settings.output.format).isSome = true := by
    unfold Settings.validate at valid
    split at valid
    · cases valid
    · next known => simpa [Option.isSome_iff_ne_none] using known
  obtain ⟨configured, known⟩ := Option.isSome_iff_exists.1 known
  unfold format
  rw [known]
  cases invocation.output with
  | none => exact ⟨configured, rfl⟩
  | some format => exact ⟨format, rfl⟩

/-- A run of the command comes to what the command does. -/
theorem run_init (asked : invocation.command = .settings (.init target force))
    (found : invocation.settings world = .ok settings) (terminal : Bool) :
    let deed := SettingsAction.runInit target force world.tree
    let outcome := invocation.run terminal world
    outcome.failure = deed.failure ∧ outcome.tree = deed.tree ∧
      ∃ console : Console, outcome.output = console.renderAll deed.steps := by
  obtain ⟨format, chosen⟩ := exists_format (Settings.effective_eq_ok_iff.1 found).2 invocation
  simp only [run, found, runWith, chosen, Command.run, asked, SettingsAction.run, true_and]
  exact ⟨_, rfl⟩

theorem run_of_unusable (invocation : Invocation) {failure : Failure}
    (fails : invocation.settings world = .error failure) (terminal : Bool) :
    invocation.run terminal world =
      ⟨"", some failure, none, world.tree, invocation.color terminal⟩ := by
  rw [run, fails]

/-- A file that is there is kept or may be replaced. -/
theorem init_choice (tree : FileTree) (target : Path) (force : Bool) :
    force = false ∧ tree.has target = true ∨ force = true ∨ tree.has target = false := by
  cases force <;> simp

theorem run_init_of_has (asked : invocation.command = .settings (.init target false))
    (found : invocation.settings world = .ok settings) (stands : world.tree.has target = true) :
    let outcome := invocation.run terminal world
    outcome.failure = some (.settings (.alreadyThere target)) ∧ outcome.exitCode = 5 ∧
      outcome.tree = world.tree ∧ outcome.output = "" := by
  intro outcome
  obtain ⟨failure, tree, console, output⟩ := run_init asked found terminal
  rw [SettingsAction.runInit_of_has stands] at failure tree output
  refine ⟨failure, ?_, tree, output⟩
  rw [Outcome.exitCode, failure]
  rfl

theorem run_init_of_allowed (asked : invocation.command = .settings (.init target force))
    (found : invocation.settings world = .ok settings)
    (allowed : force = true ∨ world.tree.has target = false) :
    let outcome := invocation.run terminal world
    (outcome.failure = none ∧ ∃ place, world.tree.IsSave outcome.tree target
      (Settings.default.render (.ofPath target)) place) ∨
    (∃ failure, outcome.failure = some failure) ∧
      (world.tree.save target (Settings.default.render (.ofPath target))).2 = false ∧
      world.tree.GrowsAt outcome.tree (above target) := by
  intro outcome
  obtain ⟨failed, tree, -⟩ := run_init asked found terminal
  obtain ⟨tree', place, deed, saved⟩ | ⟨tree', failure, deed, unwritten, grows⟩ :=
    SettingsAction.runInit_of_allowed allowed
  · rw [deed] at failed tree
    exact .inl ⟨failed, place, tree ▸ saved⟩
  · rw [deed] at failed tree
    exact .inr ⟨⟨failure, failed⟩, unwritten, tree ▸ grows⟩

theorem exists_isSave_of_run_init (asked : invocation.command = .settings (.init target force))
    (found : invocation.settings world = .ok settings)
    (succeeds : (invocation.run terminal world).failure = none) :
    ∃ place, world.tree.IsSave (invocation.run terminal world).tree target
      (Settings.default.render (.ofPath target)) place := by
  rcases init_choice world.tree target force with ⟨rfl, stands⟩ | allowed
  · rw [(run_init_of_has asked found stands).1] at succeeds
    cases succeeds
  · rcases run_init_of_allowed asked found allowed with ⟨-, saved⟩ | ⟨⟨failure, failed⟩, -⟩
    · exact saved
    · rw [failed] at succeeds
      cases succeeds

theorem growsAt_of_run_init (asked : invocation.command = .settings (.init target force))
    (found : invocation.settings world = .ok settings)
    (fails : (invocation.run terminal world).failure ≠ none) :
    world.tree.GrowsAt (invocation.run terminal world).tree (above target) := by
  rcases init_choice world.tree target force with ⟨rfl, stands⟩ | allowed
  · rw [(run_init_of_has asked found stands).2.2.1]
    exact .refl _ _
  · rcases run_init_of_allowed asked found allowed with ⟨succeeds, -⟩ | ⟨-, -, grows⟩
    · exact absurd succeeds fails
    · exact grows

/-- The same without leave to replace the file. -/
def unforced (invocation : Invocation) (target : Path) : Invocation :=
  { invocation with command := .settings (.init target false) }

theorem settings_unforced (invocation : Invocation) (target : Path) (world : World) :
    (invocation.unforced target).settings world = invocation.settings world := rfl

/-- After the defaults were written, the command refuses, or the settings found now stop the run. -/
theorem run_init_again (found : invocation.settings world = .ok settings) {tree : FileTree}
    {place : Place}
    (saved : world.tree.IsSave tree target (Settings.default.render (.ofPath target)) place)
    (terminal : Bool) :
    let again := (invocation.unforced target).run terminal { world with tree }
    again.tree = tree ∧ again.output = "" ∧
      (again.failure = some (.settings (.alreadyThere target)) ∧ again.exitCode = 5 ∨
        invocation.config = none ∧ ∃ path failure,
          Settings.findFile? tree world.settingsDirectory = some path ∧
          world.tree.has path = false ∧ tree.place? path ≠ some place ∧
          invocation.settings { world with tree } = .error failure ∧
          again.failure = some failure) := by
  have same := settings_unforced invocation target { world with tree }
  rcases Settings.effective_again saved Settings.validate_default found with
    ⟨usable, found⟩ | ⟨unnamed, path, failure, decides, absent, elsewhere, fails⟩
  · obtain ⟨failure, code, kept, output⟩ :=
      run_init_of_has rfl (same.trans found) saved.has_self
    exact ⟨kept, output, .inl ⟨failure, code⟩⟩
  · have stops := run_of_unusable (invocation.unforced target) (same.trans fails) terminal
    intro again
    refine ⟨congrArg Outcome.tree stops, congrArg Outcome.output stops, .inr ⟨unnamed, path, failure,
      decides, absent, elsewhere, fails, congrArg Outcome.failure stops⟩⟩

end Invocation

/-! ## The place in the working directory -/

/-- The place of the file that is written when none is named. -/
def initPlace : Place := ⟨false, [".wc-connect.toml"]⟩

theorem mem_defaultPaths_initPath (directory : Option Path) :
    Command.initPath ∈ Settings.defaultPaths directory := by
  simp [Settings.defaultPaths, Command.initPath]

/-- The file in the working directory comes first. -/
theorem findFile?_of_has {tree : FileTree} (stands : tree.has Command.initPath = true)
    (directory : Option Path) : Settings.findFile? tree directory = some Command.initPath := by
  rw [Settings.findFile?, Settings.defaultPaths]
  exact List.find?_cons_of_pos stands

theorem place?_initPath (tree : FileTree) : tree.place? Command.initPath = some initPlace := by
  have start : FileTree.startOf Command.initPath = ⟨false, []⟩ := by decide +kernel
  have parts : Path.splitSlashes Command.initPath.text.toList [] = [".wc-connect.toml".toList] := by
    decide +kernel
  have given : tree.isDirectory ⟨false, []⟩ = true := FileTree.isDirectory_of_isGiven rfl
  rw [FileTree.place?, if_neg (by decide +kernel), start, parts, FileTree.follow?, if_pos given]
  rfl

theorem save_initPath {tree : FileTree} {content : String}
    (free : tree.find? Command.initPath ≠ some .directory) :
    (tree.save Command.initPath content).2 = true := by
  have above : Command.initPath.components.dropLast = [] := by decide +kernel
  have made (place : Place) (given : place.isGiven = true) :
      tree.makeDirectories place [] = (tree, true) := by
    rw [FileTree.makeDirectories, FileTree.isDirectory_of_isGiven given]
  have file : tree.isDirectory initPlace = false := by
    rw [FileTree.find?, place?_initPath, Option.bind_some] at free
    simpa [FileTree.isDirectory] using free
  have named : FileTree.endsInName Command.initPath = true := by decide +kernel
  simp only [FileTree.save, above, made _ (by rfl : (FileTree.startOf _).isGiven = true), if_true,
    FileTree.write, place?_initPath, named, file, Bool.not_false, Bool.and_self]

/-- No directory is above the file in the working directory, so saving it changes no other place. -/
theorem at?_of_isSave_initPath {tree tree' : FileTree} {content : String} {place other : Place}
    (saved : tree.IsSave tree' Command.initPath content place) (different : other ≠ initPlace) :
    tree'.at? other = tree.at? other := by
  have here : place = initPlace :=
    Option.some.inj (saved.leads.symm.trans (place?_initPath tree'))
  have none : above Command.initPath = [] := by decide +kernel
  rcases saved.others other (here ▸ different) with kept | ⟨made, -⟩
  · exact kept
  · rw [none] at made
    cases made

namespace Invocation

variable {invocation : Invocation} {force : Bool} {world : World} {settings : Settings}

/-- In the working directory only a directory can be in the way. -/
theorem run_init_initPath (terminal : Bool)
    (asked : invocation.command = .settings (.init Command.initPath force))
    (found : invocation.settings world = .ok settings)
    (allowed : force = true ∨ world.tree.has Command.initPath = false)
    (free : world.tree.find? Command.initPath ≠ some .directory) :
    let outcome := invocation.run terminal world
    outcome.failure = none ∧ ∃ place, world.tree.IsSave outcome.tree Command.initPath
      (Settings.default.render (.ofPath Command.initPath)) place := by
  rcases run_init_of_allowed asked found allowed with saved | ⟨-, unwritten, -⟩
  · exact saved
  · rw [save_initPath free] at unwritten
    cases unwritten

end Invocation

/-- A run without a named settings file takes the one in the working directory, if there is one. -/
theorem Settings.loadFrom_initPath {tree : FileTree} (stands : tree.has Command.initPath = true)
    (directory : Option Path) : loadFrom tree directory none = load tree Command.initPath := by
  rw [loadFrom, source?, Option.none_or, findFile?_of_has stands]

/-! ## What a new settings file changes -/

/-- `config init` keeps a file that is there unless it may be replaced. Where it succeeds, the file
holds the defaults, and elsewhere nothing has changed but for directories made on the way. Where it
fails, no more has changed than that. Done again, it changes nothing and fails, because the file
is there or because settings are found now at another default place and cannot be used. With no
settings file at all, the one in the working directory is found afterwards, and the settings are
what they were. -/
theorem init_keeps_files (invocation : Invocation) (target : Path) (force terminal : Bool)
    (world : World) (settings : Settings)
    (asked : invocation.command = .settings (.init target force))
    (found : invocation.settings world = .ok settings) :
    let outcome := invocation.run terminal world
    let later := { world with tree := outcome.tree }
    let again := (invocation.unforced target).run terminal later
    (force = false → world.tree.has target = true →
      outcome.failure = some (.settings (.alreadyThere target)) ∧ outcome.exitCode = 5 ∧
        outcome.tree = world.tree) ∧
    (outcome.failure = none →
      outcome.tree.find? target = some (.text (Settings.default.render (.ofPath target))) ∧
      Settings.load outcome.tree target = .ok .default ∧
      (∀ place, outcome.tree.place? target ≠ some place →
        outcome.tree.at? place = world.tree.at? place ∨ place ∈ above target ∧
          world.tree.at? place = none ∧ outcome.tree.at? place = some .directory) ∧
      ∀ path entry, world.tree.find? path = some entry →
        outcome.tree.place? path ≠ outcome.tree.place? target →
          outcome.tree.find? path = some entry) ∧
    (outcome.failure ≠ none → world.tree.GrowsAt outcome.tree (above target)) ∧
    (outcome.failure = none → again.tree = outcome.tree ∧ again.output = "" ∧
      (again.failure = some (.settings (.alreadyThere target)) ∧ again.exitCode = 5 ∨
        invocation.config = none ∧ ∃ path failure,
          Settings.findFile? outcome.tree world.settingsDirectory = some path ∧
          world.tree.has path = false ∧
          outcome.tree.place? path ≠ outcome.tree.place? target ∧
          invocation.settings later = .error failure ∧ again.failure = some failure)) ∧
    (target = Command.initPath → invocation.config = none →
      (∀ path ∈ Settings.defaultPaths world.settingsDirectory, world.tree.has path = false) →
        outcome.failure = none ∧
        Settings.findFile? outcome.tree world.settingsDirectory = some Command.initPath ∧
        settings = .default ∧ invocation.settings later = .ok settings) := by
  intro outcome later again
  have saved (succeeds : outcome.failure = none) : ∃ place, world.tree.IsSave outcome.tree target
      (Settings.default.render (.ofPath target)) place :=
    Invocation.exists_isSave_of_run_init asked found succeeds
  refine ⟨?_, fun succeeds => ?_, Invocation.growsAt_of_run_init asked found,
    fun succeeds => ?_, ?_⟩
  · rintro rfl stands
    obtain ⟨failure, code, tree, -⟩ := Invocation.run_init_of_has asked found stands
    exact ⟨failure, code, tree⟩
  · obtain ⟨place, saved⟩ := saved succeeds
    rw [saved.leads]
    refine ⟨saved.find?_self, Settings.load_written saved saved.leads, fun other different => ?_,
      fun path entry stands elsewhere => ?_⟩
    · exact saved.others other fun same => different (congrArg some same.symm)
    · exact (saved.find?_cases stands).elim (absurd · elsewhere) (·.2)
  · obtain ⟨place, saved⟩ := saved succeeds
    rw [saved.leads]
    exact Invocation.run_init_again found saved terminal
  · rintro rfl unnamed absent
    have lacking := absent _ (mem_defaultPaths_initPath _)
    have free : world.tree.find? Command.initPath ≠ some .directory := by
      intro directory
      rw [FileTree.has, directory] at lacking
      cases lacking
    obtain ⟨succeeds, place, saved⟩ :=
      Invocation.run_init_initPath terminal asked found (.inr lacking) free
    have stands : later.tree.has Command.initPath = true := saved.has_self
    have before : settings = .default := by
      have nothing : Settings.findFile? world.tree world.settingsDirectory = none :=
        List.find?_eq_none.2 fun path h => by simp [absent path h]
      have loads := (Settings.effective_eq_ok_iff.1 found).1
      rw [unnamed, Settings.loadFrom, Settings.source?, Option.none_or, nothing] at loads
      exact (Except.ok.inj loads).symm
    refine ⟨succeeds, findFile?_of_has stands _, before, Settings.effective_eq_ok_iff.2 ?_⟩
    rw [before, unnamed, Settings.loadFrom_initPath stands]
    exact ⟨Settings.load_written saved saved.leads, Settings.validate_default⟩

/-- A world that holds files and nothing else. -/
def World.ofTree (tree : FileTree) : World := ⟨tree, none, none, none, ⟨none, none⟩⟩

/-- What `config init --path` with a path asks for. -/
def initAt (target : Path) (force : Bool) : Invocation :=
  ⟨0, false, none, none, false, .settings (.init target force)⟩

/-- A file in a new directory, and the one in the working directory, which is then kept. -/
theorem init_keeps_files_emptyTree :
    let nested := initAt ⟨"conf/new.yaml"⟩ false
    let made := nested.run false (.ofTree .empty)
    let again := (nested.unforced ⟨"conf/new.yaml"⟩).run false (.ofTree made.tree)
    let usual := initAt Command.initPath false
    let first := usual.run false (.ofTree .empty)
    let refused := usual.run false (.ofTree first.tree)
    (made.failure = none ∧ Settings.load made.tree ⟨"conf/new.yaml"⟩ = .ok .default ∧
      again.exitCode = 5 ∧ again.tree = made.tree) ∧
    (first.failure = none ∧ Settings.findFile? first.tree none = some Command.initPath ∧
      usual.settings (.ofTree first.tree) = .ok .default) ∧
    refused.failure ≠ none ∧ refused.exitCode = 5 ∧ refused.tree = first.tree ∧
      first.tree.GrowsAt refused.tree (above Command.initPath) := by
  intro nested made again usual first refused
  have found (invocation : Invocation) (unnamed : invocation.config = none) :
      invocation.settings (.ofTree .empty) = .ok .default := by
    rw [Invocation.settings, unnamed]
    rfl
  have succeeds : made.failure = none := by decide +kernel
  have undecided : Settings.findFile? made.tree none = none := by decide +kernel
  obtain ⟨-, written, -, later, -⟩ := init_keeps_files nested ⟨"conf/new.yaml"⟩ false false
    (.ofTree .empty) .default rfl (found _ rfl)
  obtain ⟨kept, -, refuses⟩ := later succeeds
  have code : again.exitCode = 5 := by
    rcases refuses with ⟨-, code⟩ | ⟨-, path, _, decides, -⟩
    · exact code
    · cases undecided.symm.trans decides
  have absent : ∀ path ∈ Settings.defaultPaths none, FileTree.empty.has path = false := by
    decide +kernel
  obtain ⟨-, -, -, -, usually⟩ := init_keeps_files usual Command.initPath false false
    (.ofTree .empty) .default rfl (found _ rfl)
  obtain ⟨started, decides, -, same⟩ := usually rfl rfl absent
  have stands : first.tree.has Command.initPath = true := by decide +kernel
  obtain ⟨refuses, -, grows, -, -⟩ := init_keeps_files usual Command.initPath false false
    (.ofTree first.tree) .default rfl same
  obtain ⟨failure, exit, unchanged⟩ := refuses rfl stands
  have fails : refused.failure ≠ none := by
    rw [failure]
    nofun
  exact ⟨⟨succeeds, (written succeeds).2.1, code, kept⟩, ⟨started, decides, same⟩, fails, exit,
    unchanged, grows fails⟩

/-- The directory made above the file stands where settings are looked for. -/
theorem init_again_stops_early :
    let target : Path := ⟨".wc-connect.toml/x.json"⟩
    let outcome := (initAt target false).run false (.ofTree .empty)
    let again := (initAt target false).run false (.ofTree outcome.tree)
    (initAt target false).settings (.ofTree .empty) = .ok .default ∧ outcome.failure = none ∧
      again.tree = outcome.tree ∧ again.failure = some (.io "Is a directory (os error 21)") ∧
      again.exitCode = 1 ∧ again.exitCode ≠ 5 := by
  decide +kernel

end ServiceContract
