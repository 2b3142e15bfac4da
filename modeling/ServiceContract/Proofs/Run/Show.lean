import ServiceContract.Proofs.Run.Source
import ServiceContract.Proofs.Settings.Shown

/-!
# Settings that are shown and read again

`config show` prints the settings of the run without the blanks at the end of their text, which may
belong to the last text of a YAML document (`Invocation.shown_settings_read_back`). A saved file has
the whole text.
-/

namespace ServiceContract

namespace Invocation

variable {invocation : Invocation} {settings : Settings} {format : FileFormat}

/-- `config show` succeeds with any settings that can be used. -/
theorem runWith_show (asked : invocation.command = .settings (.show format))
    (usable : settings.validate = .ok ()) (terminal : Bool) (world : World) :
    let outcome := invocation.runWith settings terminal world
    outcome.failure = none ∧ outcome.output = settings.shown format := by
  obtain ⟨chosen, known⟩ := exists_format usable invocation
  simp only [runWith, known, Command.run, asked, SettingsAction.run]
  exact ⟨rfl, by simp [Deed.told, Console.renderAll, Console.render, Settings.shown]⟩

/-- What `config show` prints in TOML or JSON is always read as the settings of the run, and what it
prints in YAML just if the text that is written last keeps its end. -/
theorem shown_settings_read_back (invocation : Invocation) (settings : Settings)
    (format : FileFormat) (asked : invocation.command = .settings (.show format))
    (usable : settings.validate = .ok ()) (terminal : Bool) (world : World) :
    let outcome := invocation.runWith settings terminal world
    (invocation.settings world = .ok settings → invocation.run terminal world = outcome) ∧
    outcome.failure = none ∧
    outcome.output = Text.trimEnd (settings.render format) ++ "\n" ∧
    ∀ tree path, tree.find? path = some (.text outcome.output) → FileFormat.ofPath path = format →
      (Settings.load tree path = .ok settings ↔ settings.IsShownWhole format) := by
  intro outcome
  obtain ⟨succeeds, output⟩ := runWith_show asked usable terminal world
  refine ⟨fun found => run_of_usable invocation found terminal, succeeds, output,
    fun tree path stored notation' => ?_⟩
  rw [Settings.load, stored, notation']
  show Settings.parse path format outcome.output = .ok settings ↔ _
  rw [show outcome.output = settings.shown format from output]
  exact settings.parse_shown_iff format path

/-- A run that shows its settings. -/
def showing (format : FileFormat) : Invocation :=
  ⟨0, false, none, none, false, .settings (.show format)⟩

/-- A tree with one file in the working directory. -/
def treeOf (name content : String) : FileTree := ⟨[(⟨false, [name]⟩, .text content)]⟩

/-- The file is found by its name, which is no path. -/
theorem find?_treeOf {name : String} (start : FileTree.startOf ⟨name⟩ = ⟨false, []⟩)
    (parts : Path.splitSlashes name.toList [] = [name.toList])
    (enters : Place.enter ⟨false, []⟩ name.toList = ⟨false, [name]⟩)
    (named : name ≠ "" ∧ name ≠ "..") (content : String) :
    (treeOf name content).find? ⟨name⟩ = some (.text content) := by
  have given : (treeOf name content).isDirectory ⟨false, []⟩ = true :=
    FileTree.isDirectory_of_isGiven rfl
  have nonempty : ¬(Path.mk name).text.isEmpty = true := by simpa using named.1
  have place : (treeOf name content).place? ⟨name⟩ = some ⟨false, [name]⟩ := by
    rw [FileTree.place?, if_neg nonempty, start, parts, FileTree.follow?, if_pos given, enters]
    rfl
  rw [FileTree.find?, place, Option.bind_some]
  simp [FileTree.at?, Place.isGiven, named.2, treeOf]

/-- One line feed at the end is shown in YAML, and whatever is at the end in TOML. -/
theorem shown_settings_read_back_lines :
    let line : Settings := { Settings.default with logging := ⟨none, some "a\n"⟩ }
    let blanks : Settings := { Settings.default with logging := ⟨some "\n \n", none⟩ }
    let shown (format : FileFormat) (settings : Settings) :=
      ((showing format).runWith settings false (.ofTree .empty)).output
    Settings.load (treeOf "shown.yml" (shown .yaml line)) ⟨"shown.yml"⟩ = .ok line ∧
      Settings.load (treeOf "shown.toml" (shown .toml blanks)) ⟨"shown.toml"⟩ = .ok blanks := by
  intro line blanks shown
  obtain ⟨-, -, -, yaml⟩ := shown_settings_read_back (showing .yaml) line .yaml rfl (by decide)
    false (.ofTree .empty)
  obtain ⟨-, -, -, toml⟩ := shown_settings_read_back (showing .toml) blanks .toml rfl (by decide)
    false (.ofTree .empty)
  have keeps : ∀ t ∈ line.lastText?, Yaml.KeepsEnd t := by
    rintro t ⟨⟩
    decide +kernel
  have yml : (treeOf "shown.yml" (shown .yaml line)).find? ⟨"shown.yml"⟩ = some (.text _) :=
    find?_treeOf (by decide +kernel) (by decide +kernel) (by decide +kernel) (by decide) _
  have tml : (treeOf "shown.toml" (shown .toml blanks)).find? ⟨"shown.toml"⟩ = some (.text _) :=
    find?_treeOf (by decide +kernel) (by decide +kernel) (by decide +kernel) (by decide) _
  exact ⟨(yaml _ _ yml (by decide)).2 fun _ => keeps, (toml _ _ tml (by decide)).2 nofun⟩

/-- Settings whose last text ends with two line feeds. -/
def spacedSettings : Settings := { Settings.default with logging := ⟨none, some "a\n\n"⟩ }

/-- These settings, in a file. -/
def spacedWorld : World :=
  .ofTree (treeOf ".wc-connect.json" "\x7b\"logging\":\x7b\"format\":\"a\\n\\n\"\x7d\x7d")

theorem settings_spacedWorld : (showing .yaml).settings spacedWorld = .ok spacedSettings := by
  decide +kernel

/-- What is shown in YAML lacks the second line feed. -/
theorem shown_spacedSettings : spacedSettings.shown .yaml =
    "validation:\n  groups:\n  - shipping\n  - taxes\n  all_groups: false\noutput:\n" ++
      "  format: human\n  color: true\n  progress: true\nlogging:\n  format: |+\n    a\n" := by
  rw [← String.toList_inj, Settings.toList_shown, Settings.render_yaml]
  simp only [Settings.firstMembers, Settings.lastMembers, spacedSettings, Settings.default,
    LogSettings.default, Scope.default, OutputSettings.default, List.map, Option.toList,
    List.nil_append, Yaml.laterMembers, Yaml.valueText, Yaml.member, Yaml.node, Yaml.laterItems]
  decide +kernel

/-- Neither are the settings read from it then. -/
theorem shown_settings_lose_end :
    let shown := ((showing .yaml).run false spacedWorld).output
    (showing .yaml).settings spacedWorld = .ok spacedSettings ∧
      spacedSettings.validate = .ok () ∧
      Settings.load (treeOf "shown.yaml" shown) ⟨"shown.yaml"⟩ =
        .ok { Settings.default with logging := ⟨none, some "a\n"⟩ } ∧
      Settings.load (treeOf "shown.yaml" shown) ⟨"shown.yaml"⟩ ≠ .ok spacedSettings := by
  have usable : spacedSettings.validate = .ok () := by decide
  have output : ((showing .yaml).run false spacedWorld).output = spacedSettings.shown .yaml := by
    rw [run_of_usable _ settings_spacedWorld]
    exact (runWith_show rfl usable false spacedWorld).2
  rw [output, shown_spacedSettings]
  refine ⟨settings_spacedWorld, usable, ?_, ?_⟩ <;> decide +kernel

end Invocation

end ServiceContract
