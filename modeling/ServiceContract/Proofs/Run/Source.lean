import ServiceContract.Proofs.Run.Init

/-!
# The file that decides a run

The file that is named decides the settings of a run, or else the first default place where
something stands (`Settings.Decides`). `config path` tells this place, and runs that agree on it and
on what stands there have the same settings, whatever else is in their trees
(`Invocation.path_tells_source`).
-/

namespace ServiceContract

namespace Settings

variable {tree tree' : FileTree} {directory directory' named : Option Path} {path : Path}

/-! ## The place that decides -/

/-- A place decides the settings of a run: it is named for the run, or nothing is named and it is
the first default place where something stands. -/
inductive Decides (tree : FileTree) (directory : Option Path) :
    (named : Option Path) → Path → Prop
  | named (path : Path) : Decides tree directory (some path) path
  | found {before after : List Path} {path : Path}
      (split : defaultPaths directory = before ++ path :: after)
      (absent : ∀ other ∈ before, tree.has other = false) (stands : tree.has path = true) :
      Decides tree directory none path

theorem findFile?_eq_some_iff :
    findFile? tree directory = some path ↔ Decides tree directory none path := by
  constructor
  · intro found
    obtain ⟨stands, before, after, split, absent⟩ := List.find?_eq_some_iff_append.1 found
    exact .found split (fun other h => by simpa using absent other h) stands
  · intro decides
    cases decides with
    | found split absent stands =>
      exact List.find?_eq_some_iff_append.2
        ⟨stands, _, _, split, fun other h => by simpa using absent other h⟩

theorem decides_named_iff {file : Path} :
    Decides tree directory (some file) path ↔ path = file := by
  constructor
  · rintro ⟨⟩
    rfl
  · rintro rfl
    exact .named path

theorem source?_eq_some_iff :
    source? tree directory named = some path ↔ Decides tree directory named path := by
  cases named with
  | none => exact findFile?_eq_some_iff
  | some file => rw [decides_named_iff, source?, Option.some_or, Option.some.injEq, eq_comm]

theorem source?_eq_none_iff : source? tree directory named = none ↔
    named = none ∧ ∀ path ∈ defaultPaths directory, tree.has path = false := by
  simp [source?, findFile?]

/-- Runs for which the same places decide have the same source. -/
theorem source?_congr
    (same : ∀ path, Decides tree directory named path ↔ Decides tree' directory' named path) :
    source? tree directory named = source? tree' directory' named := by
  refine Option.ext fun path => ?_
  rw [source?_eq_some_iff, source?_eq_some_iff, same]

/-- The settings of a run depend on the place that decides and on what stands there. -/
theorem effective_congr
    (same : ∀ path, Decides tree directory named path ↔ Decides tree' directory' named path)
    (content : ∀ path, Decides tree directory named path → tree'.find? path = tree.find? path) :
    effective tree' directory' named = effective tree directory named := by
  have loads : loadFrom tree' directory' named = loadFrom tree directory named := by
    rw [loadFrom, loadFrom, ← source?_congr same]
    cases decides : source? tree directory named with
    | none => rfl
    | some path => exact load_congr (content path (source?_eq_some_iff.1 decides))
  rw [effective, effective, loads]

/-! ## What is told about it -/

/-- What is shown where no file decides is not the text of a default place. -/
theorem text_ne_noFile (h : path ∈ defaultPaths directory) :
    path.text ≠ SettingsAction.noFile := by
  have last : SettingsAction.noFile.toList.getLast? = some ')' := by decide
  intro same
  rw [← same] at last
  rcases List.mem_append.1 h with here | inDirectory
  · have ends : ∀ path ∈ [⟨".wc-connect.toml"⟩, ⟨".wc-connect.yaml"⟩, ⟨".wc-connect.json"⟩],
        (Path.text path).toList.getLast? ≠ some ')' := by decide
    exact ends path here last
  · obtain ⟨d, -, member⟩ := List.mem_flatMap.1 inDirectory
    have ends : ∀ suffix ∈ ["/wc-connect/config.toml", "/wc-connect/config.yaml",
        "/wc-connect/config.json"], (d.text ++ suffix).toList.getLast? ≠ some ')' := by
      intro suffix hsuffix
      have solid : ∀ suffix ∈ ["/wc-connect/config.toml", "/wc-connect/config.yaml",
          "/wc-connect/config.json"], suffix.toList ≠ [] ∧ suffix.toList.getLast? ≠ some ')' := by
        decide
      obtain ⟨nonempty, other⟩ := solid suffix hsuffix
      rwa [String.toList_append, List.getLast?_append_of_ne_nil _ nonempty]
    obtain ⟨suffix, hsuffix, rfl⟩ : ∃ suffix ∈ ["/wc-connect/config.toml",
        "/wc-connect/config.yaml", "/wc-connect/config.json"], path = ⟨d.text ++ suffix⟩ := by
      simpa using member
    exact ends suffix hsuffix last

theorem text_ne_of_source? (unlike : named ≠ some ⟨SettingsAction.noFile⟩)
    (decides : source? tree directory named = some path) :
    path.text ≠ SettingsAction.noFile := by
  cases source?_eq_some_iff.1 decides with
  | named =>
    intro same
    exact unlike (congrArg some (congrArg Path.mk same))
  | found split absent stands =>
    have member : path ∈ defaultPaths directory := by
      rw [split]
      simp
    exact text_ne_noFile member

/-- Usable settings were read from the file that decides, or are the defaults. -/
theorem read_of_effective {s : Settings} (found : effective tree directory named = .ok s) :
    (source? tree directory named).elim (s = default) fun path => load tree path = .ok s := by
  have loads := (effective_eq_ok_iff.1 found).1
  rw [loadFrom] at loads
  cases decides : source? tree directory named with
  | none =>
    rw [decides] at loads
    exact (Except.ok.inj loads).symm
  | some path =>
    rw [decides] at loads
    exact loads

end Settings

namespace Invocation

open Settings (Decides)

variable {invocation : Invocation} {terminal : Bool} {world world' : World} {settings : Settings}

theorem run_of_usable (invocation : Invocation) (found : invocation.settings world = .ok settings)
    (terminal : Bool) :
    invocation.run terminal world = invocation.runWith settings terminal world := by
  rw [run, found]

/-- `config path` succeeds with any settings, and prints their source on a line. -/
theorem run_path (asked : invocation.command = .settings .path)
    (found : invocation.settings world = .ok settings) (terminal : Bool) :
    let outcome := invocation.run terminal world
    outcome.failure = none ∧ outcome.output =
      (Settings.source? world.tree world.settingsDirectory invocation.config).elim
        SettingsAction.noFile Path.text ++ "\n" := by
  obtain ⟨format, chosen⟩ := exists_format (Settings.effective_eq_ok_iff.1 found).2 invocation
  simp only [run_of_usable invocation found, runWith, chosen, Command.run, asked,
    SettingsAction.run]
  exact ⟨rfl, by simp [Deed.told, Console.renderAll, Console.render]⟩

theorem failure_run_path_iff (asked : invocation.command = .settings .path) (terminal : Bool)
    (world : World) : (invocation.run terminal world).failure = none ↔
      ∃ settings, invocation.settings world = .ok settings := by
  cases found : invocation.settings world with
  | ok settings => exact iff_of_true (run_path asked found terminal).1 ⟨settings, rfl⟩
  | error failure =>
    rw [run_of_unusable invocation found]
    exact iff_of_false nofun nofun

/-- A line tells one text. -/
theorem line_inj {s t : String} : s ++ "\n" = t ++ "\n" ↔ s = t := by
  rw [← String.toList_inj, String.toList_append, String.toList_append, List.append_left_inj,
    String.toList_inj]

/-- A settings file in YAML and, behind it, something else at the place for JSON. -/
def shadowing (hidden : Entry) : World :=
  .ofTree ⟨[(⟨false, [".wc-connect.yaml"]⟩, .text "output:\n  color: false\n"),
    (⟨false, [".wc-connect.json"]⟩, hidden)]⟩

theorem decides_shadowing {hidden : Entry} (h : hidden ∈ [.text "no settings", .directory])
    (path : Path) :
    Decides (shadowing hidden).tree none none path ↔ path = ⟨".wc-connect.yaml"⟩ := by
  have source : ∀ hidden ∈ [.text "no settings", .directory],
      Settings.source? (shadowing hidden).tree none none = some ⟨".wc-connect.yaml"⟩ := by
    decide +kernel
  rw [← Settings.source?_eq_some_iff, source hidden h, Option.some.injEq, eq_comm]

end Invocation

end ServiceContract
