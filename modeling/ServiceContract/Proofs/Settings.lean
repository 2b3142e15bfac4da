import ServiceContract.Proofs.FileTree
import ServiceContract.Proofs.Overlay
import ServiceContract.Proofs.Report
import ServiceContract.Proofs.Toml.RoundTrip
import ServiceContract.Settings.File

/-!
# Settings that are written and read

Settings are kept by their form, so that they are read back from each of the three notations, and a
saved file gives them again (`Settings.load_of_save`). What a file leaves out has its default, and
what no field is named after is ignored (`Settings.files_overlay_defaults`).
-/

namespace ServiceContract

/-! ## What the forms keep -/

theorem Form.keeps_optional_text (x : Option String) : (Form.option .text).Keeps x := by
  rw [Keeps]
  exact fun s _ => ⟨trivial, keeps_text s⟩

theorem OutputSettings.keeps (s : OutputSettings) : form.Keeps s := by
  rw [form, Form.Keeps]
  refine ⟨rfl, by decide, ?_⟩
  exact Fields.keep_cons _ trivial (Form.keeps_text _) <|
    Fields.keep_cons _ trivial (Form.keeps_flag _) <|
    Fields.keep_cons _ trivial (Form.keeps_flag _) Fields.keep_nil

theorem LogSettings.keeps (s : LogSettings) : form.Keeps s := by
  rw [form, Form.Keeps]
  refine ⟨rfl, by decide, ?_⟩
  exact Fields.keep_cons_option (Form.keeps_optional_text _) <|
    Fields.keep_cons_option (Form.keeps_optional_text _) Fields.keep_nil

namespace Settings

theorem keeps (s : Settings) : form.Keeps s := by
  rw [form, Form.Keeps]
  refine ⟨rfl, by decide, ?_⟩
  exact Fields.keep_cons _ trivial s.validation.keeps <|
    Fields.keep_cons _ trivial s.output.keeps <|
    Fields.keep_cons _ trivial s.logging.keeps Fields.keep_nil

theorem hasWords : form.HasWords := by
  rw [form, Form.HasWords]
  simp only [Fields.HaveWords, Form.HasWords, Scope.form, OutputSettings.form, LogSettings.form,
    and_true]
  decide

/-! ## Fields that are left out -/

/-- The settings with defaults in the fields that are left out. -/
def without (s : Settings) (omitted : Omission) : Settings where
  validation :=
    if omitted ["validation"] then .default
    else
      { groups := if omitted ["validation", "groups"] then ["shipping", "taxes"]
          else s.validation.groups
        allGroups := if omitted ["validation", "all_groups"] then false
          else s.validation.allGroups }
  output :=
    if omitted ["output"] then .default
    else
      { format := if omitted ["output", "format"] then "human" else s.output.format
        color := if omitted ["output", "color"] then true else s.output.color
        progress := if omitted ["output", "progress"] then true else s.output.progress }
  logging :=
    if omitted ["logging"] then .default
    else
      { level := if omitted ["logging", "level"] then none else s.logging.level
        format := if omitted ["logging", "format"] then none else s.logging.format }

theorem overlay_eq_without (s : Settings) (omitted : Omission) :
    form.overlay omitted s = s.without omitted := by
  simp only [form, Form.overlay, Fields.overlay, Scope.form, OutputSettings.form, LogSettings.form]
  rfl

theorem ofJson?_of_edits {s : Settings} {omitted : Omission} {tree : Json}
    (edits : form.Edits s omitted tree) : form.ofJson? tree = some (s.without omitted) := by
  rw [form.ofJson?_of_edits s s.keeps omitted tree edits, overlay_eq_without]

/-! ## The notations -/

/-- The sections of the settings. -/
def sections (s : Settings) : List (String × Members) :=
  [("validation", [("groups", .array (s.validation.groups.map .string)),
      ("all_groups", .bool s.validation.allGroups)]),
    ("output", [("format", .string s.output.format), ("color", .bool s.output.color),
      ("progress", .bool s.output.progress)]),
    ("logging", s.logging.level.toList.map (fun level => ("level", .string level)) ++
      s.logging.format.toList.map fun format => ("format", .string format))]

theorem toJson_eq (s : Settings) : form.toJson s = .object (Toml.document s.sections) := by
  obtain ⟨validation, output, level, format⟩ := s
  cases level <;> cases format <;> rfl

open Toml (IsSetting IsSection IsDocument)

theorem isSection_validation (scope : Scope) :
    IsSection [("groups", .array (scope.groups.map .string)),
      ("all_groups", .bool scope.allGroups)] where
  bare := by
    simp only [List.forall_mem_cons]
    exact ⟨by decide, by decide, nofun⟩
  settings := by
    simp only [List.forall_mem_cons]
    exact ⟨.texts _, .flag _, nofun⟩
  distinct := by
    show ["groups", "all_groups"].Nodup
    decide

theorem isSection_output (s : OutputSettings) :
    IsSection [("format", .string s.format), ("color", .bool s.color),
      ("progress", .bool s.progress)] where
  bare := by
    simp only [List.forall_mem_cons]
    exact ⟨by decide, by decide, by decide, nofun⟩
  settings := by
    simp only [List.forall_mem_cons]
    exact ⟨.text _, .flag _, .flag _, nofun⟩
  distinct := by
    show ["format", "color", "progress"].Nodup
    decide

theorem isSection_logging (s : LogSettings) :
    IsSection (s.level.toList.map (fun level => ("level", .string level)) ++
      s.format.toList.map fun format => ("format", .string format)) := by
  have named {member : String × Json} (h : member ∈ s.level.toList.map (fun level =>
      ("level", .string level)) ++ s.format.toList.map fun format => ("format", .string format)) :
      (member.1 = "level" ∨ member.1 = "format") ∧ IsSetting member.2 := by
    rcases List.mem_append.1 h with h | h
    · obtain ⟨level, -, rfl⟩ := List.mem_map.1 h
      exact ⟨.inl rfl, .text level⟩
    · obtain ⟨format, -, rfl⟩ := List.mem_map.1 h
      exact ⟨.inr rfl, .text format⟩
  refine ⟨fun member h => ?_, fun member h => (named h).2, ?_⟩
  · rcases (named h).1 with key | key
    · rw [key]; decide
    · rw [key]; decide
  · obtain ⟨level, format⟩ := s
    cases level <;> cases format <;> simp [Members.keys]

theorem isDocument_sections (s : Settings) : IsDocument s.sections where
  bare := by
    simp only [sections, List.forall_mem_cons]
    exact ⟨by decide, by decide, by decide, nofun⟩
  sections := by
    simp only [sections, List.forall_mem_cons]
    exact ⟨isSection_validation s.validation, isSection_output s.output,
      isSection_logging s.logging, nofun⟩
  distinct := by
    show ["validation", "output", "logging"].Nodup
    decide

theorem parse_render (s : Settings) (path : Path) (format : FileFormat) :
    parse path format (s.render format) = .ok s := by
  cases format with
  | toml =>
    have read := Toml.read?_print s.isDocument_sections
    have tree := Form.ofJson?_toJson s.keeps
    rw [toJson_eq] at tree
    simp only [parse, render, toJson_eq, Json.members?, Option.getD_some, read, Option.bind_some,
      tree]
    rfl
  | json =>
    have read := (Json.isReadBack form trivial s.keeps).2
    simp only [parse, render, read]
    rfl
  | yaml =>
    have container : Yaml.IsContainer (form.toJson s) := trivial
    have read := Yaml.readAs?_print hasWords container s.keeps
    simp only [parse, render, read]
    rfl

/-! ## Files -/

variable {s : Settings} {tree tree' : FileTree} {path : Path}

/-- Saving writes the settings in the notation of the path. -/
theorem find?_of_save (saved : s.save tree path = (tree', .ok ())) :
    tree'.find? path = some (.text (s.render (.ofPath path))) := by
  unfold save at saved
  split at saved
  · next written =>
    obtain rfl := (Prod.mk.inj saved).1
    exact FileTree.find?_of_save written
  · cases (Prod.mk.inj saved).2

/-- Saving fails only where the text cannot be written. -/
theorem exists_save_eq_ok (written : (tree.save path (s.render (.ofPath path))).2 = true) :
    ∃ tree', s.save tree path = (tree', .ok ()) := by
  unfold save
  split
  · exact ⟨_, rfl⟩
  · next failed =>
    rw [failed] at written
    cases written

/-- Loading a file that was saved gives the settings. -/
theorem load_of_save (saved : s.save tree path = (tree', .ok ())) : load tree' path = .ok s := by
  rw [load, find?_of_save saved]
  exact parse_render s path _

theorem ofPath_eq_toml_iff : FileFormat.ofPath path = .toml ↔ path.extension? = some "toml" := by
  unfold FileFormat.ofPath
  split
  · simp [*]
  · simp [*]
  · simp [*]
  · next notToml _ _ => exact ⟨nofun, fun h => absurd h notToml⟩

theorem ofPath_eq_yaml_iff : FileFormat.ofPath path = .yaml ↔
    path.extension? = some "yaml" ∨ path.extension? = some "yml" := by
  unfold FileFormat.ofPath
  split
  · simp [*]
  · simp [*]
  · simp [*]
  · next notYaml notYml => exact ⟨nofun, fun h => h.elim (absurd · notYaml) (absurd · notYml)⟩

/-- From a tree of settings in which some fields are left out, unknown members stand and the order
is any, the settings are read with exactly the defaults of these fields. And a file that was saved,
in the notation of its extension, is loaded as the settings that it was saved from. -/
theorem files_overlay_defaults :
    (∀ (s : Settings) (omitted : Omission) (tree : Json), form.Edits s omitted tree →
      form.ofJson? tree = some (s.without omitted)) ∧
    (∀ (s : Settings) (tree : Json), form.Edits s .nothing tree → form.ofJson? tree = some s) ∧
    (∀ (s : Settings) (tree tree' : FileTree) (path : Path),
      s.save tree path = (tree', .ok ()) →
        tree'.find? path = some (.text (s.render (.ofPath path))) ∧ load tree' path = .ok s) ∧
    ∀ path : Path, (FileFormat.ofPath path = .toml ↔ path.extension? = some "toml") ∧
      (FileFormat.ofPath path = .yaml ↔
        path.extension? = some "yaml" ∨ path.extension? = some "yml") := by
  refine ⟨fun s omitted tree edits => ofJson?_of_edits edits, fun s tree edits => ?_,
    fun s tree tree' path saved => ⟨find?_of_save saved, load_of_save saved⟩,
    fun path => ⟨ofPath_eq_toml_iff, ofPath_eq_yaml_iff⟩⟩
  exact ofJson?_of_edits edits

/-- Settings with quotes, a backslash, a control and line ends in their texts. -/
def oddSettings : Settings :=
  ⟨⟨["it's", "\"a\"\n"], true⟩, ⟨"C:\\", false, false⟩, ⟨some "\u0000", some "\r\n\"\"\"'"⟩⟩

/-- A section and a field of another one are left out. -/
def oddOmission : Omission := fun path => path = ["output"] || path = ["logging", "level"]

/-- The rest in another order, with members that are no settings. -/
def oddTree : Json :=
  .object [("extra", .null),
    ("logging", .object [("colour", .bool true), ("format", .string "\r\n\"\"\"'")]),
    ("validation", .object [("all_groups", .bool true),
      ("groups", .array [.string "it's", .string "\"a\"\n"])])]

theorem edits_oddTree : form.Edits oddSettings oddOmission oddTree := by
  have validation : Scope.form.Edits oddSettings.validation (oddOmission.within "validation")
      (.object [("all_groups", .bool true),
        ("groups", .array [.string "it's", .string "\"a\"\n"])]) :=
    ⟨[("groups", .array [.string "it's", .string "\"a\"\n"]), ("all_groups", .bool true)], [], _,
      rfl, (List.reverse_perm _).symm, nofun,
      Fields.edits_cons_kept (by decide) nofun rfl <|
        Fields.edits_cons_kept (by decide) nofun rfl Fields.edits_nil⟩
  have logging : LogSettings.form.Edits oddSettings.logging (oddOmission.within "logging")
      (.object [("colour", .bool true), ("format", .string "\r\n\"\"\"'")]) :=
    ⟨[("format", .string "\r\n\"\"\"'")], [("colour", .bool true)], _, rfl,
      (List.reverse_perm _).symm, by decide,
      Fields.edits_cons_omitted (by decide) rfl <|
        Fields.edits_cons_kept (by decide) nofun rfl Fields.edits_nil⟩
  exact ⟨[("validation", _), ("logging", _)], [("extra", .null)], _, rfl,
    (List.reverse_perm _).symm, by decide,
    Fields.edits_cons_kept (by decide) nofun validation <|
      Fields.edits_cons_omitted (by decide) rfl <|
        Fields.edits_cons_kept (by decide) nofun logging Fields.edits_nil⟩

theorem files_overlay_defaults_oddSettings :
    form.Edits oddSettings oddOmission oddTree ∧
    form.ofJson? oddTree =
      some ⟨⟨["it's", "\"a\"\n"], true⟩, ⟨"human", true, true⟩, ⟨none, some "\r\n\"\"\"'"⟩⟩ ∧
    form.ofJson? (form.toJson oddSettings) = some oddSettings ∧
    ∃ tree, oddSettings.save .empty ⟨"conf/odd.toml"⟩ = (tree, .ok ()) ∧
      load tree ⟨"conf/odd.toml"⟩ = .ok oddSettings := by
  obtain ⟨overlay, whole, file, -⟩ := files_overlay_defaults
  have written : (FileTree.empty.save ⟨"conf/odd.toml"⟩
      (oddSettings.render (.ofPath ⟨"conf/odd.toml"⟩))).2 = true := by decide +kernel
  obtain ⟨tree, saved⟩ := exists_save_eq_ok written
  exact ⟨edits_oddTree, overlay _ _ _ edits_oddTree, whole _ _ (form.edits_toJson _), tree, saved,
    (file _ _ _ _ saved).2⟩

end Settings

end ServiceContract
