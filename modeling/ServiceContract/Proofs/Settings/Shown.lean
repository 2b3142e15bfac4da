import ServiceContract.Proofs.Settings
import ServiceContract.Proofs.Yaml.Clipped

/-!
# Settings that are shown
-/

namespace ServiceContract

open Text (EndsLine EndsLines EndsSolid endsLine_of_solid)

/-! ## TOML -/

namespace Toml

variable {v : Json} {members : Members} {tables : List (String × Members)}

/-- The text of a setting ends with a quote, a bracket or a letter. -/
theorem endsLine_value (setting : IsSetting v) : EndsLine (value v ++ ['\n']) := by
  have ends (before : List Char) {after : List Char} (c : Char) (last : after.getLast? = some c)
      (solid : Text.isBlank c = false) : EndsLine ((before ++ after) ++ ['\n']) := by
    have nonempty : after ≠ [] := by
      rintro rfl
      cases last
    refine endsLine_of_solid (by simp [nonempty]) fun d hd => ?_
    rw [List.getLast?_append_of_ne_nil _ nonempty, last] at hd
    obtain rfl : c = d := Option.some.inj hd
    exact solid
  cases setting with
  | text s =>
    have written := written_text s
    rw [value]
    generalize text s = chars at written ⊢
    cases written with
    | basic | basicLines => exact ends _ '"' rfl rfl
    | literal | literalLines => exact ends _ '\'' rfl rfl
  | flag b => cases b <;> exact ends [] 'e' rfl rfl
  | texts texts =>
    rcases texts with _ | ⟨_, _ | ⟨_, _⟩⟩
    · exact ends ['['] ']' rfl rfl
    · exact ends _ ']' rfl rfl
    · exact ends _ ']' rfl rfl

theorem endsLines_plainMembers (settings : ∀ member ∈ members, IsSetting member.2) :
    EndsLines (plainMembers members) := by
  induction members with
  | nil => exact .inl rfl
  | cons member members ih =>
    obtain ⟨key, v⟩ := member
    obtain ⟨hv, settings⟩ := List.forall_mem_cons.1 settings
    have written : plainMembers ((key, v) :: members) =
        (keyChars key ++ [' ', '=', ' '] ++ (value v ++ ['\n'])) ++ plainMembers members := by
      rw [plainMembers]
      · simp
      · exact fun inner h => hv.notObject inner h
    rw [written]
    exact .inr (((endsLine_value hv).append _).append_lines (ih settings))

/-- A section ends as its last member does, or else as its header. -/
theorem endsLine_section (key : List Char) (settings : ∀ member ∈ members, IsSetting member.2) :
    EndsLine (key ++ ']' :: '\n' :: plainMembers members) := by
  have header : EndsLine (key ++ [']', '\n']) := ⟨key, ']', rfl, rfl⟩
  simpa using header.append_lines (endsLines_plainMembers settings)

theorem endsLines_sections (bare : ∀ table ∈ tables, isBareKey table.1 = true)
    (ok : ∀ table ∈ tables, IsSection table.2) : EndsLines (sections [] (document tables)) := by
  induction tables with
  | nil =>
    rw [document, List.map_nil, sections]
    exact .inl rfl
  | cons table tables ih =>
    obtain ⟨key, inner⟩ := table
    obtain ⟨hkey, bare⟩ := List.forall_mem_cons.1 bare
    obtain ⟨hinner, ok⟩ := List.forall_mem_cons.1 ok
    have here := (endsLine_section key.toList hinner.settings).append ['\n', '[']
    rw [sections_cons hkey hinner]
    exact .inr (by simpa using here.append_lines (ih bare ok))

/-- A document with a section ends right behind its last line. -/
theorem endsLine_print (ok : IsDocument tables) (nonempty : tables ≠ []) :
    EndsLine (print (document tables)).toList := by
  obtain ⟨⟨key, inner⟩, tables, rfl⟩ := List.exists_cons_of_ne_nil nonempty
  obtain ⟨hkey, bare⟩ := List.forall_mem_cons.1 ok.bare
  obtain ⟨hinner, sections⟩ := List.forall_mem_cons.1 ok.sections
  have first := (endsLine_section key.toList hinner.settings).cons '['
  rw [toList_print, sections_cons hkey hinner]
  simpa using first.append_lines (endsLines_sections bare sections)

end Toml

/-! ## JSON -/

/-- An object ends with its brace. -/
theorem Json.endsSolid_pretty (members : Members) :
    EndsSolid (Json.object members).pretty.toList := by
  intro c hc
  rw [pretty, String.toList_ofList] at hc
  cases members with
  | nil =>
    obtain rfl : '\x7d' = c := by simpa [render] using hc
    rfl
  | cons member members =>
    rw [render, List.getLast?_concat] at hc
    obtain rfl : '\x7d' = c := Option.some.inj hc
    rfl

/-! ## YAML -/

section Yaml

open Yaml

namespace LogSettings

variable {s : LogSettings} {source : Source} {node : Node} {jumps left : Nat}

/-- The last text is read from the node that stands in its place. -/
theorem ofNode?_format {level : Option String} (h : form.ofNode? source jumps (.mapping none none
      (toPairs (level.toList.map fun level => ("level", .string level)) ++
        [(plainNode "format", node)])) = some (s, left)) :
    (Form.option .text).ofNode? source jumps node = some (s.format, left) := by
  have written : ∀ m ∈ level.toList.map (fun level => ("level", Json.string level)),
      m ∈ [("level", (Form.option .text).toJson level), ("format", .null)] := by
    cases level <;> simp [Form.toJson]
  have distinct : (Members.keys (level.toList.map fun level => ("level", Json.string level)) ++
      ["format"]).Nodup := by
    cases level <;> simp [Members.keys]
  obtain ⟨slots, b, fill, complete, rfl⟩ :=
    Form.ofNode?_concat (LogSettings.keeps ⟨level, none⟩) written distinct (by decide) h
  have other : "level" ≠ "format" := by decide
  simp only [Fields.fillFrom?, Fields.slots, if_neg other, if_true, Option.map_eq_some_iff] at fill
  obtain ⟨_, ⟨⟨format, _⟩, read, rfl⟩, fill⟩ := fill
  obtain ⟨rfl, rfl⟩ := Prod.mk.inj fill
  rw [read]
  simp only [Fields.complete, Option.or_some] at complete
  obtain rfl := Except.ok.inj complete
  rfl

theorem ofNode?_level (h : form.ofNode? source jumps (.mapping none none
      (toPairs [] ++ [(plainNode "level", node)])) = some (s, left)) :
    (Form.option .text).ofNode? source jumps node = some (s.level, left) := by
  obtain ⟨slots, b, fill, complete, rfl⟩ :=
    Form.ofNode?_concat (LogSettings.keeps ⟨none, none⟩) (List.forall_mem_nil _) (by decide)
      (by decide) h
  simp only [Fields.fillFrom?, Fields.slots, if_true, Option.map_eq_some_iff] at fill
  obtain ⟨⟨level, _⟩, read, fill⟩ := fill
  obtain ⟨rfl, rfl⟩ := Prod.mk.inj fill
  rw [read]
  simp only [Fields.complete, Option.or_some] at complete
  obtain rfl := Except.ok.inj complete
  rfl

end LogSettings

end Yaml

namespace Settings

open Yaml (KeepsEnd IsWord MembersSimple laterMembers spaces Source Node plainNode toPairs)

variable {s : Settings} {t : String}

/-- The text that is written last: the format of the log, or else its level. -/
def lastText? (s : Settings) : Option String := s.logging.format.or s.logging.level

/-- The members of the last section. -/
def lastMembers (s : Settings) : Members :=
  s.logging.level.toList.map (fun level => ("level", .string level)) ++
    s.logging.format.toList.map fun format => ("format", .string format)

/-- The sections in front of the last one. -/
def firstMembers (s : Settings) : Members :=
  [("validation", .object [("groups", .array (s.validation.groups.map .string)),
      ("all_groups", .bool s.validation.allGroups)]),
    ("output", .object [("format", .string s.output.format), ("color", .bool s.output.color),
      ("progress", .bool s.output.progress)])]

theorem toJson_eq_concat (s : Settings) :
    form.toJson s = .object (s.firstMembers ++ [("logging", .object s.lastMembers)]) :=
  s.toJson_eq

theorem render_yaml (s : Settings) : (s.render .yaml).toList =
    laterMembers 0 s.firstMembers ++
      ("logging".toList ++ ':' :: Yaml.valueText 0 (.object s.lastMembers)) := by
  rw [render, toJson_eq_concat, Yaml.toList_print_concat (by decide)]

/-- The last text is the value of the last member of the last section, and is read from the node
of this value. -/
theorem lastMembers_eq (last : s.lastText? = some t) : ∃ inner key,
    s.lastMembers = inner ++ [(key, .string t)] ∧ IsWord key ∧ MembersSimple inner ∧
      ∀ (source : Source) jumps left node, LogSettings.form.ofNode? source jumps
          (.mapping none none (toPairs inner ++ [(plainNode key, node)])) =
            some (s.logging, left) →
        (Form.option .text).ofNode? source jumps node = some (some t, left) := by
  obtain ⟨validation, output, level, format⟩ := s
  cases format with
  | some format =>
    obtain rfl : format = t := Option.some.inj last
    refine ⟨level.toList.map fun level => ("level", .string level), "format", rfl, by decide, ?_,
      fun _ _ _ _ h => LogSettings.ofNode?_format h⟩
    refine membersSimple_of_forall fun m hm => ?_
    obtain ⟨level, -, rfl⟩ := List.mem_map.1 hm
    exact ⟨(by decide : IsWord "level"), trivial⟩
  | none =>
    obtain rfl : level = some t := last
    refine ⟨[], "level", rfl, by decide, ?_, fun _ _ _ _ h => LogSettings.ofNode?_level h⟩
    rw [MembersSimple]
    trivial

theorem mem_written (s : Settings) : ∀ m ∈ s.firstMembers,
    m ∈ [("validation", Scope.form.toJson s.validation),
      ("output", OutputSettings.form.toJson s.output),
      ("logging", LogSettings.form.toJson s.logging)] := by
  have tree := s.toJson_eq_concat
  rw [form, Form.toJson] at tree
  intro m hm
  have present : m ∈ Members.present _ := Json.object.inj tree ▸ List.mem_append_left _ hm
  exact (List.mem_filter.1 present).1

theorem simple_firstMembers (s : Settings) : MembersSimple s.firstMembers := by
  have words := hasWords
  rw [form, Form.HasWords] at words
  exact membersSimple_of_forall fun m hm => Fields.isSimple_toMembers _ words
    (s.validation, s.output, s.logging, ()) m (s.mem_written m hm)

/-- The last section is read from the node that stands in its place. -/
theorem ofNode?_logging {source : Source} {node : Node} {jumps left : Nat} {read : Settings}
    (h : form.ofNode? source jumps (.mapping none none
      (toPairs s.firstMembers ++ [(plainNode "logging", node)])) = some (read, left)) :
    LogSettings.form.ofNode? source jumps node = some (read.logging, left) := by
  have distinct : (s.firstMembers.keys ++ ["logging"]).Nodup := by
    simp [Members.keys, firstMembers]
  obtain ⟨slots, b, fill, complete, rfl⟩ :=
    Form.ofNode?_concat s.keeps s.mem_written distinct (by decide) h
  have others : "validation" ≠ "logging" ∧ "output" ≠ "logging" := by decide
  simp only [Fields.fillFrom?, Fields.slots, if_neg others.1, if_neg others.2, if_true,
    Option.map_eq_some_iff] at fill
  obtain ⟨_, ⟨_, ⟨⟨logging, _⟩, read, rfl⟩, rfl⟩, fill⟩ := fill
  obtain ⟨rfl, rfl⟩ := Prod.mk.inj fill
  rw [read]
  simp only [Fields.complete, Option.or_some] at complete
  obtain rfl := Except.ok.inj complete
  rfl

theorem endsLine_render_yaml (keeps : ∀ t ∈ s.lastText?, KeepsEnd t) :
    EndsLine (s.render .yaml).toList := by
  cases last : s.lastText? with
  | none =>
    have empty : s.lastMembers = [] := by
      obtain ⟨format, level⟩ := Option.or_eq_none_iff.1 last
      rw [lastMembers, format, level]
      rfl
    have braces : EndsLine (' ' :: Yaml.node 2 (.object [])) := by
      rw [Yaml.node]
      exact ⟨[' ', '\x7b'], '\x7d', rfl, rfl⟩
    rw [render_yaml, empty]
    exact ((braces.cons ':').append _).append _
  | some t =>
    obtain ⟨inner, key, members, word, -, -⟩ := lastMembers_eq last
    rw [render, toJson_eq_concat, members, Yaml.toList_print_last (by decide) word]
    exact ((Yaml.endsLine_scalar 4 (keeps t last)).cons ' ').append _

/-! ## What is shown -/

variable {format : FileFormat}

/-- Settings as they are shown. -/
def shown (s : Settings) (format : FileFormat) : String :=
  Text.trimEnd (s.render format) ++ "\n"

theorem toList_shown (s : Settings) (format : FileFormat) :
    (s.shown format).toList = Text.dropBlankEnd (s.render format).toList ++ ['\n'] := by
  rw [shown, String.toList_append, Text.trimEnd, String.toList_ofList]
  rfl

theorem shown_eq_render (ends : EndsLine (s.render format).toList) :
    s.shown format = s.render format := by
  rw [← String.toList_inj, toList_shown, ends.dropBlankEnd_append]

theorem parse_shown_json (s : Settings) (path : Path) :
    parse path .json (s.shown .json) = .ok s := by
  have text : s.shown .json =
      String.ofList ((form.toJson s).render .indented 0 ++ ['\n']) := by
    have solid : EndsSolid (s.render .json).toList := by
      rw [render, toJson_eq]
      exact Json.endsSolid_pretty _
    have own : Text.dropBlankEnd (s.render .json).toList = (s.render .json).toList :=
      Text.dropBlankEnd_of_solid solid
    rw [← String.toList_inj, toList_shown, own, String.toList_ofList, render, Json.pretty,
      String.toList_ofList]
  have blank : Json.Cursor.IsBlank ['\n'] := List.forall_mem_singleton.2 rfl
  have solid : form.IsSolid := trivial
  have read := Json.readAs_render_append Json.Spacing.isWhite_indented solid s.keeps blank
  rw [parse, text, read]
  rfl

/-- Without the end of their last text the settings are not read again. -/
theorem readAs?_shown_ne (last : s.lastText? = some t) (lost : ¬KeepsEnd t) :
    Yaml.readAs? form (s.shown .yaml) ≠ some s := by
  intro read
  obtain ⟨inner, key, members, word, simple, reads⟩ := lastMembers_eq last
  have document : (s.shown .yaml).toList =
      Yaml.upToLast s.firstMembers "logging" inner key ++ Yaml.clippedValue t := by
    rw [toList_shown, render, toJson_eq_concat, members,
      Yaml.dropBlankEnd_print_last (by decide) word]
  rcases Node.ofText?_clipped s.simple_firstMembers (by decide) simple word lost document with
    none | ⟨style, text, differs, node⟩
  · simp [Yaml.readAs?, none] at read
  · rw [Yaml.readAs?, node, Option.bind_eq_bind, Option.bind_some] at read
    obtain ⟨⟨own, left⟩, sections, same⟩ := Option.bind_eq_some_iff.1 read
    obtain rfl : own = s := Option.some.inj same
    exact Form.ofNode?_option_text_ne differs (reads _ _ _ _ (ofNode?_logging sections)) rfl

/-- The settings come back from what is shown of them: always in TOML and JSON, and in YAML if the
text that is written last keeps its end. -/
def IsShownWhole (s : Settings) (format : FileFormat) : Prop :=
  format = .yaml → ∀ t ∈ s.lastText?, KeepsEnd t

theorem parse_shown (whole : s.IsShownWhole format) (path : Path) :
    parse path format (s.shown format) = .ok s := by
  cases format with
  | toml =>
    have ends : EndsLine (s.render .toml).toList := by
      rw [render, toJson_eq]
      exact Toml.endsLine_print s.isDocument_sections (by simp [sections])
    rw [shown_eq_render ends]
    exact parse_render s path .toml
  | json => exact parse_shown_json s path
  | yaml =>
    rw [shown_eq_render (endsLine_render_yaml (whole rfl))]
    exact parse_render s path .yaml

/-- In YAML the settings do not come back if the text that is written last loses its end. -/
theorem parse_shown_iff (s : Settings) (format : FileFormat) (path : Path) :
    parse path format (s.shown format) = .ok s ↔ s.IsShownWhole format := by
  refine ⟨fun read yaml t last => ?_, fun whole => parse_shown whole path⟩
  subst yaml
  refine Decidable.byContradiction fun lost => readAs?_shown_ne last lost ?_
  unfold parse at read
  cases shown : Yaml.readAs? form (s.shown .yaml) with
  | none =>
    rw [shown] at read
    cases read
  | some own =>
    rw [shown] at read
    exact congrArg some (Except.ok.inj read)

end Settings

end ServiceContract
