import ServiceContract.OutputFormat
import ServiceContract.Proofs.Json.RoundTrip
import ServiceContract.Proofs.Yaml.RoundTrip

/-!
# Reports survive their rendering

Reports, and all the data in them, are kept by their forms, the positions of services being machine
words. So they are read back from the text of every format for programs. The code of a defect is
read as `ErrorCode.ofName?` reads it: it has the same name in all notations.
-/

namespace ServiceContract

open Json Cursor

/-! ## Codes -/

namespace ErrorCode

theorem lookup_name (codes : List ErrorCode) (s : String) :
    (codes.map fun code => (code.name, code)).lookup s =
      codes.find? fun code => code.name == s := by
  induction codes with
  | nil => rfl
  | cons code codes ih =>
    rw [List.map_cons, List.lookup_cons, List.find?_cons, ih]
    by_cases same : s = code.name
    · subst same
      simp
    · have there : (s == code.name) = false := by simpa using same
      have back : (code.name == s) = false := by
        simp only [beq_eq_false_iff_ne, ne_eq]
        intro h
        exact same h.symm
      rw [there, back]

theorem ofName?_name (code : ErrorCode) : ofName? code.name = some code := by
  cases code <;> rfl

theorem keeps (code : ErrorCode) : form.Keeps code := by
  rw [form, Form.Keeps, lookup_name]
  exact ofName?_name code

end ErrorCode

/-! ## What forms keep -/

theorem Form.keeps_text (s : String) : Form.text.Keeps s := by
  rw [Keeps]
  trivial

theorem Form.keeps_texts (texts : List String) : (Form.list .text).Keeps texts := by
  rw [Keeps]
  exact fun s _ => keeps_text s

theorem Form.keeps_flag (b : Bool) : Form.flag.Keeps b := by
  rw [Keeps]
  trivial

theorem Violation.keeps (v : Violation) : form.Keeps v := by
  rw [form, Form.Keeps]
  refine ⟨rfl, by decide, ?_⟩
  exact Fields.keep_cons _ trivial (Form.keeps_text _) <|
    Fields.keep_cons _ trivial (Form.keeps_text _) <|
    Fields.keep_cons _ trivial (Form.keeps_text _) Fields.keep_nil

theorem Defect.keeps (d : Defect) : form.Keeps d := by
  rw [form, Form.Keeps]
  refine ⟨rfl, by decide, ?_⟩
  exact Fields.keep_cons _ trivial d.code.keeps <|
    Fields.keep_cons _ trivial (Form.keeps_text _) <|
    Fields.keep_cons _ trivial (Form.keeps_text _) <|
    Fields.keep_cons _ trivial d.violation.keeps Fields.keep_nil

theorem Defects.keeps (defects : Defects) : form.Keeps defects := by
  rw [form, Form.Keeps]
  refine ⟨rfl, by decide, ?_⟩
  refine Fields.keep_cons _ trivial ?_ Fields.keep_nil
  rw [Form.Keeps]
  exact fun d _ => d.keeps

theorem Scope.keeps (scope : Scope) : form.Keeps scope := by
  rw [form, Form.Keeps]
  refine ⟨rfl, by decide, ?_⟩
  exact Fields.keep_cons _ trivial (Form.keeps_texts _) <|
    Fields.keep_cons _ trivial (Form.keeps_flag _) Fields.keep_nil

theorem ServiceSummary.keeps {s : ServiceSummary} (fits : s.index < Word.size64) :
    form.Keeps s := by
  rw [form, Form.Keeps]
  refine ⟨rfl, by decide, ?_⟩
  refine Fields.keep_cons _ trivial (Form.keeps_text _) ?_
  refine Fields.keep_cons _ trivial (by rw [Form.Keeps]; exact fits) ?_
  exact Fields.keep_cons _ trivial (Form.keeps_text _) <|
    Fields.keep_cons _ trivial (Form.keeps_text _) <|
    Fields.keep_cons _ trivial (Form.keeps_texts _) Fields.keep_nil

/-! ## Names of fields -/

theorem Violation.hasWords : form.HasWords := by
  rw [form, Form.HasWords]
  simp only [Fields.HaveWords, Form.HasWords, and_true]
  decide

theorem Defect.hasWords : form.HasWords := by
  have inner := Violation.hasWords
  rw [form, Form.HasWords]
  simp only [Fields.HaveWords, Form.HasWords, inner, ErrorCode.form, and_true]
  decide

theorem ServiceSummary.hasWords : form.HasWords := by
  rw [form, Form.HasWords]
  simp only [Fields.HaveWords, Form.HasWords, and_true]
  decide

theorem Report.hasWords : form.HasWords := by
  have defect := Defect.hasWords
  have services := ServiceSummary.hasWords
  rw [form, Form.HasWords]
  simp only [Fields.HaveWords, Form.HasWords, defect, services, and_true]
  decide

/-- The positions of the services are machine words. -/
def Report.Fits (r : Report) : Prop :=
  ∀ services ∈ r.services, ∀ s ∈ services, s.index < Word.size64

theorem Report.keeps {r : Report} (fits : r.Fits) : form.Keeps r := by
  rw [form, Form.Keeps]
  refine ⟨rfl, by decide, ?_⟩
  refine Fields.keep_cons _ trivial (Form.keeps_text _) ?_
  refine Fields.keep_cons _ trivial (Form.keeps_flag _) ?_
  refine Fields.keep_cons_option ?_ (Fields.keep_cons_option ?_ Fields.keep_nil)
  · rw [Form.Keeps]
    exact fun d _ => ⟨trivial, d.keeps⟩
  · rw [Form.Keeps]
    intro services hs
    refine ⟨trivial, ?_⟩
    rw [Form.Keeps]
    exact fun s hm => ServiceSummary.keeps (fits services hs s hm)

/-! ## Codes in a text -/

/-- The names of all codes, in order. -/
def ErrorCode.names : List String := all.map name

/-- A text that is read as a string is read as the code with that name, and refused if there is
none. -/
theorem ErrorCode.readAs_form {text s : String} (h : Json.readAs .text text = .ok s) :
    (∀ code, ofName? s = some code → Json.readAs form text = .ok code) ∧
      (ofName? s = none → ∃ e, Json.readAs form text = .error e ∧
        e.fault = .unknownVariant s names) := by
  simp only [Json.readAs, Cursor.form, bind, Except.bind, pure, Except.pure] at h
  split at h
  · cases h
  rename_i found htext
  obtain ⟨s', cursor⟩ := found
  dsimp only at h
  split at h
  · cases h
  rename_i hend
  obtain rfl := Except.ok.inj h
  have hchoice := choice_of_text (all.map fun code => (code.name, code)) htext
  rw [lookup_name] at hchoice
  refine ⟨fun code hcode => ?_, fun unknown => ?_⟩
  · rw [show all.find? _ = some code from hcode] at hchoice
    simp [Json.readAs, Cursor.form, form, bind, Except.bind, pure, Except.pure, hchoice, hend]
  · rw [show all.find? _ = none from unknown] at hchoice
    simp [Json.readAs, Cursor.form, form, bind, Except.bind, hchoice, fail,
      Function.comp_def, names]

/-- The tree of a defect with another name for its code. -/
def Defect.toJsonAs (name : String) (d : Defect) : Json :=
  .object [("code", .string name), ("message", .string d.message), ("path", .string d.path),
    ("violation", Violation.form.toJson d.violation)]

theorem Defect.toJson_eq (d : Defect) : form.toJson d = d.toJsonAs d.code.name := rfl

/-- A defect with a code that is unknown is refused. -/
theorem Defect.readAs_unknown {spacing : Spacing} (white : spacing.IsWhite) (d : Defect)
    {s : String} (unknown : ErrorCode.ofName? s = none) :
    ∃ e, Json.readAs form (String.ofList ((d.toJsonAs s).render spacing 0)) = .error e ∧
      e.fault = .unknownVariant s ErrorCode.names := by
  have hlookup : (ErrorCode.all.map fun code => (code.name, code)).lookup s = none := by
    rw [ErrorCode.lookup_name]
    exact unknown
  let start := Cursor.start (String.ofList ((d.toJsonAs s).render spacing 0))
  obtain ⟨body, hstart⟩ : ∃ body, start.rest = '\x7b' :: (spacing.lineBreak 1 ++
      (Json.quoted "code" ++ ':' :: (spacing.afterColon ++ (Json.quoted s ++ body)))) := by
    refine ⟨renderMembers spacing 1 [("message", .string d.message), ("path", .string d.path),
      ("violation", Violation.form.toJson d.violation)] ++ (spacing.lineBreak 0 ++ ['\x7d']), ?_⟩
    show (Cursor.start _).rest = _
    rw [Cursor.start, String.toList_ofList, toJsonAs, render, render]
    simp only [List.cons_append, List.append_assoc]
  obtain ⟨n, hn⟩ : ∃ n, start.rest.length + 1 = n + 2 := ⟨_, by rw [hstart, List.length_cons]⟩
  obtain ⟨position, hform⟩ : ∃ position, start.form (n + 2) form =
      .error ⟨.unknownVariant s ErrorCode.names, position⟩ := by
    refine record_refused (white.lineBreak 1) hstart rfl fun cursor h => ?_
    obtain ⟨position, hchoice⟩ := choice_unknown hlookup white.afterColon h
    refine ⟨position, ?_⟩
    simp [Fields.readField, ErrorCode.form, Cursor.form, hchoice, ErrorCode.names, Except.map,
      Function.comp_def]
  refine ⟨⟨_, position⟩, ?_, rfl⟩
  simp only [readAs, start] at hn hform ⊢
  rw [hn, hform]
  rfl

/-- A text is read as the value for the code with a name, and refused if no code has it. -/
def Json.IsReadByName {α : Type} (form : Form α) (value : ErrorCode → α) (name text : String) :
    Prop :=
  (∀ code, ErrorCode.ofName? name = some code → readAs form text = .ok (value code)) ∧
    (ErrorCode.ofName? name = none → ∃ e, readAs form text = .error e ∧
      e.fault = .unknownVariant name ErrorCode.names)

theorem ErrorCode.name_of_ofName? {s : String} {code : ErrorCode} (h : ofName? s = some code) :
    code.name = s := by
  have := List.find?_some h
  simpa using this

/-- A defect is read with the code its text names. -/
theorem Defect.isReadByName {spacing : Spacing} (white : spacing.IsWhite) (d : Defect)
    (s : String) :
    IsReadByName form (fun code => { d with code }) s
      (String.ofList ((d.toJsonAs s).render spacing 0)) := by
  refine ⟨fun code known => ?_, d.readAs_unknown white⟩
  have same : d.toJsonAs s = form.toJson { d with code } := by
    rw [Defect.toJson_eq, ErrorCode.name_of_ofName? known]
    rfl
  have solid : form.IsSolid := trivial
  rw [same]
  exact readAs_render white solid (Defect.keeps _)

theorem ErrorCode.readAs?_form {text s : String} (h : Yaml.readAs? .text text = some s) :
    Yaml.readAs? form text = ofName? s := by
  simp only [Yaml.readAs?, Form.ofNode?, bind, pure, form] at h ⊢
  cases hnode : Yaml.Node.ofText? text with
  | none => simp [hnode] at h
  | some node =>
    simp only [hnode, Option.bind_some] at h ⊢
    obtain ⟨⟨found, jumps⟩, hfound, same⟩ := Option.bind_eq_some_iff.1 h
    obtain rfl : found = s := Option.some.inj same
    simp only [hfound, Option.bind_some, lookup_name, ofName?]
    cases all.find? fun code => code.name == found <;> rfl

/-! ## Reading the rendering back -/

/-- A value is read back from its JSON text, on one line as indented. -/
def Json.IsReadBack {α : Type} (form : Form α) (a : α) : Prop :=
  readAs form (form.toJson a).compact = .ok a ∧ readAs form (form.toJson a).pretty = .ok a

theorem Json.isReadBack {α : Type} (form : Form α) (solid : form.IsSolid) {a : α}
    (keeps : form.Keeps a) : IsReadBack form a :=
  ⟨readAs_render Spacing.isWhite_compact solid keeps,
    readAs_render Spacing.isWhite_indented solid keeps⟩

namespace Report

theorem get?_error (r : Report) :
    (form.toJson r).get? "error" = r.defect.map Defect.form.toJson := by
  obtain ⟨file, valid, defect, services⟩ := r
  cases defect <;> cases services <;> rfl

theorem get?_services (r : Report) :
    (form.toJson r).get? "services" = r.services.map (Form.list ServiceSummary.form).toJson := by
  obtain ⟨file, valid, defect, services⟩ := r
  cases defect <;> cases services <;> rfl

/-- Reports are read back from every format for programs, and so are their data from JSON. A defect
and services are written if and only if there are any, and a code is read by its name. -/
theorem rendering_read_back :
    (∀ reports : List Report, (∀ r ∈ reports, r.Fits) →
      readAs (.list form) (OutputFormat.json.renderReports reports) = .ok reports ∧
      readAs (.list form) (OutputFormat.jsonPretty.renderReports reports) = .ok reports ∧
      Yaml.readAs? (.list form) (OutputFormat.yaml.renderReports reports) = some reports) ∧
    (∀ d, IsReadBack Defect.form d) ∧ (∀ defects, IsReadBack Defects.form defects) ∧
    (∀ v, IsReadBack Violation.form v) ∧
    (∀ s : ServiceSummary, s.index < Word.size64 → IsReadBack ServiceSummary.form s) ∧
    (∀ scope, IsReadBack Scope.form scope) ∧
    (∀ r : Report, (form.toJson r).get? "error" = r.defect.map Defect.form.toJson ∧
      (form.toJson r).get? "services" =
        r.services.map (Form.list ServiceSummary.form).toJson) ∧
    (∀ d : Defect, Defect.form.toJson d = d.toJsonAs d.code.name) ∧
    (∀ (d : Defect) (name : String),
      IsReadByName Defect.form (fun code => { d with code }) name (d.toJsonAs name).compact ∧
      IsReadByName Defect.form (fun code => { d with code }) name (d.toJsonAs name).pretty) ∧
    ∀ text name : String,
      (readAs .text text = .ok name → IsReadByName ErrorCode.form id name text) ∧
      (Yaml.readAs? .text text = some name →
        Yaml.readAs? ErrorCode.form text = ErrorCode.ofName? name) := by
  refine ⟨fun reports fits => ?_, fun d => isReadBack Defect.form trivial d.keeps,
    fun defects => isReadBack Defects.form trivial defects.keeps,
    fun v => isReadBack Violation.form trivial v.keeps,
    fun s fits => isReadBack ServiceSummary.form trivial (ServiceSummary.keeps fits),
    fun scope => isReadBack Scope.form trivial scope.keeps,
    fun r => ⟨r.get?_error, r.get?_services⟩, Defect.toJson_eq,
    fun d name => ⟨d.isReadByName Spacing.isWhite_compact name,
      d.isReadByName Spacing.isWhite_indented name⟩,
    fun text name => ⟨ErrorCode.readAs_form, ErrorCode.readAs?_form⟩⟩
  have keeps : (Form.list form).Keeps reports := by
    rw [Form.Keeps]
    exact fun r hr => Report.keeps (fits r hr)
  have solid : (Form.list form).IsSolid := trivial
  obtain ⟨compact, pretty⟩ := isReadBack (.list form) solid keeps
  have words : (Form.list form).HasWords := hasWords
  have container : Yaml.IsContainer ((Form.list form).toJson reports) := trivial
  have yaml : Yaml.readAs? (.list form) (Yaml.print ((Form.list form).toJson reports)) =
      some reports := Yaml.readAs?_print words container keeps
  exact ⟨compact, pretty, yaml⟩

/-- A service at the last position there is. -/
def lastService : ServiceSummary := ⟨"taxes", 18446744073709551615, "tax: 'a'", " b\n\n", ["", "-"]⟩

/-- Reports with quotes, backslashes, controls and line ends, with and without their parts. -/
def samples : List Report :=
  [rejected "C:\\a \"b\".json" ⟨.groupNotArray, "\u0000\t", "$['x\ny']", ⟨"'", " #", "null"⟩⟩,
    accepted "-" (some [lastService]), accepted "é\u2028" (some []), accepted "" none]

theorem rendering_read_back_samples :
    (∀ r ∈ samples, r.Fits) ∧
      readAs (.list form) (OutputFormat.json.renderReports samples) = .ok samples ∧
      readAs (.list form) (OutputFormat.jsonPretty.renderReports samples) = .ok samples ∧
      Yaml.readAs? (.list form) (OutputFormat.yaml.renderReports samples) = some samples ∧
      lastService.index < Word.size64 ∧ IsReadBack ServiceSummary.form lastService ∧
      readAs .text "\"other\"" = .ok "other" ∧
      IsReadByName ErrorCode.form id "other" "\"other\"" ∧
      Yaml.readAs? .text "other" = some "other" ∧ Yaml.readAs? ErrorCode.form "other" = none := by
  have last : lastService.index < Word.size64 := by decide
  have fits : ∀ r ∈ samples, r.Fits := by
    simp only [samples, List.forall_mem_cons, List.not_mem_nil, false_imp_iff, implies_true,
      and_true]
    refine ⟨nofun, ?_, ?_, nofun⟩
    · rintro _ ⟨⟩ s hs
      obtain rfl := List.mem_singleton.1 hs
      exact last
    · rintro _ ⟨⟩
      nofun
  have json : readAs .text "\"other\"" = .ok "other" := by rfl
  have yaml : Yaml.readAs? .text "other" = some "other" := by decide
  have unknown : ErrorCode.ofName? "other" = none := by decide
  obtain ⟨reports, -, -, -, services, -, -, -, -, codes⟩ := rendering_read_back
  obtain ⟨compact, pretty, back⟩ := reports samples fits
  have inJson := (codes "\"other\"" "other").1 json
  have inYaml := (codes "other" "other").2 yaml
  rw [unknown] at inYaml
  exact ⟨fits, compact, pretty, back, last, services lastService last, json, inJson, yaml, inYaml⟩

end Report

end ServiceContract
