import Mathlib.Algebra.BigOperators.Group.List.Basic
import ServiceContract.Proofs.Digits
import ServiceContract.Proofs.Run.Batch
import ServiceContract.Proofs.Text.Lines

/-!
# The report for people, line by line

A line of the report that begins with one of two marks reads as the verdict on a document. The lines
about a defect are indented once more after they were put together, so no text of a document can
start such a line. The lines about the services of a document are not: where a key, an id or a title
holds a line feed with a mark behind it, the report has a verdict too many
(`human_report_reads_as_judged`, `listing_forges_verdict`).
-/

namespace ServiceContract

/-! ## Kinds of lines -/

namespace Report

/-- The starts of a verdict. -/
def marks : List (List Char) := [['✓', ' '], ['✗', ' ']]

/-- Whether a line reads as a verdict. -/
def readsAsVerdict (line : String) : Bool := marks.any fun mark => mark.isPrefixOf line.toList

def IsIndented (line : String) : Prop := [' ', ' '] <+: line.toList

/-- The line with the verdict. -/
def verdict (r : Report) : String :=
  if r.valid then "✓ " ++ r.file ++ ": valid" else "✗ " ++ r.file ++ ": invalid"

/-- The services that a report lists. -/
def listed (r : Report) : List ServiceSummary := r.services.getD []

/-- The line that counts the documents. -/
def counted (reports : List Report) : String :=
  toString reports.length ++ " document(s) checked, " ++ toString (reports.countP (·.valid))
    ++ " valid, " ++ toString (reports.countP (!·.valid)) ++ " invalid"

end Report

/-- The texts of a service hold a line feed with the start of a verdict behind it. -/
def ServiceSummary.Forges (s : ServiceSummary) : Prop :=
  ∃ mark ∈ Report.marks, '\n' :: mark <:+: s.describe.toList

instance (s : ServiceSummary) : Decidable s.Forges :=
  inferInstanceAs (Decidable (∃ mark ∈ Report.marks, '\n' :: mark <:+: s.describe.toList))

/-- The texts of a service hold a line feed. -/
def ServiceSummary.BreaksLine (s : ServiceSummary) : Prop :=
  '\n' ∈ s.group.toList ∨ '\n' ∈ s.id.toList ∨ '\n' ∈ s.methodTitle.toList

open Document (Loaded)
open Text (IsWhole lines)

theorem lineFeed_notMem_toString (n : Nat) : '\n' ∉ (toString n).toList := fun h => by
  have digit := isDigit_toDigits n '\n' (by simpa using h)
  cases digit

namespace Report

variable {line : String} {r : Report} {reports : List Report}

theorem readsAsVerdict_iff :
    readsAsVerdict line = true ↔ ∃ mark ∈ marks, mark <+: line.toList := by
  simp [readsAsVerdict]

theorem IsIndented.not_readsAsVerdict (h : IsIndented line) : readsAsVerdict line = false := by
  rw [Bool.eq_false_iff, ne_eq, readsAsVerdict_iff]
  rintro ⟨mark, known, start⟩
  obtain ⟨rest, whole⟩ := h
  rw [← whole] at start
  simp only [marks, List.mem_cons, List.not_mem_nil, or_false] at known
  rcases known with rfl | rfl <;> simp at start

theorem filter_of_isIndented {texts : List String} (h : ∀ line ∈ texts, IsIndented line) :
    texts.filter readsAsVerdict = [] :=
  List.filter_eq_nil_iff.2 fun line hl => by simp [(h line hl).not_readsAsVerdict]

theorem readsAsVerdict_verdict (r : Report) : readsAsVerdict r.verdict = true := by
  rw [readsAsVerdict_iff, verdict]
  split
  · exact ⟨['✓', ' '], by decide, by simp⟩
  · exact ⟨['✗', ' '], by decide, by simp⟩

/-! ## The lines of a report -/

theorem verdictLine_eq (r : Report) : r.verdictLine = r.verdict ++ "\n" := by
  rw [verdictLine, verdict]
  split <;> exact String.toList_injective (by simp [String.toList_append])

theorem lines_verdictLine (named : '\n' ∉ r.file.toList) : lines r.verdictLine = [r.verdict] := by
  rw [verdictLine_eq]
  apply Text.lines_line_of_end
  · rw [verdict]
    split <;> simp [named]
  · rw [verdict]
    split <;> simp [List.getLast?_cons]

theorem isWhole_of_mem_indented {text s : String}
    (h : s ∈ (lines text).map fun line => "  " ++ line ++ "\n") : IsWhole s := by
  obtain ⟨line, -, rfl⟩ := List.mem_map.1 h
  exact Text.isWhole_line ("  " ++ line)

/-- However a text is broken into lines, they are indented. -/
theorem isIndented_of_indent (text : String) : ∀ line ∈ lines (indent text), IsIndented line := by
  intro line h
  rw [indent, Text.lines_join fun _ => isWhole_of_mem_indented] at h
  obtain ⟨text, ht, hline⟩ := List.mem_flatMap.1 h
  obtain ⟨inner, hi, rfl⟩ := List.mem_map.1 ht
  have solid : '\n' ∉ ("  " ++ inner).toList := by simp [Text.lineFeed_notMem_lines hi]
  rw [Text.lines_line solid] at hline
  have single := List.mem_singleton.1 hline
  rw [single, IsIndented, String.toList_ofList, Text.prefix_readLine_iff (by decide)]
  simp

theorem isIndented_of_defectLines (r : Report) : ∀ line ∈ lines r.defectLines, IsIndented line := by
  rw [defectLines]
  cases r.defect with
  | none =>
    rw [Option.elim_none, Text.lines_empty]
    simp
  | some d =>
    rw [Option.elim_some]
    exact isIndented_of_indent d.describe

end Report

/-! ## The lines of a service -/

namespace ServiceSummary

variable {s : ServiceSummary}

/-- What is written about a service, without the line feed at the end. -/
def line (s : ServiceSummary) : String :=
  "  • " ++ s.group ++ "[" ++ toString s.index ++ "] " ++ s.id ++ ": " ++ s.methodTitle ++ " ("
    ++ toString s.propertyNames.length ++ " properties)"

theorem describe_eq (s : ServiceSummary) : s.describe = s.line ++ "\n" := by
  have feed : " properties)\n" = " properties)" ++ "\n" := by simp
  -- the equation lemma of a text put together from this many literals is slow to make
  delta describe line
  rw [feed, ← String.append_assoc]

theorem isWhole_of_mem {services : List ServiceSummary} {text : String}
    (h : text ∈ services.map describe) : IsWhole text := by
  obtain ⟨s, -, rfl⟩ := List.mem_map.1 h
  exact s.describe_eq ▸ Text.isWhole_line _

theorem start_line (s : ServiceSummary) : ∃ rest, s.line.toList = ' ' :: ' ' :: rest := by
  delta line
  simp [String.toList_append]

/-- A line about a service reads as a verdict where the texts of the service make it one. -/
theorem reads_describe_iff :
    (∃ line ∈ lines s.describe, Report.readsAsVerdict line = true) ↔ s.Forges := by
  have known : ∀ mark ∈ Report.marks, ('\n' ∉ mark ∧ '\r' ∉ mark) ∧ mark ≠ [] ∧
      ∀ rest, ¬mark <+: ' ' :: rest := by
    simp [Report.marks]
  have behind : ∀ mark ∈ Report.marks,
      ((∃ cs ∈ Text.linesFrom s.describe.toList [], mark <+: cs) ↔
        '\n' :: mark <:+: s.describe.toList) := by
    intro mark h
    obtain ⟨solid, some, indented⟩ := known mark h
    obtain ⟨rest, start⟩ := start_line s
    have inside : ¬mark <+: s.describe.toList := by
      rw [describe_eq, String.toList_append, start]
      exact indented _
    rw [Text.exists_line_iff solid some, List.reverse_nil, List.nil_append, or_iff_right inside]
  constructor
  · rintro ⟨line, hline, reads⟩
    obtain ⟨cs, hcs, rfl⟩ := List.mem_map.1 hline
    obtain ⟨mark, h, start⟩ := Report.readsAsVerdict_iff.1 reads
    rw [String.toList_ofList] at start
    exact ⟨mark, h, (behind mark h).1 ⟨cs, hcs, start⟩⟩
  · rintro ⟨mark, h, broken⟩
    obtain ⟨cs, hcs, start⟩ := (behind mark h).2 broken
    refine ⟨String.ofList cs, List.mem_map_of_mem hcs, Report.readsAsVerdict_iff.2 ⟨mark, h, ?_⟩⟩
    rwa [String.toList_ofList]

theorem isIndented_of_describe (whole : ¬s.BreaksLine) :
    ∀ line ∈ lines s.describe, Report.IsIndented line := by
  obtain ⟨group, id, title⟩ : '\n' ∉ s.group.toList ∧ '\n' ∉ s.id.toList ∧
      '\n' ∉ s.methodTitle.toList := by
    simpa only [BreaksLine, not_or] using whole
  have index := lineFeed_notMem_toString s.index
  have number := lineFeed_notMem_toString s.propertyNames.length
  have solid : '\n' ∉ s.line.toList := by
    delta line
    generalize toString s.index = index at index
    generalize toString s.propertyNames.length = number at number
    simp [String.toList_append, group, id, title, index, number]
  obtain ⟨rest, start⟩ := start_line s
  rw [describe_eq, Text.lines_line solid]
  intro line h
  rw [List.mem_singleton.1 h, Report.IsIndented, String.toList_ofList,
    Text.prefix_readLine_iff (by decide), start]
  simp

theorem not_forges_of_not_breaksLine (whole : ¬s.BreaksLine) : ¬s.Forges := by
  rw [← reads_describe_iff]
  rintro ⟨line, h, reads⟩
  rw [(isIndented_of_describe whole line h).not_readsAsVerdict] at reads
  cases reads

end ServiceSummary

/-! ## The lines of all reports -/

namespace Report

variable {r : Report} {reports : List Report}

theorem isWhole_serviceLines (r : Report) : IsWhole r.serviceLines := by
  unfold serviceLines
  split
  · exact Text.isWhole_empty
  · exact Text.isWhole_line "  (no services in scope)"
  · exact Text.isWhole_join fun _ => ServiceSummary.isWhole_of_mem

theorem isWhole_defectLines (r : Report) : IsWhole r.defectLines := by
  rw [defectLines]
  cases r.defect with
  | none => exact Text.isWhole_empty
  | some d =>
    rw [Option.elim_some]
    exact Text.isWhole_join fun _ => isWhole_of_mem_indented

theorem isWhole_verdictLine (r : Report) : IsWhole r.verdictLine :=
  r.verdictLine_eq ▸ Text.isWhole_line _

theorem isWhole_describe (r : Report) : IsWhole r.describe :=
  (r.isWhole_verdictLine.append r.isWhole_defectLines).append r.isWhole_serviceLines

theorem lines_describe (named : '\n' ∉ r.file.toList) :
    lines r.describe = r.verdict :: (lines r.defectLines ++ lines r.serviceLines) := by
  rw [describe, Text.lines_append (r.isWhole_verdictLine.append r.isWhole_defectLines),
    Text.lines_append r.isWhole_verdictLine, lines_verdictLine named, List.append_assoc,
    List.singleton_append]

/-- The numbers of accepted and rejected documents make up all of them. -/
theorem counts_add (reports : List Report) :
    reports.countP (·.valid) + reports.countP (!·.valid) = reports.length := by
  rw [List.length_eq_countP_add_countP (·.valid)]
  simp

theorem countLine_eq (reports : List Report) :
    countLine reports = "" ++ "\n" ++ counted reports := by
  have accepted : reports.length - reports.countP (!·.valid) = reports.countP (·.valid) := by
    rw [← counts_add, Nat.add_sub_cancel]
  simp only [countLine, accepted, counted, failures, String.empty_append, String.append_assoc]

theorem lines_counted (reports : List Report) : lines (counted reports) = [counted reports] := by
  have number := lineFeed_notMem_toString reports.length
  have valid := lineFeed_notMem_toString (reports.countP (·.valid))
  have invalid := lineFeed_notMem_toString (reports.countP (!·.valid))
  rw [counted]
  generalize toString reports.length = number at number
  generalize toString (reports.countP (·.valid)) = valid at valid
  generalize toString (reports.countP (!·.valid)) = invalid at invalid
  apply Text.lines_rest
  · simp [String.toList_append, number, valid, invalid]
  · intro nothing
    simpa [String.toList_append] using congrArg String.toList nothing

theorem lines_countLine (reports : List Report) :
    lines (countLine reports) = ["", counted reports] := by
  rw [countLine_eq, Text.lines_append (Text.isWhole_line ""), lines_counted]
  rfl

theorem lines_describeAll (named : ∀ r ∈ reports, '\n' ∉ r.file.toList) :
    lines (describeAll reports) = (reports.flatMap fun r =>
      r.verdict :: (lines r.defectLines ++ lines r.serviceLines)) ++ ["", counted reports] := by
  have whole : ∀ s ∈ reports.map describe, IsWhole s := by
    intro s h
    obtain ⟨r, -, rfl⟩ := List.mem_map.1 h
    exact r.isWhole_describe
  rw [describeAll, Text.lines_join_append whole, lines_countLine, List.flatMap_map]
  refine congrArg (· ++ _) (List.flatMap_congr fun r h => ?_)
  exact lines_describe (named r h)

theorem flatMap_cons_eq_map_iff {α β : Type} {f : α → β} {g : α → List β} {xs : List α} :
    (xs.flatMap fun x => f x :: g x) = xs.map f ↔ ∀ x ∈ xs, g x = [] := by
  have bound (xs : List α) : xs.length ≤ (xs.flatMap fun x => f x :: g x).length := by
    have each := List.length_le_sum_of_one_le (xs.map fun x => (f x :: g x).length) (by simp)
    rwa [List.length_map, ← List.length_flatMap] at each
  induction xs with
  | nil => simp
  | cons x xs ih =>
    rw [List.flatMap_cons, List.map_cons, List.forall_mem_cons, List.cons_append]
    constructor
    · intro h
      have rest := (List.cons.inj h).2
      have length := congrArg List.length rest
      rw [List.length_append, List.length_map] at length
      have none : g x = [] := List.length_eq_zero_iff.1 (by have := bound xs; omega)
      exact ⟨none, ih.1 (by simpa [none] using rest)⟩
    · rintro ⟨none, rest⟩
      rw [none, ih.2 rest]
      rfl

/-- The lines about the services of a report are those about each of them, or say that there is
none. -/
theorem lines_serviceLines (r : Report) :
    lines r.serviceLines = (r.listed.flatMap fun s => lines s.describe) ∨
      r.listed = [] ∧ lines r.serviceLines = ["  (no services in scope)"] := by
  rw [listed, serviceLines]
  split
  · next none => exact .inl (by rw [none]; rfl)
  · next nothing => exact .inr ⟨by rw [nothing]; rfl, by rfl⟩
  · next some =>
    rw [some, Option.getD_some, Text.lines_join fun _ => ServiceSummary.isWhole_of_mem,
      List.flatMap_map]
    exact .inl rfl

theorem isIndented_none : IsIndented "  (no services in scope)" := by
  rw [IsIndented]
  decide

theorem filter_serviceLines_eq_nil_iff (r : Report) :
    (lines r.serviceLines).filter readsAsVerdict = [] ↔ ∀ s ∈ r.listed, ¬s.Forges := by
  rcases r.lines_serviceLines with each | ⟨nothing, single⟩
  · rw [each, List.filter_eq_nil_iff]
    simp only [List.mem_flatMap, ← ServiceSummary.reads_describe_iff]
    exact ⟨fun h s hs ⟨line, hl, reads⟩ => h line ⟨s, hs, hl⟩ reads,
      fun h line ⟨s, hs, hl⟩ reads => h s hs ⟨line, hl, reads⟩⟩
  · rw [nothing, single, filter_of_isIndented (List.forall_mem_singleton.2 isIndented_none)]
    simp

theorem isIndented_of_serviceLines (whole : ∀ s ∈ r.listed, ¬s.BreaksLine) :
    ∀ line ∈ lines r.serviceLines, IsIndented line := by
  rcases r.lines_serviceLines with each | ⟨-, single⟩
  · rw [each]
    intro line h
    obtain ⟨s, hs, hl⟩ := List.mem_flatMap.1 h
    exact ServiceSummary.isIndented_of_describe (whole s hs) line hl
  · rw [single]
    exact List.forall_mem_singleton.2 isIndented_none

theorem not_readsAsVerdict_counted (reports : List Report) :
    readsAsVerdict (counted reports) = false := by
  obtain ⟨d, ds, digits, digit⟩ := exists_digit_toDigits reports.length
  have known : ∀ mark ∈ marks, ∀ rest, ¬mark <+: d :: rest := by
    have ascii : d ≠ '✓' ∧ d ≠ '✗' := by
      constructor <;> (rintro rfl; exact absurd digit (by decide))
    simp [marks, ascii.1.symm, ascii.2.symm]
  have start : ∃ rest, (counted reports).toList = d :: rest := by
    simp [counted, String.toList_append, digits]
  obtain ⟨rest, start⟩ := start
  rw [Bool.eq_false_iff, ne_eq, readsAsVerdict_iff, start]
  exact fun ⟨mark, h, reads⟩ => known mark h rest reads

/-- Each line reads as a verdict that is one, or that the services of a document bring along. -/
theorem filter_lines_describeAll (named : ∀ r ∈ reports, '\n' ∉ r.file.toList) :
    (lines (describeAll reports)).filter readsAsVerdict =
      reports.flatMap fun r => r.verdict :: (lines r.serviceLines).filter readsAsVerdict := by
  have blank : readsAsVerdict "" = false := by decide
  have last : ["", counted reports].filter readsAsVerdict = [] := by
    simp [blank, not_readsAsVerdict_counted]
  rw [lines_describeAll named, List.filter_append, last, List.append_nil, List.filter_flatMap]
  refine List.flatMap_congr fun r _ => ?_
  rw [List.filter_cons_of_pos r.readsAsVerdict_verdict, List.filter_append,
    filter_of_isIndented r.isIndented_of_defectLines, List.nil_append]

/-- The report reads as judged where no listed service forges a verdict, and only there. -/
theorem filter_lines_eq_iff (named : ∀ r ∈ reports, '\n' ∉ r.file.toList) :
    (lines (describeAll reports)).filter readsAsVerdict = reports.map verdict ↔
      ∀ r ∈ reports, ∀ s ∈ r.listed, ¬s.Forges := by
  rw [filter_lines_describeAll named, flatMap_cons_eq_map_iff]
  exact forall₂_congr fun r _ => r.filter_serviceLines_eq_nil_iff

end Report

/-! ## The report of a run -/

namespace ValidateArguments

variable {arguments : ValidateArguments} {configured : Scope} {world : World}

/-- What the reports of a run are about. -/
theorem exists_of_mem_reported {r : Report}
    (h : r ∈ Console.reported (arguments.run configured world).1) :
    ∃ d : Loaded world, d.path ∈ arguments.files ∧
      IsReport (arguments.scope configured) arguments.detailed d r := by
  by_cases once : arguments.inputCount ≤ 1
  · obtain ⟨taken, stop, takes⟩ :=
      exists_takes arguments.failFast (arguments.scope configured) world arguments.files
    rw [reported_run_of_takes arguments once takes] at h
    obtain ⟨d, hd, rfl⟩ := List.mem_map.1 h
    exact ⟨d, takes.prefix_paths.subset (List.mem_map_of_mem hd), isReport_ofDocument ..⟩
  · rw [run_of_twice arguments configured world (Nat.not_le.1 once), Console.reported_nil] at h
    cases h

/-- In the report of a run for people, each document has its verdict, in order, and the lines about
its defect are indented, whatever is in it. A line too many reads as a verdict exactly where the
texts of a listed service hold a line feed with the start of a verdict behind it; the lines about a
service without a line feed are indented. The last line counts the documents. -/
theorem human_report_reads_as_judged (arguments : ValidateArguments) (configured : Scope)
    (world : World) (named : ∀ path ∈ arguments.files, '\n' ∉ path.text.toList) :
    let reports := Console.reported (arguments.run configured world).1
    let written := lines (Report.describeAll reports)
    written = (reports.flatMap fun r =>
        r.verdict :: (lines r.defectLines ++ lines r.serviceLines)) ++ ["", Report.counted reports] ∧
      (∀ r ∈ reports, ∀ line ∈ lines r.defectLines, Report.IsIndented line) ∧
      (written.filter Report.readsAsVerdict = reports.map Report.verdict ↔
        ∀ r ∈ reports, ∀ s ∈ r.listed, ¬s.Forges) ∧
      (∀ r ∈ reports, r.listed ≠ [] → arguments.detailed = true ∧ r.valid = true) ∧
      (∀ r ∈ reports, (∀ s ∈ r.listed, ¬s.BreaksLine) →
        (∀ line ∈ lines r.serviceLines, Report.IsIndented line) ∧ ∀ s ∈ r.listed, ¬s.Forges) ∧
      written.getLast? = some (Report.counted reports) ∧
      reports.countP (·.valid) + reports.countP (!·.valid) = reports.length := by
  intro reports written
  have files : ∀ r ∈ reports, '\n' ∉ r.file.toList := by
    intro r h
    obtain ⟨d, hd, report⟩ := exists_of_mem_reported h
    rw [report.file]
    exact named d.path hd
  have split : written = _ := Report.lines_describeAll files
  refine ⟨split, fun r _ => r.isIndented_of_defectLines, Report.filter_lines_eq_iff files, ?_, ?_,
    ?_, Report.counts_add reports⟩
  · intro r h some
    obtain ⟨d, -, report⟩ := exists_of_mem_reported h
    by_contra unlisted
    refine some ?_
    rw [Report.listed, report.services, if_neg (by simpa using unlisted), Option.getD_none]
  · intro r _ whole
    exact ⟨Report.isIndented_of_serviceLines whole,
      fun s hs => ServiceSummary.not_forges_of_not_breaksLine (whole s hs)⟩
  · rw [split]
    simp

/-- The arguments of `validate --all-groups --detailed -`. -/
def detailedInput : ValidateArguments :=
  { files := [⟨"-"⟩], allGroups := true, groups := [], failFast := false, detailed := true }

/-- A world in which a document with one service stands on standard input; `id` is the identifier of
the service as JSON writes it. -/
def serviceOnInput (id : String) : World :=
  withInput ("\x7b\"shipping\": [\x7b\"id\": \"" ++ id ++ "\", \"method_description\": \"\", " ++
    "\"method_title\": \"USPS\", \"service_settings\": \x7b\"type\": \"object\", " ++
    "\"required\": [], \"properties\": \x7b\"enabled\": 1, \"title\": 1\x7d\x7d\x7d]\x7d") .empty

def listedService (id : String) : Report :=
  .accepted "-" (some [⟨"shipping", 0, id, "USPS", ["enabled", "title"]⟩])

theorem reported_brokenLine :
    Console.reported (detailedInput.run .default (serviceOnInput "usps\\n✓")).1 =
      [listedService "usps\n✓"] := by
  decide +kernel

/-- A line feed in an identifier breaks the line, but no verdict follows. -/
theorem human_report_reads_as_judged_brokenLine :
    (∀ path ∈ detailedInput.files, '\n' ∉ path.text.toList) ∧
    let reports := Console.reported (detailedInput.run .default (serviceOnInput "usps\\n✓")).1
    reports = [listedService "usps\n✓"] ∧
      (lines (Report.describeAll reports)).filter Report.readsAsVerdict = ["✓ -: valid"] ∧
      (lines (Report.describeAll reports)).getLast? =
        some "1 document(s) checked, 1 valid, 0 invalid" := by
  have named : ∀ path ∈ detailedInput.files, '\n' ∉ path.text.toList := by decide
  have judged := human_report_reads_as_judged detailedInput .default (serviceOnInput "usps\\n✓") named
  rw [reported_brokenLine] at judged ⊢
  obtain ⟨-, -, verdicts, -, -, last, -⟩ := judged
  have unforged : ∀ r ∈ [listedService "usps\n✓"], ∀ s ∈ r.listed, ¬s.Forges := by decide +kernel
  exact ⟨named, rfl, verdicts.2 unforged, last⟩

theorem reported_forged :
    Console.reported
        (detailedInput.run .default (serviceOnInput "usps\\n✗ -: invalid\\n  ")).1 =
      [listedService "usps\n✗ -: invalid\n  "] := by
  decide +kernel

/-- An identifier brings along a verdict on a document that was accepted. -/
theorem listing_forges_verdict :
    (∀ path ∈ detailedInput.files, '\n' ∉ path.text.toList) ∧
    let reports :=
      Console.reported (detailedInput.run .default (serviceOnInput "usps\\n✗ -: invalid\\n  ")).1
    let written := lines (Report.describeAll reports)
    written = ["✓ -: valid", "  • shipping[0] usps", "✗ -: invalid", "  : USPS (2 properties)", "",
      "1 document(s) checked, 1 valid, 0 invalid"] ∧
    written.filter Report.readsAsVerdict ≠ reports.map Report.verdict ∧
    ¬∀ r ∈ reports, ∀ line ∈ lines r.serviceLines, Report.IsIndented line := by
  refine ⟨by decide, ?_⟩
  rw [reported_forged]
  intro reports written
  have lines_eq : written = ["✓ -: valid", "  • shipping[0] usps", "✗ -: invalid",
      "  : USPS (2 properties)", "", "1 document(s) checked, 1 valid, 0 invalid"] := by
    decide +kernel
  refine ⟨lines_eq, ?_, ?_⟩
  · rw [lines_eq]
    decide
  · intro indented
    have forged := indented _ (List.mem_singleton_self _) "✗ -: invalid" (by decide +kernel)
    exact absurd forged.not_readsAsVerdict (by decide)

end ValidateArguments

end ServiceContract
