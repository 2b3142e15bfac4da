import ServiceContract.Proofs.Batch
import ServiceContract.Proofs.Run.Options

/-!
# Validating files and checking a batch

Several documents are checked in two ways: a run of validation takes them from files and writes a
report on each, a batch takes them as they are and collects their defects. Where all files can be
loaded the two come to the same (`run_agrees_with_batch`). The rejecting reports of the run are the
defects of the batch one by one, and both end early at the same document: that is where a run takes
its last file (`Takes`), and the defects of the documents taken are as many as the batch collects
(`exists_takes_capped`).
-/

namespace ServiceContract

open Document (Loaded)

namespace Batch

variable {batch : Batch} {scope : Scope} {index : Nat} {documents : List Json}

/-- The defects that a batch reports. -/
def errors (batch : Batch) (documents : List Json) : List Defect :=
  match batch.check documents with
  | .ok () => []
  | .error defects => defects.list

theorem errors_eq_capped (batch : Batch) (documents : List Json) :
    batch.errors documents = batch.capped (failures batch.scope 0 documents) := by
  unfold errors
  by_cases h : failures batch.scope 0 documents = []
  · rw [check_eq_ok_iff.2 h]
    exact (capped_eq_nil_iff.2 h).symm
  · rw [check_of_failures h]

theorem errors_eq_nil_iff : batch.errors documents = [] ↔ batch.check documents = .ok () := by
  rw [errors_eq_capped, capped_eq_nil_iff, check_eq_ok_iff]

theorem failures_eq_nil_iff : failures scope index documents = [] ↔
    ∀ document ∈ documents, Contract.check scope document = .ok () := by
  induction documents generalizing index with
  | nil => simp [failures_nil]
  | cons document documents ih =>
    cases h : Contract.check scope document with
    | ok => rw [failures_cons_of_ok h, ih, List.forall_mem_cons]; simp [h]
    | error e => rw [failures_cons_of_error h]; simp [h]

/-- A defect of a batch goes with the report on the document at a position: it is the defect that
is reported, but for its path, where the position stands behind the `$`. -/
def Corresponds (report : Report × Nat) (e : Defect) : Prop :=
  ∃ d rest, report.1.defect = some d ∧ d.path = "$" ++ rest ∧
    e = { d with path := "$[" ++ toString report.2 ++ "]" ++ rest }

variable {world : World}

/-- The rejecting reports on documents go with what the documents come to in a batch. -/
theorem forall₂_corresponds (scope : Scope) (detailed : Bool) (index : Nat)
    (taken : List (Loaded world)) :
    List.Forall₂ Corresponds
      (((taken.map fun d => Report.ofDocument scope detailed d.path d.document).zipIdx
        index).filter fun report => !report.1.valid)
      (failures scope index (taken.map (·.document))) := by
  induction taken generalizing index with
  | nil => exact .nil
  | cons d taken ih =>
    rw [List.map_cons, List.map_cons, List.zipIdx_cons]
    cases h : Contract.check scope d.document with
    | ok =>
      rw [Report.ofDocument_of_passes h, failures_cons_of_ok h, List.filter_cons_of_neg]
      · exact ih (index + 1)
      · simp [Report.accepted]
    | error e =>
      rw [Report.ofDocument_of_error h, failures_cons_of_error h, List.filter_cons_of_pos]
      · obtain ⟨rest, path⟩ := Contract.exists_path_of_rejected h
        exact .cons ⟨e, rest, rfl, path, Defect.relocate_of_path path _⟩ (ih (index + 1))
      · simp [Report.rejected]

/-- A run takes as many of its documents as a batch needs for its defects. -/
theorem exists_takes_capped (scope : Scope) (failFast : Bool) (index : Nat)
    (documents : List (Loaded world)) :
    ∃ taken, Takes failFast scope world (documents.map Loaded.path) taken none ∧
      (Batch.mk scope failFast 0).capped (failures scope index (documents.map (·.document))) =
        failures scope index (taken.map (·.document)) := by
  cases failFast with
  | false => exact ⟨documents, .all rfl nofun, capped_of_unlimited rfl⟩
  | true =>
    have first (list : List Defect) : (Batch.mk scope true 0).capped list = list.take 1 :=
      capped_of_limit rfl
    induction documents generalizing index with
    | nil => exact ⟨[], .all rfl fun _ => by simp, rfl⟩
    | cons d documents ih =>
      cases h : Contract.check scope d.document with
      | ok =>
        obtain ⟨taken, takes, same⟩ := ih (index + 1)
        refine ⟨d :: taken, takes.cons fun _ => h, ?_⟩
        rw [List.map_cons, failures_cons_of_ok h, same, List.map_cons, failures_cons_of_ok h]
      | error e =>
        have rejected : ¬d.Passes scope := fun passes => by cases h.symm.trans passes
        refine ⟨[] ++ [d], .rejected rfl rfl (by simp) rejected, ?_⟩
        rw [first, List.map_cons, failures_cons_of_error h, List.take_succ_cons, List.take_zero,
          List.nil_append, List.map_singleton, failures_cons_of_error h, failures_nil]

end Batch

theorem Takes.prefix_paths {failFast : Bool} {scope : Scope} {world : World} {files : List Path}
    {taken : List (Loaded world)} {stop : Option (Failure × Nat)}
    (h : Takes failFast scope world files taken stop) : taken.map Loaded.path <+: files := by
  cases h with
  | all split => exact split ▸ List.prefix_rfl
  | unloadable split | rejected split => exact split ▸ List.prefix_append ..

theorem Report.length_filter_zipIdx (reports : List Report) (index : Nat) :
    ((reports.zipIdx index).filter fun report => !report.1.valid).length = failures reports := by
  have reported : reports = (reports.zipIdx index).map (·.1) := (List.zipIdx_map_fst ..).symm
  rw [failures, ← List.countP_eq_length_filter, reported, List.countP_map, ← reported]
  rfl

namespace ValidateArguments

open Batch (Corresponds)

/-- A run over files that can all be loaded agrees with the batch of their documents, which may end
at its first defect but has no other limit. -/
theorem run_agrees_with_batch (arguments : ValidateArguments) (configured : Scope) (world : World)
    (documents : List (Loaded world)) (files : arguments.files = documents.map Loaded.path)
    -- Standard input can be read only once.
    (once : arguments.inputCount ≤ 1) :
    let batch : Batch := ⟨arguments.scope configured, arguments.failFast, 0⟩
    let content := documents.map (·.document)
    let reports := Console.reported (arguments.run configured world).1
    let failure := (arguments.run configured world).2
    -- The report at a position is the one on the file at that position,
    reports.map (·.file) <+: arguments.files.map (·.text) ∧
    -- the rejecting reports go with the defects of the batch one by one, in order,
    List.Forall₂ Corresponds (reports.zipIdx.filter fun report => !report.1.valid)
      (batch.errors content) ∧
    -- and the run succeeds when the batch does; else it counts the defects.
    (failure = none ↔ batch.check content = .ok ()) ∧
    (batch.check content ≠ .ok () →
      failure = some (.validation (batch.errors content).length reports.length)) := by
  intro batch content reports failure
  let scope := arguments.scope configured
  obtain ⟨taken, takes, same⟩ := Batch.exists_takes_capped scope arguments.failFast 0 documents
  rw [← files] at takes
  have errors : batch.errors content = Batch.failures scope 0 (taken.map (·.document)) :=
    (Batch.errors_eq_capped ..).trans same
  have hreports : reports =
      taken.map fun d => .ofDocument scope arguments.detailed d.path d.document :=
    reported_run_of_takes arguments once takes
  have goes := Batch.forall₂_corresponds scope arguments.detailed 0 taken
  rw [← errors, ← hreports] at goes
  have passes : (∀ d ∈ taken, d.Passes scope) ↔ batch.check content = .ok () := by
    rw [← Batch.errors_eq_nil_iff, errors, Batch.failures_eq_nil_iff, List.forall_mem_map]
  refine ⟨?_, goes, ?_, fun rejected => ?_⟩
  · have texts : reports.map (·.file) = (taken.map Loaded.path).map (·.text) := by
      rw [hreports, List.map_map, List.map_map]
      exact List.map_congr_left fun d _ => (isReport_ofDocument ..).file
    rw [texts]
    exact takes.prefix_paths.map _
  · rw [← passes]
    exact (failure_run_eq_none_iff arguments once takes).trans (and_iff_right rfl)
  · have counted := (Batch.forall₂_corresponds scope false 0 taken).length_eq
    rw [Report.length_filter_zipIdx, ← errors] at counted
    have length : reports.length = taken.length := by rw [hreports, List.length_map]
    rw [length, ← counted]
    exact (failure_run_of_takes arguments once takes).trans (if_neg (mt passes.1 rejected))

/-- A file that is accepted, and standard input behind it. -/
def inputLast : ValidateArguments :=
  { files := [⟨"empty.json"⟩, ⟨"-"⟩], allGroups := true, groups := [], failFast := true
    detailed := true }

/-- A world where the file holds no group and standard input is a list. -/
def listOnInput : World := withInput "[]" ⟨[(⟨false, ["empty.json"]⟩, .text "\x7b\x7d")]⟩

def emptyFile : Loaded listOnInput :=
  ⟨⟨"empty.json"⟩, .object [], by
    have source : Document.source? listOnInput ⟨"empty.json"⟩ = some (.text "\x7b\x7d") := by
      decide +kernel
    rw [Document.load_eq, source]
    rfl⟩

def listInput : Loaded listOnInput := ⟨⟨"-"⟩, .array [], by rfl⟩

/-- Standard input is rejected at position 1, by the run as by the batch. -/
theorem run_agrees_with_batch_inputLast :
    let batch : Batch := ⟨.all, true, 0⟩
    let reports := Console.reported (inputLast.run .default listOnInput).1
    inputLast.files = [emptyFile, listInput].map Loaded.path ∧ inputLast.inputCount ≤ 1 ∧
      List.Forall₂ Corresponds (reports.zipIdx.filter fun report => !report.1.valid)
        [{ listRejected.defect.get rfl with path := "$[1]" }] ∧
      batch.check [.object [], .array []] ≠ .ok () ∧
      (inputLast.run .default listOnInput).2 = some (.validation 1 reports.length) := by
  intro batch reports
  have files : inputLast.files = [emptyFile, listInput].map Loaded.path := rfl
  have once : inputLast.inputCount ≤ 1 := by decide
  have rejected : batch.check [.object [], .array []] ≠ .ok () := nofun
  obtain ⟨-, goes, -, fails⟩ := run_agrees_with_batch inputLast .default listOnInput _ files once
  exact ⟨files, once, goes, rejected, fails rejected⟩

end ValidateArguments

end ServiceContract
