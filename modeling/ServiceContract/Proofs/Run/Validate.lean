import Mathlib.Data.List.Forall2
import ServiceContract.Run

/-!
# What a run of validation comes to

The outcome of a run, as its files determine it. A run takes its files in order up to one that
cannot be loaded (`Unloadable`) or, on request, up to the first one that is rejected (`Takes`). The
reports on the documents it took (`IsReport`) are written once, and the failure with its exit code
follows from them (`Concludes`).
-/

namespace ServiceContract

/-! ## Loading -/

namespace Document

/-- What stands at the path of a document: standard input, or what the file tree has there. -/
def source? (world : World) (path : Path) : Option Entry :=
  if path.same .standardInput then some (world.standardInput.elim .binary .text)
  else world.tree.find? path

/-- Why the document at a path cannot be loaded, and the exit code of a run that needs it. -/
inductive Unloadable (world : World) (path : Path) : Failure → Nat → Prop
  | absent (h : source? world path = none) : Unloadable world path (.fileNotFound path) 3
  | directory (h : source? world path = some .directory) :
      Unloadable world path (.io "Is a directory (os error 21)") 1
  | unreadable (h : source? world path = some .binary) :
      Unloadable world path (.io "stream did not contain valid UTF-8") 1
  | notYaml {content : String} (h : source? world path = some (.text content))
      (yaml : isYaml path = true) (garbled : Yaml.read? content = none) :
      Unloadable world path (.invalidFormat path "YAML" "not one YAML document") 4
  | notJson {content : String} {e : Json.ReadError}
      (h : source? world path = some (.text content)) (json : isYaml path = false)
      (garbled : Json.read content = .error e) :
      Unloadable world path (.invalidFormat path "JSON" e.message) 4

variable {world : World} {path : Path} {failure : Failure}

theorem load_eq (world : World) (path : Path) :
    load world path = match source? world path with
      | none => .error (.fileNotFound path)
      | some .directory => .error (.io "Is a directory (os error 21)")
      | some .binary => .error (.io "stream did not contain valid UTF-8")
      | some (.text content) => decode path content := by
  unfold load text source?
  by_cases h : path.same .standardInput
  · simp only [h, if_true]
    cases world.standardInput <;> rfl
  · simp only [h]
    cases world.tree.find? path with
    | none => rfl
    | some entry => cases entry <;> rfl

theorem decode_yaml {content : String} (h : isYaml path = true) :
    decode path content =
      (Yaml.read? content).elim (.error (.invalidFormat path "YAML" "not one YAML document")) .ok := by
  rw [decode, if_pos h]

theorem decode_json {content : String} (h : isYaml path = false) :
    decode path content =
      (Json.read content).mapError fun e => .invalidFormat path "JSON" e.message := by
  rw [decode, if_neg (by simp [h])]

/-- Loading fails for the reasons that stand at the path, with their exit codes. -/
theorem unloadable_iff {code : Nat} :
    Unloadable world path failure code ↔
      load world path = .error failure ∧ code = failure.exitCode := by
  rw [load_eq]
  constructor
  · intro h
    cases h with
    | absent h | directory h | unreadable h => exact ⟨by rw [h], rfl⟩
    | notYaml h yaml garbled => exact ⟨by rw [h]; simp [decode_yaml yaml, garbled], rfl⟩
    | notJson h json garbled =>
      exact ⟨by rw [h]; simp [decode_json json, garbled, Except.mapError], rfl⟩
  · rintro ⟨h, rfl⟩
    split at h
    · next hs => cases h; exact .absent hs
    · next hs => cases h; exact .directory hs
    · next hs => cases h; exact .unreadable hs
    · next content hs =>
      cases hp : isYaml path with
      | true =>
        rw [decode_yaml hp] at h
        cases hread : Yaml.read? content with
        | none => rw [hread] at h; cases h; exact .notYaml hs hp hread
        | some document => rw [hread] at h; cases h
      | false =>
        rw [decode_json hp] at h
        cases hread : Json.read content with
        | error e => rw [hread] at h; cases h; exact .notJson hs hp hread
        | ok document => rw [hread] at h; cases h

/-- A document that was loaded, with its path. -/
structure Loaded (world : World) where
  path : Path
  document : Json
  loads : load world path = .ok document

/-- A document passes the check of a scope. -/
abbrev Loaded.Passes {world : World} (d : Loaded world) (scope : Scope) : Prop :=
  Contract.check scope d.document = .ok ()

end Document

open Document (Loaded Unloadable)

/-! ## Reports -/

/-- The report on a document, said without the code that makes it. -/
structure IsReport (scope : Scope) (detailed : Bool) {world : World} (d : Loaded world)
    (r : Report) : Prop where
  file : r.file = d.path.text
  valid : r.valid = true ↔ d.Passes scope
  defect : ∀ e, r.defect = some e ↔ Contract.check scope d.document = .error e
  services : r.services =
    if detailed && r.valid then some (ServiceSummary.ofDocument scope d.document) else none

section Report

variable {scope : Scope} {detailed : Bool} {world : World} {d : Loaded world}

theorem Report.ofDocument_of_passes (h : d.Passes scope) :
    Report.ofDocument scope detailed d.path d.document = .accepted d.path.text
      (if detailed then some (ServiceSummary.ofDocument scope d.document) else none) := by
  cases detailed <;> simp [ofDocument, Contract.summarize, h] <;> rfl

theorem Report.ofDocument_of_error {e : Defect} (h : Contract.check scope d.document = .error e) :
    Report.ofDocument scope detailed d.path d.document = .rejected d.path.text e := by
  cases detailed <;> simp [ofDocument, Contract.summarize, h] <;> rfl

theorem isReport_ofDocument (scope : Scope) (detailed : Bool) (d : Loaded world) :
    IsReport scope detailed d (.ofDocument scope detailed d.path d.document) := by
  cases h : Contract.check scope d.document with
  | ok =>
    rw [Report.ofDocument_of_passes h]
    constructor <;> simp [Report.accepted, Loaded.Passes, h]
  | error e =>
    rw [Report.ofDocument_of_error h]
    constructor <;> simp [Report.rejected, Loaded.Passes, h]

/-- There is one report on a document. -/
theorem IsReport.unique {r q : Report} (hr : IsReport scope detailed d r)
    (hq : IsReport scope detailed d q) : r = q := by
  have hvalid : r.valid = q.valid := Bool.eq_iff_iff.2 (hr.valid.trans hq.valid.symm)
  have hdefect : r.defect = q.defect :=
    Option.ext fun e => (hr.defect e).trans (hq.defect e).symm
  have hservices : r.services = q.services := by rw [hr.services, hq.services, hvalid]
  obtain ⟨file, valid, defect, services⟩ := r
  obtain ⟨file', valid', defect', services'⟩ := q
  obtain rfl : file = file' := hr.file.trans hq.file.symm
  obtain rfl : valid = valid' := hvalid
  obtain rfl : defect = defect' := hdefect
  obtain rfl : services = services' := hservices
  rfl

theorem forall₂_isReport_iff {taken : List (Loaded world)} {reports : List Report} :
    List.Forall₂ (IsReport scope detailed) taken reports ↔
      reports = taken.map fun d => .ofDocument scope detailed d.path d.document := by
  have h (d : Loaded world) (r : Report) : IsReport scope detailed d r ↔
      Report.ofDocument scope detailed d.path d.document = r :=
    ⟨(isReport_ofDocument ..).unique, fun h => h ▸ isReport_ofDocument ..⟩
  simp only [funext₂ fun d r => propext (h d r)]
  rw [eq_comm, ← List.forall₂_eq_eq_eq, List.forall₂_map_left_iff]

end Report

/-! ## Taking files in order -/

/-- The documents that a run takes from its files, and the failure to load, with its exit code, that
stops it there. -/
inductive Takes (failFast : Bool) (scope : Scope) (world : World) (files : List Path) :
    List (Loaded world) → Option (Failure × Nat) → Prop
  | all {taken : List (Loaded world)} (split : files = taken.map (·.path))
      (calm : failFast = true → ∀ d ∈ taken, d.Passes scope) :
      Takes failFast scope world files taken none
  | unloadable {taken : List (Loaded world)} {path : Path} {rest : List Path} {failure : Failure}
      {code : Nat} (split : files = taken.map (·.path) ++ path :: rest)
      (calm : failFast = true → ∀ d ∈ taken, d.Passes scope)
      (stop : Unloadable world path failure code) :
      Takes failFast scope world files taken (some (failure, code))
  | rejected {taken : List (Loaded world)} {last : Loaded world} {rest : List Path}
      (split : files = (taken ++ [last]).map (·.path) ++ rest) (fast : failFast = true)
      (calm : ∀ d ∈ taken, d.Passes scope)
      (stop : ¬last.Passes scope) :
      Takes failFast scope world files (taken ++ [last]) none

section Takes

variable {failFast : Bool} {scope : Scope} {world : World} {files : List Path} {d : Loaded world}
  {taken : List (Loaded world)} {stop : Option (Failure × Nat)}

theorem Takes.cons (h : failFast = true → d.Passes scope)
    (ht : Takes failFast scope world files taken stop) :
    Takes failFast scope world (d.path :: files) (d :: taken) stop := by
  cases ht with
  | all split calm =>
    exact .all (by rw [split]; rfl) fun fast => List.forall_mem_cons.2 ⟨h fast, calm fast⟩
  | unloadable split calm stop =>
    exact .unloadable (by rw [split]; rfl)
      (fun fast => List.forall_mem_cons.2 ⟨h fast, calm fast⟩) stop
  | rejected split fast calm stop =>
    rw [← List.cons_append]
    exact .rejected (by rw [split]; rfl) fast (List.forall_mem_cons.2 ⟨h fast, calm⟩) stop

theorem Takes.code_eq {failure : Failure} {code : Nat}
    (h : Takes failFast scope world files taken (some (failure, code))) :
    code = failure.exitCode := by
  cases h with
  | unloadable _ _ stop => exact (Document.unloadable_iff.1 stop).2

/-- Some documents are taken from any files. -/
theorem exists_takes (failFast : Bool) (scope : Scope) (world : World) (files : List Path) :
    ∃ taken stop, Takes failFast scope world files taken stop := by
  induction files with
  | nil => exact ⟨[], none, .all rfl fun _ => by simp⟩
  | cons path files ih =>
    cases hload : Document.load world path with
    | error failure =>
      exact ⟨[], some (failure, failure.exitCode), .unloadable rfl (fun _ => by simp)
        (Document.unloadable_iff.2 ⟨hload, rfl⟩)⟩
    | ok document =>
      let d : Loaded world := ⟨path, document, hload⟩
      by_cases h : failFast = true → d.Passes scope
      · obtain ⟨taken, stop, ht⟩ := ih
        exact ⟨d :: taken, stop, ht.cons h⟩
      · rw [Classical.not_imp] at h
        exact ⟨[] ++ [d], none, .rejected rfl h.1 (by simp) h.2⟩

end Takes

/-! ## Judging the files taken -/

/-- The documents in which a scope finds nothing to check. -/
def Scope.untouched (scope : Scope) {world : World} (taken : List (Loaded world)) : List Path :=
  (taken.filter fun d => !scope.touches d.document).map (·.path)

/-- The verdicts on documents, and a judgement after them. -/
def Judgement.after (scope : Scope) (detailed : Bool) {world : World} (taken : List (Loaded world))
    (j : Judgement) : Judgement :=
  ⟨scope.untouched taken ++ j.unscoped,
    taken.map (fun d => .ofDocument scope detailed d.path d.document) ++ j.reports, j.failure⟩

theorem Judgement.after_append {scope : Scope} {detailed : Bool} {world : World}
    (first second : List (Loaded world)) (j : Judgement) :
    j.after scope detailed (first ++ second) =
      (j.after scope detailed second).after scope detailed first := by
  simp [after, Scope.untouched]

/-- Documents are put in front of a judgement one by one. -/
theorem Judgement.after_singleton {scope : Scope} {detailed : Bool} {world : World}
    (d : Loaded world) (j : Judgement) :
    j.after scope detailed [d] = j.cons d.path (scope.touches d.document)
      (.ofDocument scope detailed d.path d.document) := by
  cases h : scope.touches d.document <;> simp [after, cons, Scope.untouched, h]

namespace ValidateArguments

variable {arguments : ValidateArguments} {scope : Scope} {world : World} {files rest : List Path}
  {d : Loaded world} {taken : List (Loaded world)} {stop : Option (Failure × Nat)}

/-- One document further, a run goes on where the document is accepted or nothing stops it. -/
theorem judge_goesOn (h : arguments.failFast = true → d.Passes scope) :
    arguments.judge scope world (d.path :: files) =
      (arguments.judge scope world files).after scope arguments.detailed [d] := by
  have hvalid := (isReport_ofDocument scope arguments.detailed d).valid
  have hgo : (arguments.failFast &&
      !(Report.ofDocument scope arguments.detailed d.path d.document).valid) = false := by
    cases hfast : arguments.failFast with
    | false => rfl
    | true => simp [hvalid.2 (h hfast)]
  rw [Judgement.after_singleton]
  simp [judge, d.loads, hgo]

/-- At a rejected document a fast run ends. -/
theorem judge_stops (fast : arguments.failFast = true) (h : ¬d.Passes scope) :
    arguments.judge scope world (d.path :: files) =
      Judgement.nothing.after scope arguments.detailed [d] := by
  have hvalid := (isReport_ofDocument scope arguments.detailed d).valid
  have hstop : (Report.ofDocument scope arguments.detailed d.path d.document).valid = false :=
    Bool.eq_false_iff.2 fun hv => h (hvalid.1 hv)
  rw [Judgement.after_singleton]
  simp [judge, d.loads, fast, hstop]

theorem judge_append (calm : arguments.failFast = true → ∀ d ∈ taken, d.Passes scope) :
    arguments.judge scope world (taken.map (·.path) ++ rest) =
      (arguments.judge scope world rest).after scope arguments.detailed taken := by
  induction taken with
  | nil => simp [Judgement.after, Scope.untouched]
  | cons d taken ih =>
    rw [List.map_cons, List.cons_append,
      judge_goesOn fun fast => (List.forall_mem_cons.1 (calm fast)).1,
      ih fun fast => (List.forall_mem_cons.1 (calm fast)).2, ← Judgement.after_append]
    rfl

/-- The judgement on files is the one on the documents taken from them. -/
theorem judge_of_takes (h : Takes arguments.failFast scope world files taken stop) :
    arguments.judge scope world files =
      Judgement.after scope arguments.detailed taken ⟨[], [], stop.map (·.1)⟩ := by
  cases h with
  | all split calm =>
    rw [split, ← List.append_nil (taken.map _), judge_append calm]
    rfl
  | unloadable split calm stop =>
    rw [split, judge_append calm, judge, (Document.unloadable_iff.1 stop).1]
    rfl
  | rejected split fast calm stop =>
    rw [split, List.map_append, List.append_assoc, judge_append fun _ => calm,
      Judgement.after_append]
    exact congrArg _ (judge_stops fast stop)

end ValidateArguments

/-! ## The outcome -/

/-- What a run writes before its reports: how many files there are, and which of the documents it
took were not checked. -/
def ValidateArguments.opening (arguments : ValidateArguments) (scope : Scope) {world : World}
    (taken : List (Loaded world)) : List Console.Step :=
  .info ("Validating " ++ toString arguments.files.length ++ " document(s)")
    :: (scope.untouched taken).map warning

/-- What a run writes, why it fails, and its exit code. -/
inductive Concludes (arguments : ValidateArguments) (scope : Scope) (world : World) :
    List Console.Step → Option Failure → Nat → Prop
  | inputTwice (twice : 1 < arguments.inputCount) :
      Concludes arguments scope world []
        (some (.invalidArguments "stdin ('-') can only be given once")) 6
  | stopped {taken : List (Loaded world)} {failure : Failure} {code : Nat} {reports : List Report}
      (once : arguments.inputCount ≤ 1)
      (takes : Takes arguments.failFast scope world arguments.files taken (some (failure, code)))
      (each : List.Forall₂ (IsReport scope arguments.detailed) taken reports) :
      Concludes arguments scope world
        (arguments.opening scope taken ++ if reports = [] then [] else [.reports reports])
        (some failure) code
  | passed {taken : List (Loaded world)} {reports : List Report}
      (once : arguments.inputCount ≤ 1)
      (takes : Takes arguments.failFast scope world arguments.files taken none)
      (each : List.Forall₂ (IsReport scope arguments.detailed) taken reports)
      (valid : ∀ r ∈ reports, r.valid = true) :
      Concludes arguments scope world (arguments.opening scope taken ++ [.reports reports]) none 0
  | failed {taken : List (Loaded world)} {reports : List Report}
      (once : arguments.inputCount ≤ 1)
      (takes : Takes arguments.failFast scope world arguments.files taken none)
      (each : List.Forall₂ (IsReport scope arguments.detailed) taken reports)
      (invalid : ¬∀ r ∈ reports, r.valid = true) :
      Concludes arguments scope world (arguments.opening scope taken ++ [.reports reports])
        (some (.validation (reports.countP fun r => !r.valid) reports.length)) 2

namespace ValidateArguments

variable {arguments : ValidateArguments} {configured : Scope} {world : World}
  {taken : List (Loaded world)} {stop : Option (Failure × Nat)} {reports : List Report}

/-- What a run comes to that names standard input once at most. -/
theorem run_of_takes (once : arguments.inputCount ≤ 1)
    (takes : Takes arguments.failFast (arguments.scope configured) world arguments.files taken stop)
    (each : List.Forall₂ (IsReport (arguments.scope configured) arguments.detailed) taken reports) :
    arguments.run configured world =
      (arguments.opening (arguments.scope configured) taken ++
          (if stop.isSome ∧ reports = [] then [] else [.reports reports]),
        (stop.map (·.1)).or (if ∀ r ∈ reports, r.valid = true then none
          else some (.validation (reports.countP fun r => !r.valid) reports.length))) := by
  obtain rfl := forall₂_isReport_iff.1 each
  rw [run, if_neg (Nat.not_lt.2 once), judge_of_takes takes]
  simp [steps, failure?, opening, Judgement.after, Report.failures, List.countP_eq_zero]

end ValidateArguments

open ValidateArguments (run_of_takes)

/-- The outcome of validation is the one its files determine. -/
theorem validation_concludes (arguments : ValidateArguments) (configured : Scope) (world : World)
    (steps : List Console.Step) (failure : Option Failure) (code : Nat) :
    Concludes arguments (arguments.scope configured) world steps failure code ↔
      arguments.run configured world = (steps, failure) ∧
        code = failure.elim 0 Failure.exitCode := by
  constructor
  · intro h
    cases h with
    | inputTwice twice => exact ⟨by rw [ValidateArguments.run, if_pos twice], rfl⟩
    | stopped once takes each =>
      exact ⟨by rw [run_of_takes once takes each]; simp, takes.code_eq⟩
    | passed once takes each valid =>
      exact ⟨by rw [run_of_takes once takes each, if_pos valid]; rfl, rfl⟩
    | failed once takes each invalid =>
      exact ⟨by rw [run_of_takes once takes each, if_neg invalid]; rfl, rfl⟩
  · rintro ⟨hrun, rfl⟩
    by_cases twice : 1 < arguments.inputCount
    · rw [ValidateArguments.run, if_pos twice] at hrun
      cases hrun
      exact .inputTwice twice
    have once := Nat.not_lt.1 twice
    obtain ⟨taken, stop, takes⟩ :=
      exists_takes arguments.failFast (arguments.scope configured) world arguments.files
    obtain ⟨reports, each⟩ : ∃ reports, List.Forall₂
        (IsReport (arguments.scope configured) arguments.detailed) taken reports :=
      ⟨_, forall₂_isReport_iff.2 rfl⟩
    rw [run_of_takes once takes each] at hrun
    obtain ⟨rfl, rfl⟩ := Prod.mk.inj hrun
    cases stop with
    | some stop =>
      obtain ⟨failure, code⟩ := stop
      obtain rfl := takes.code_eq
      simpa using Concludes.stopped once takes each
    | none =>
      by_cases valid : ∀ r ∈ reports, r.valid = true
      · rw [if_pos valid]
        exact .passed once takes each valid
      · rw [if_neg valid]
        exact .failed once takes each valid

/-- The verdict on standard input is kept although the file after it is missing. -/
example :
    let arguments : ValidateArguments :=
      { files := [⟨"-"⟩, ⟨"absent.json"⟩], allGroups := true, groups := [], failFast := true
        detailed := false }
    arguments.run .default ⟨.empty, some "\x7b\"sms\": []\x7d", none, none, ⟨none, none⟩⟩ =
      ([.info "Validating 2 document(s)", .reports [.accepted "-" none]],
        some (.fileNotFound ⟨"absent.json"⟩)) := by rfl

end ServiceContract
