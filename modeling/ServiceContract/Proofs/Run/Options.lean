import ServiceContract.Proofs.Run.Validate

/-!
# What options change

Two runs of validation that differ in an option. Listing the services adds them to the reports and
changes no verdict. Ending at the first rejected document cuts the reports off behind it; what comes
after it among the files is not looked at, so it cannot matter. It can hide a file that cannot be
loaded and so turn one failure into another, but a run that ends early succeeds exactly when the
whole one does (`options_keep_verdicts`).
-/

namespace ServiceContract

open Document (Loaded Unloadable)

/-! ## The reports of a run -/

namespace Console

/-- The reports that a step writes. -/
def Step.reported : Step → List Report
  | .reports list => list
  | _ => []

/-- The reports that steps write, in order. -/
def reported (steps : List Step) : List Report := steps.flatMap Step.reported

@[simp] theorem reported_nil : reported [] = [] := rfl

@[simp] theorem reported_append (first second : List Step) :
    reported (first ++ second) = reported first ++ reported second :=
  List.flatMap_append

@[simp] theorem reported_singleton (list : List Report) : reported [.reports list] = list := by
  simp [reported, Step.reported]

end Console

/-- A report without its list of services. -/
def Report.bare (r : Report) : Report := { r with services := none }

theorem Report.bare_ofDocument (scope : Scope) (detailed : Bool) (path : Path) (document : Json) :
    (ofDocument scope detailed path document).bare = ofDocument scope false path document := by
  cases detailed <;> cases h : Contract.check scope document <;>
    simp [ofDocument, Contract.summarize, h, bare, accepted, rejected, Except.map, bind, Except.bind,
      pure, Except.pure]

/-- Whether a document is accepted does not depend on the list of its services. -/
theorem Report.valid_ofDocument (scope : Scope) (detailed : Bool) (path : Path) (document : Json) :
    (ofDocument scope detailed path document).valid =
      (ofDocument scope false path document).valid := by
  show (ofDocument scope detailed path document).bare.valid = _
  rw [bare_ofDocument]

namespace ValidateArguments

variable {arguments : ValidateArguments} {configured scope : Scope} {world : World}
  {taken : List (Loaded world)} {stop : Option (Failure × Nat)}

@[simp] theorem reported_opening : Console.reported (arguments.opening scope taken) = [] := by
  simp [Console.reported, opening, warning, Console.Step.reported]

theorem run_of_twice (arguments : ValidateArguments) (configured : Scope) (world : World)
    (twice : 1 < arguments.inputCount) :
    arguments.run configured world =
      ([], some (.invalidArguments "stdin ('-') can only be given once")) :=
  if_pos twice

/-- A run writes the reports on the documents it takes. -/
theorem reported_run_of_takes (arguments : ValidateArguments) (once : arguments.inputCount ≤ 1)
    (takes : Takes arguments.failFast (arguments.scope configured) world arguments.files taken
      stop) :
    Console.reported (arguments.run configured world).1 =
      taken.map fun d => .ofDocument (arguments.scope configured) arguments.detailed d.path
        d.document := by
  rw [run_of_takes once takes (forall₂_isReport_iff.2 rfl), Console.reported_append,
    reported_opening, List.nil_append]
  split
  · next h => exact h.2.symm
  · exact Console.reported_singleton _

/-- A run fails for the file it cannot load, or for the documents it takes and rejects. -/
theorem failure_run_of_takes (arguments : ValidateArguments) (once : arguments.inputCount ≤ 1)
    (takes : Takes arguments.failFast (arguments.scope configured) world arguments.files taken
      stop) :
    (arguments.run configured world).2 = (stop.map (·.1)).or
      (if ∀ d ∈ taken, d.Passes (arguments.scope configured) then none
        else some (.validation (Report.failures (taken.map fun d =>
          .ofDocument (arguments.scope configured) false d.path d.document)) taken.length)) := by
  have valid (d : Loaded world) :
      (Report.ofDocument (arguments.scope configured) false d.path d.document).valid = true ↔
        d.Passes (arguments.scope configured) := (isReport_ofDocument ..).valid
  rw [run_of_takes once takes (forall₂_isReport_iff.2 rfl)]
  simp [Report.failures, List.countP_map, Function.comp_def, valid,
    Report.valid_ofDocument _ arguments.detailed]

theorem failure_run_eq_none_iff (arguments : ValidateArguments)
    (once : arguments.inputCount ≤ 1)
    (takes : Takes arguments.failFast (arguments.scope configured) world arguments.files taken
      stop) :
    (arguments.run configured world).2 = none ↔
      stop = none ∧ ∀ d ∈ taken, d.Passes (arguments.scope configured) := by
  rw [failure_run_of_takes arguments once takes, Option.or_eq_none_iff, Option.map_eq_none_iff]
  refine and_congr_right fun _ => ?_
  split
  · next h => exact ⟨fun _ => h, fun _ => rfl⟩
  · next h => exact ⟨nofun, fun passes => absurd passes h⟩

/-! ## Listing the services -/

/-- The documents a run takes do not depend on whether services are listed. -/
theorem run_detailed (arguments : ValidateArguments) (configured : Scope) (world : World) :
    let plain := { arguments with detailed := false }.run configured world
    let detailed := { arguments with detailed := true }.run configured world
    detailed.2 = plain.2 ∧
      (Console.reported detailed.1).map Report.bare = Console.reported plain.1 := by
  intro plain detailed
  by_cases once : arguments.inputCount ≤ 1
  · obtain ⟨taken, stop, takes⟩ :=
      exists_takes arguments.failFast (arguments.scope configured) world arguments.files
    have hplain : Console.reported plain.1 = _ :=
      reported_run_of_takes { arguments with detailed := false } once takes
    have hdetailed : Console.reported detailed.1 = _ :=
      reported_run_of_takes { arguments with detailed := true } once takes
    refine ⟨?_, ?_⟩
    · exact (failure_run_of_takes { arguments with detailed := true } once takes).trans
        (failure_run_of_takes { arguments with detailed := false } once takes).symm
    · rw [hplain, hdetailed, List.map_map]
      exact List.map_congr_left fun d _ => Report.bare_ofDocument ..
  · have twice : 1 < arguments.inputCount := Nat.not_le.1 once
    have hplain : plain = _ :=
      run_of_twice { arguments with detailed := false } configured world twice
    have hdetailed : detailed = _ :=
      run_of_twice { arguments with detailed := true } configured world twice
    rw [hplain, hdetailed]
    exact ⟨rfl, rfl⟩

end ValidateArguments

/-! ## Ending at the first rejected document -/

/-- Reports up to the first one on a rejected document, and that one. -/
def Report.upToRejected : List Report → List Report
  | [] => []
  | r :: reports => r :: if r.valid then upToRejected reports else []

theorem Report.upToRejected_of_valid {reports : List Report} (h : ∀ r ∈ reports, r.valid = true) :
    upToRejected reports = reports := by
  induction reports with
  | nil => rfl
  | cons r reports ih =>
    obtain ⟨hr, hreports⟩ := List.forall_mem_cons.1 h
    rw [upToRejected, if_pos hr, ih hreports]

theorem Report.upToRejected_append {before after : List Report} {r : Report}
    (h : ∀ q ∈ before, q.valid = true) (hr : r.valid = false) :
    upToRejected (before ++ r :: after) = before ++ [r] := by
  induction before with
  | nil => rw [List.nil_append, upToRejected, if_neg (by simp [hr]), List.nil_append]
  | cons q before ih =>
    obtain ⟨hq, hbefore⟩ := List.forall_mem_cons.1 h
    rw [List.cons_append, upToRejected, if_pos hq, ih hbefore, List.cons_append]

section Takes

variable {scope : Scope} {world : World} {files : List Path} {taken : List (Loaded world)}
  {stop : Option (Failure × Nat)}

theorem Takes.prepend (first : List (Loaded world))
    (h : Takes false scope world files taken stop) :
    Takes false scope world (first.map Loaded.path ++ files) (first ++ taken) stop := by
  induction first with
  | nil => exact h
  | cons d first ih => exact ih.cons nofun

/-- A run to the end takes what a run that ends early takes, and goes on behind a rejected
document. -/
theorem Takes.toEnd (h : Takes true scope world files taken stop) :
    (Takes false scope world files taken stop ∧ ∀ d ∈ taken, d.Passes scope) ∨
      ∃ first last more stop', taken = first ++ [last] ∧ stop = none ∧
        (∀ d ∈ first, d.Passes scope) ∧ ¬last.Passes scope ∧
        Takes false scope world files (first ++ last :: more) stop' := by
  cases h with
  | all split calm => exact .inl ⟨.all split nofun, calm rfl⟩
  | unloadable split calm stop => exact .inl ⟨.unloadable split nofun stop, calm rfl⟩
  | @rejected first last rest split fast calm stop =>
    obtain ⟨more, stop', takes⟩ := exists_takes false scope world rest
    refine .inr ⟨first, last, more, stop', rfl, rfl, calm, stop, ?_⟩
    have behind := takes.prepend (first ++ [last])
    rwa [← split, ← List.append_cons] at behind

end Takes

namespace ValidateArguments

variable {arguments : ValidateArguments} {configured scope : Scope} {world world' : World}

/-- A run that ends early writes the reports up to the first rejected document, and it succeeds
where the whole run does. -/
theorem run_failFast (arguments : ValidateArguments) (configured : Scope) (world : World) :
    let whole := { arguments with failFast := false }.run configured world
    let fast := { arguments with failFast := true }.run configured world
    (fast.2 = none ↔ whole.2 = none) ∧
      Console.reported fast.1 = Report.upToRejected (Console.reported whole.1) := by
  intro whole fast
  by_cases once : arguments.inputCount ≤ 1
  · let scope := arguments.scope configured
    let report (d : Loaded world) := Report.ofDocument scope arguments.detailed d.path d.document
    have valid (d : Loaded world) : (report d).valid = true ↔ d.Passes scope :=
      (isReport_ofDocument ..).valid
    have reports (b : Bool) {taken stop} (takes : Takes b scope world arguments.files taken stop) :
        Console.reported ({ arguments with failFast := b }.run configured world).1 =
          taken.map report :=
      reported_run_of_takes { arguments with failFast := b } once takes
    have succeeds (b : Bool) {taken stop} (takes : Takes b scope world arguments.files taken stop) :
        ({ arguments with failFast := b }.run configured world).2 = none ↔
          stop = none ∧ ∀ d ∈ taken, d.Passes scope :=
      failure_run_eq_none_iff { arguments with failFast := b } once takes
    obtain ⟨taken, stop, takes⟩ := exists_takes true scope world arguments.files
    rcases takes.toEnd with
      ⟨toEnd, calm⟩ | ⟨first, last, more, stop', rfl, rfl, calm, rejected, toEnd⟩
    · refine ⟨(succeeds true takes).trans (succeeds false toEnd).symm, ?_⟩
      rw [reports true takes, reports false toEnd, Report.upToRejected_of_valid]
      exact List.forall_mem_map.2 fun d hd => (valid d).2 (calm d hd)
    · refine ⟨⟨fun h => ?_, fun h => ?_⟩, ?_⟩
      · exact absurd (((succeeds true takes).1 h).2 last (by simp)) rejected
      · exact absurd (((succeeds false toEnd).1 h).2 last (by simp)) rejected
      · rw [reports true takes, reports false toEnd, List.map_append, List.map_append,
          List.map_cons, List.map_cons, Report.upToRejected_append]
        · rfl
        · exact List.forall_mem_map.2 fun d hd => (valid d).2 (calm d hd)
        · exact Bool.eq_false_iff.2 fun h => rejected ((valid last).1 h)
  · have twice : 1 < arguments.inputCount := Nat.not_le.1 once
    have hwhole : whole = _ :=
      run_of_twice { arguments with failFast := false } configured world twice
    have hfast : fast = _ :=
      run_of_twice { arguments with failFast := true } configured world twice
    rw [hwhole, hfast]
    exact ⟨Iff.rfl, rfl⟩

theorem judge_cons_of_load {path : Path} {document : Json} {files : List Path}
    (h : Document.load world path = .ok document) :
    arguments.judge scope world (path :: files) =
      (if arguments.failFast &&
            !(Report.ofDocument scope arguments.detailed path document).valid then .nothing
        else arguments.judge scope world files).cons path (scope.touches document)
          (.ofDocument scope arguments.detailed path document) := by
  simp [judge, h]

theorem judge_files (arguments : ValidateArguments) (files paths : List Path) :
    { arguments with files }.judge scope world paths = arguments.judge scope world paths := by
  induction paths with
  | nil => rfl
  | cons path paths ih => simp only [judge, ih]

/-- Where the documents up to a rejected one are the same, what stands behind it does not matter. -/
theorem judge_congr_upTo {first : List (Loaded world)} {last : Loaded world}
    {rest rest' : List Path} (fast : arguments.failFast = true) (rejected : ¬last.Passes scope)
    (same : ∀ d ∈ first ++ [last], Document.load world' d.path = .ok d.document) :
    arguments.judge scope world' ((first ++ [last]).map Loaded.path ++ rest') =
      arguments.judge scope world ((first ++ [last]).map Loaded.path ++ rest) := by
  induction first with
  | nil =>
    have invalid : (Report.ofDocument scope arguments.detailed last.path last.document).valid =
        false := Bool.eq_false_iff.2 fun h => rejected ((isReport_ofDocument ..).valid.1 h)
    have hlast := same last (by simp)
    simp [judge_cons_of_load hlast, judge_cons_of_load last.loads, fast, invalid]
  | cons d first ih =>
    obtain ⟨hd, hothers⟩ := List.forall_mem_cons.1 same
    rw [List.cons_append, List.map_cons, List.cons_append, List.cons_append, judge_cons_of_load hd,
      judge_cons_of_load d.loads, ih hothers]

/-- The files behind a rejected document do not matter to a run that ends there: neither what they
hold nor which they are. Only how many there are is written. -/
theorem run_unseen (arguments : ValidateArguments) {first : List (Loaded world)}
    {last : Loaded world} {rest rest' : List Path} (fast : arguments.failFast = true)
    (split : arguments.files = (first ++ [last]).map Loaded.path ++ rest)
    (rejected : ¬last.Passes (arguments.scope configured))
    (same : ∀ d ∈ first ++ [last], Document.load world' d.path = .ok d.document) :
    let other := { arguments with files := (first ++ [last]).map Loaded.path ++ rest' }
    (1 < other.inputCount ↔ 1 < arguments.inputCount) →
      (other.run configured world').2 = (arguments.run configured world).2 ∧
      (other.run configured world').1.tail = (arguments.run configured world).1.tail ∧
      (rest'.length = rest.length →
        other.run configured world' = arguments.run configured world) := by
  intro other input
  by_cases once : arguments.inputCount ≤ 1
  · have once' : other.inputCount ≤ 1 := Nat.not_lt.1 (mt input.1 (Nat.not_lt.2 once))
    have judged : other.judge (other.scope configured) world' other.files =
        arguments.judge (arguments.scope configured) world arguments.files := by
      rw [split]
      exact (judge_files ..).trans (judge_congr_upTo fast rejected same)
    have run (a : ValidateArguments) (w : World) (h : a.inputCount ≤ 1) :
        a.run configured w = (a.steps (a.judge (a.scope configured) w a.files),
          failure? (a.judge (a.scope configured) w a.files)) := if_neg (Nat.not_lt.2 h)
    rw [run other world' once', run arguments world once, judged]
    refine ⟨rfl, rfl, fun number => ?_⟩
    have files : other.files.length = arguments.files.length := by
      rw [split, List.length_append, List.length_append, number]
    rw [steps, steps, files]
  · have twice : 1 < arguments.inputCount := Nat.not_le.1 once
    rw [run_of_twice arguments configured world twice,
      run_of_twice other configured world' (input.2 twice)]
    exact ⟨rfl, rfl, fun _ => rfl⟩

/-- Neither option changes a verdict: listing the services adds them and nothing else, and ending
early only leaves out what comes after the first rejected document. -/
theorem options_keep_verdicts (arguments : ValidateArguments) (configured : Scope) (world : World) :
    let run (failFast detailed : Bool) :=
      { arguments with failFast, detailed }.run configured world
    (∀ failFast, (run failFast true).2 = (run failFast false).2 ∧
      (Console.reported (run failFast true).1).map Report.bare =
        Console.reported (run failFast false).1) ∧
    ∀ detailed,
      -- A run that ends early succeeds exactly when the whole one does,
      ((run true detailed).2 = none ↔ (run false detailed).2 = none) ∧
      -- it reports what the whole one reports, up to the first rejected document,
      ((∀ r ∈ Console.reported (run false detailed).1, r.valid = true) →
        Console.reported (run true detailed).1 = Console.reported (run false detailed).1) ∧
      (∀ before r after, Console.reported (run false detailed).1 = before ++ r :: after →
        (∀ q ∈ before, q.valid = true) → r.valid = false →
        Console.reported (run true detailed).1 = before ++ [r]) ∧
      -- and neither the names nor the contents of the files behind it make a difference.
      ∀ (first : List (Loaded world)) (last : Loaded world) (rest rest' : List Path)
        (world' : World),
        arguments.files = (first ++ [last]).map Loaded.path ++ rest →
        ¬last.Passes (arguments.scope configured) →
        (∀ d ∈ first ++ [last], Document.load world' d.path = .ok d.document) →
        let other : ValidateArguments :=
          { arguments with
            failFast := true, detailed, files := (first ++ [last]).map Loaded.path ++ rest' }
        (1 < other.inputCount ↔ 1 < arguments.inputCount) →
        (other.run configured world').2 = (run true detailed).2 ∧
          (other.run configured world').1.tail = (run true detailed).1.tail ∧
          (rest'.length = rest.length → other.run configured world' = run true detailed) := by
  intro run
  refine ⟨fun failFast => run_detailed { arguments with failFast } configured world,
    fun detailed => ?_⟩
  obtain ⟨succeeds, reports⟩ := run_failFast { arguments with detailed } configured world
  refine ⟨succeeds, fun valid => ?_, fun before r after split valid invalid => ?_, ?_⟩
  · exact reports.trans (Report.upToRejected_of_valid valid)
  · exact reports.trans (by rw [split, Report.upToRejected_append valid invalid])
  · intro first last rest rest' world' split rejected same other input
    exact run_unseen { arguments with failFast := true, detailed } rfl split
      rejected same input

/-- Standard input, and a file behind it. -/
def inputFirst : ValidateArguments :=
  { files := [⟨"-"⟩, ⟨"absent.json"⟩], allGroups := true, groups := [], failFast := false
    detailed := false }

/-- A world with a text on standard input. -/
def withInput (text : String) (tree : FileTree) : World :=
  ⟨tree, some text, none, none, ⟨none, none⟩⟩

/-- The report on standard input where it holds a list. -/
def listRejected : Report :=
  .rejected "-"
    { code := .documentNotObject
      message := "Expected the services document to be an object, found array"
      path := "$"
      violation := ⟨"value_shape", "object", "array"⟩ }

/-- Behind the rejected standard input, a file that is absent is as good as one that is there. -/
theorem options_keep_verdicts_inputFirst :
    let run (text : String) (failFast : Bool) :=
      { inputFirst with failFast, detailed := false }.run .default (withInput text .empty)
    let late := withInput "[]" ⟨[(⟨false, ["late.json"]⟩, .text "\x7b\x7d")]⟩
    let other : ValidateArguments :=
      { inputFirst with
        failFast := true, detailed := false, files := [⟨"-"⟩] ++ [⟨"late.json"⟩] }
    let last : Loaded (withInput "[]" .empty) := ⟨⟨"-"⟩, .array [], by rfl⟩
    ((∀ r ∈ Console.reported (run "\x7b\x7d" false).1, r.valid = true) ∧
      Console.reported (run "\x7b\x7d" true).1 = Console.reported (run "\x7b\x7d" false).1) ∧
    (Console.reported (run "[]" false).1 = [] ++ listRejected :: [] ∧
      (∀ q ∈ ([] : List Report), q.valid = true) ∧ listRejected.valid = false ∧
      Console.reported (run "[]" true).1 = [] ++ [listRejected]) ∧
    (inputFirst.files = ([] ++ [last]).map Loaded.path ++ [⟨"absent.json"⟩] ∧
      ¬last.Passes (inputFirst.scope .default) ∧
      (∀ d ∈ [] ++ [last], Document.load late d.path = .ok d.document) ∧
      (1 < other.inputCount ↔ 1 < inputFirst.inputCount) ∧
      other.run .default late = run "[]" true) := by
  intro run late other last
  obtain ⟨-, accepted, -, -⟩ :=
    (options_keep_verdicts inputFirst .default (withInput "\x7b\x7d" .empty)).2 false
  obtain ⟨-, -, rejected, unseen⟩ :=
    (options_keep_verdicts inputFirst .default (withInput "[]" .empty)).2 false
  have reported : Console.reported (run "\x7b\x7d" false).1 = [.accepted "-" none] := by rfl
  have valid : ∀ r ∈ Console.reported (run "\x7b\x7d" false).1, r.valid = true := by
    rw [reported]
    decide
  have split : Console.reported (run "[]" false).1 = [] ++ listRejected :: [] := by rfl
  have stops : ¬last.Passes (inputFirst.scope .default) := nofun
  have load : Document.load late ⟨"-"⟩ = .ok (.array []) := by rfl
  have same : ∀ d ∈ [] ++ [last], Document.load late d.path = .ok d.document :=
    List.forall_mem_singleton.2 load
  have input : 1 < other.inputCount ↔ 1 < inputFirst.inputCount := by decide
  exact ⟨⟨valid, accepted valid⟩, ⟨split, by simp, rfl, rejected _ _ _ split (by simp) rfl⟩, rfl,
    stops, same, input, (unseen [] last _ [⟨"late.json"⟩] _ rfl stops same input).2.2 rfl⟩

end ValidateArguments

end ServiceContract
