import ServiceContract.Console
import ServiceContract.Document
import ServiceContract.Invocation

/-!
# Validating files

The files are judged in the order they are given, up to the first one that cannot be loaded or, on
request, the first one that is rejected. The verdicts reached are written together at the end, also
where a file could not be loaded. A document in which no key is a group passes with a warning.
-/

namespace ServiceContract

/-- What came of judging some files. -/
structure Judgement where
  /-- The files that have no group in scope. -/
  unscoped : List Path
  reports : List Report
  /-- Why a file could not be loaded; those after it are not judged. -/
  failure : Option Failure
  deriving DecidableEq, Repr

namespace Judgement

def nothing : Judgement := ⟨[], [], none⟩

/-- Puts the verdict on a file in front. -/
def cons (path : Path) (inScope : Bool) (report : Report) (j : Judgement) : Judgement :=
  { j with
    unscoped := if inScope then j.unscoped else path :: j.unscoped
    reports := report :: j.reports }

end Judgement

/-- Whether there is something to check: a key in scope, or a document of the wrong kind. -/
def Scope.touches (scope : Scope) (document : Json) : Bool :=
  document.members?.all fun members => members.keys.any scope.includes

/-- The verdict on a document. -/
def Report.ofDocument (scope : Scope) (detailed : Bool) (path : Path) (document : Json) : Report :=
  let result :=
    if detailed then (Contract.summarize scope document).map some
    else (Contract.check scope document).map fun _ => none
  match result with
  | .ok services => .accepted path.text services
  | .error defect => .rejected path.text defect

namespace ValidateArguments

/-- The scope of the check: the one on the command line, or else the configured one. -/
def scope (arguments : ValidateArguments) (configured : Scope) : Scope :=
  if arguments.allGroups then .all
  else if arguments.groups.isEmpty then configured
  else .only arguments.groups

/-- Judges files in order. -/
def judge (arguments : ValidateArguments) (scope : Scope) (world : World) : List Path → Judgement
  | [] => .nothing
  | path :: paths =>
    match Document.load world path with
    | .error failure => ⟨[], [], some failure⟩
    | .ok document =>
      let report := Report.ofDocument scope arguments.detailed path document
      let rest :=
        if arguments.failFast && !report.valid then .nothing
        else arguments.judge scope world paths
      rest.cons path (scope.touches document) report

/-- How often standard input is among the files. -/
def inputCount (arguments : ValidateArguments) : Nat :=
  arguments.files.countP (·.same .standardInput)

/-- The warning about a file in which nothing is checked. -/
def warning (path : Path) : Console.Step :=
  .warning (path.text ++ ": no service groups in scope, nothing to check")

/-- What is written about a judgement. -/
def steps (arguments : ValidateArguments) (j : Judgement) : List Console.Step :=
  .info ("Validating " ++ toString arguments.files.length ++ " document(s)")
    :: j.unscoped.map warning
    ++ if j.failure.isSome && j.reports.isEmpty then [] else [.reports j.reports]

/-- What ends a run with a judgement: a file that could not be loaded, or rejected documents. -/
def failure? (j : Judgement) : Option Failure :=
  let failed := Report.failures j.reports
  j.failure.or (if failed = 0 then none else some (.validation failed j.reports.length))

/-- Validates files. -/
def run (arguments : ValidateArguments) (configured : Scope) (world : World) :
    List Console.Step × Option Failure :=
  if 1 < arguments.inputCount then
    ([], some (.invalidArguments "stdin ('-') can only be given once"))
  else
    let j := arguments.judge (arguments.scope configured) world arguments.files
    (arguments.steps j, failure? j)

end ValidateArguments

end ServiceContract
