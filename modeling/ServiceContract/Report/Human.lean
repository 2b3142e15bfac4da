import ServiceContract.Report
import ServiceContract.Text.Lines

/-!
# Reports for people

One line with the verdict for each document. The lines about its defect and its services are
indented by two spaces. The last line counts the documents.
-/

namespace ServiceContract

/-- A defect in five lines. -/
def Defect.describe (d : Defect) : String :=
  "📍 Path: " ++ d.path ++ "\n🏷  Code: " ++ d.code.name ++ "\n💬 Message: " ++ d.message
    ++ "\n   Expected: " ++ d.violation.expected ++ "\n   Actual: " ++ d.violation.actual ++ "\n"

/-- A service in one line. -/
def ServiceSummary.describe (s : ServiceSummary) : String :=
  "  • " ++ s.group ++ "[" ++ toString s.index ++ "] " ++ s.id ++ ": " ++ s.methodTitle ++ " ("
    ++ toString s.propertyNames.length ++ " properties)\n"

namespace Report

/-- Every line of a text, indented by two spaces. -/
def indent (text : String) : String :=
  String.join ((Text.lines text).map fun line => "  " ++ line ++ "\n")

def verdictLine (r : Report) : String :=
  if r.valid then "✓ " ++ r.file ++ ": valid\n" else "✗ " ++ r.file ++ ": invalid\n"

def defectLines (r : Report) : String := r.defect.elim "" fun d => indent d.describe

def serviceLines (r : Report) : String :=
  match r.services with
  | none => ""
  | some [] => "  (no services in scope)\n"
  | some services => String.join (services.map ServiceSummary.describe)

def describe (r : Report) : String := r.verdictLine ++ r.defectLines ++ r.serviceLines

def countLine (reports : List Report) : String :=
  let failed := failures reports
  "\n" ++ toString reports.length ++ " document(s) checked, " ++ toString (reports.length - failed)
    ++ " valid, " ++ toString failed ++ " invalid"

/-- The reports of a run. -/
def describeAll (reports : List Report) : String :=
  String.join (reports.map describe) ++ countLine reports

end Report

end ServiceContract
