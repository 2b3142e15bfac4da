import ServiceContract.Summary

/-!
# Reports

The verdict on one document: accepted or not, the defect of a rejected one, and the services of an
accepted one where they were asked for.
-/

namespace ServiceContract

/-- The verdict on a document. `file` names where it was read from. -/
structure Report where
  file : String
  valid : Bool
  defect : Option Defect
  services : Option (List ServiceSummary)
  deriving DecidableEq, Repr

namespace Report

def accepted (file : String) (services : Option (List ServiceSummary)) : Report :=
  ⟨file, true, none, services⟩

def rejected (file : String) (defect : Defect) : Report := ⟨file, false, some defect, none⟩

def form : Form Report :=
  .record "DocumentReport" false
    (.cons "file" .text none (.cons "valid" .flag none
      (.cons "error" (.option Defect.form) (some none)
        (.cons "services" (.option (.list ServiceSummary.form)) (some none) .nil))))
    (fun (file, valid, defect, services, _) => ⟨file, valid, defect, services⟩)
    (fun r => (r.file, r.valid, r.defect, r.services, ()))

/-- The number of rejected documents. -/
def failures (reports : List Report) : Nat := reports.countP fun r => !r.valid

end Report

end ServiceContract
