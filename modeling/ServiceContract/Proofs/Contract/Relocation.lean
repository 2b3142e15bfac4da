import ServiceContract.Proofs.Contract.Place

/-!
# Documents at other places

A document can be checked as if it stood anywhere. Its verdict is the one at the root, and its
defect has the path of the place where the path at the root has `$` (`checkDocument_eq_relocate`).
-/

namespace ServiceContract

/-- The defect of what stands at a place, from the defect at the root: the path of the place is put
where the path begins with `$`. -/
def Defect.relocate (place : Location) (d : Defect) : Defect :=
  { d with path := place.path ++ String.ofList d.path.toList.tail }

theorem Location.path_follow (place : Location) (steps : List Step) :
    (place.follow steps).path = place.path ++ String.ofList (steps.flatMap Step.chars) :=
  String.toList_inj.1 (by rw [toList_follow, String.toList_append, String.toList_ofList])

theorem Defect.relocate_of_path {d : Defect} {rest : String} (h : d.path = "$" ++ rest)
    (place : Location) : d.relocate place = { d with path := place.path ++ rest } := by
  simp [relocate, h]

namespace Contract

/-- A place shows in the path of a defect only. -/
theorem Rule.defect_with_path (r : Rule) (value : Json) (place place' : Location) :
    { r.defect value place' with path := (r.defect value place).path } = r.defect value place := by
  unfold defect
  split <;> rfl

theorem Fault.defect_with_path (fault : Fault) (place place' : Location) :
    { fault.defect place' with path := (fault.defect place).path } = fault.defect place := by
  cases fault with
  | entry => exact Rule.defect_with_path ..
  | _ => rfl

theorem Fault.path_defect_root (fault : Fault) :
    (fault.defect .root).path = "$" ++ String.ofList (fault.steps.flatMap Step.chars) := by
  rw [path_defect, Location.path_follow]
  rfl

theorem Fault.relocate_defect (fault : Fault) (place : Location) :
    (fault.defect .root).relocate place = fault.defect place := by
  rw [Defect.relocate_of_path fault.path_defect_root, ← Location.path_follow, ← path_defect]
  exact defect_with_path ..

variable {scope : Scope} {document : Json}

theorem exists_path_of_rejected {e : Defect} (h : check scope document = .error e) :
    ∃ rest, e.path = "$" ++ rest := by
  obtain ⟨fault, -, rfl⟩ := checkDocument_eq_error_iff.1 h
  exact ⟨_, fault.path_defect_root⟩

/-- The verdict on a document at a place is the verdict at the root, moved there. -/
theorem checkDocument_eq_relocate (scope : Scope) (document : Json) (place : Location) :
    checkDocument scope document place = (check scope document).mapError (·.relocate place) := by
  cases h : check scope document with
  | ok => exact checkDocument_eq_ok_iff.2 (checkDocument_eq_ok_iff.1 h)
  | error e =>
    obtain ⟨fault, first, rfl⟩ := checkDocument_eq_error_iff.1 h
    exact checkDocument_eq_error_iff.2 ⟨fault, first, fault.relocate_defect place⟩

end Contract

end ServiceContract
