import ServiceContract.Contract

/-!
# Summaries of services

A document that passes its check is listed service by service: the groups in scope in document
order, their entries in array order, each with the names of its properties.
-/

namespace ServiceContract

/-- One service of a document that passed. -/
structure ServiceSummary where
  group : String
  index : Nat
  id : String
  methodTitle : String
  propertyNames : List String
  deriving DecidableEq, Repr

namespace ServiceSummary

def form : Form ServiceSummary :=
  .record "ServiceSummary" false
    (.cons "group" .text none (.cons "index" .count none (.cons "id" .text none
      (.cons "method_title" .text none (.cons "property_names" (.list .text) none .nil)))))
    (fun (group, index, id, methodTitle, propertyNames, _) =>
      ⟨group, index, id, methodTitle, propertyNames⟩)
    (fun s => (s.group, s.index, s.id, s.methodTitle, s.propertyNames, ()))

/-- The text under a key of an entry, or the empty text. -/
def textField (entry : Json) (key : String) : String :=
  ((entry.get? key).bind Json.text?).getD ""

/-- The keys of the properties of an entry. -/
def propertyKeys (entry : Json) : List String :=
  (((entry.get? "service_settings").bind (·.get? "properties")).bind Json.members?).elim []
    Members.keys

/-- The summary of one entry. -/
def ofEntry (group : String) (index : Nat) (entry : Json) : ServiceSummary :=
  ⟨group, index, textField entry "id", textField entry "method_title", propertyKeys entry⟩

/-- The summaries of a group's entries. -/
def ofGroup (group : String) (value : Json) : List ServiceSummary :=
  (value.items?.getD []).mapIdx fun index entry => ofEntry group index entry

/-- The summaries of the groups in scope. -/
def ofDocument (scope : Scope) (document : Json) : List ServiceSummary :=
  ((document.members?.getD []).filter fun member => scope.includes member.1).flatMap
    fun member => ofGroup member.1 member.2

end ServiceSummary

namespace Contract

/-- Checks a document and lists its services. -/
def summarize (scope : Scope) (document : Json) : Except Defect (List ServiceSummary) := do
  check scope document
  return ServiceSummary.ofDocument scope document

end Contract

end ServiceContract
