import ServiceContract.Console
import ServiceContract.ErrorCode

/-!
# Listing the error codes

People get a table, programs a list of objects.
-/

namespace ServiceContract

/-- The table of all codes. -/
def ErrorCode.table : Table :=
  ⟨["CODE", "DESCRIPTION"], ErrorCode.all.map fun code => [code.name, code.description]⟩

/-- All codes as data. -/
def ErrorCode.listing : Json :=
  .array (ErrorCode.all.map fun code =>
    .object [("code", .string code.name), ("description", .string code.description)])

/-- What is written about the codes. -/
def ErrorCode.steps (format : OutputFormat) : List Console.Step :=
  if format = .human then [.section "Validation error codes", .table ErrorCode.table]
  else [.data ErrorCode.listing]

end ServiceContract
