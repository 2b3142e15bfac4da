import ServiceContract.Failure
import ServiceContract.Json.Reader
import ServiceContract.World
import ServiceContract.Yaml.Reader

/-!
# Services documents

A document is a file or standard input, which is named by a dash. A file whose extension says so is
YAML; everything else is JSON.
-/

namespace ServiceContract.Document

/-- Whether the document at a path is YAML. -/
def isYaml (path : Path) : Bool :=
  match path.extension? with
  | some "yaml" => true
  | some "yml" => true
  | _ => false

/-- The document in a text. -/
def decode (path : Path) (text : String) : Except Failure Json :=
  if isYaml path then
    (Yaml.read? text).elim (.error (.invalidFormat path "YAML" "not one YAML document")) .ok
  else (Json.read text).mapError fun e => .invalidFormat path "JSON" e.message

/-- The text of the document at a path. -/
def text (world : World) (path : Path) : Except Failure String :=
  let notText : Failure := .io "stream did not contain valid UTF-8"
  if path.same .standardInput then world.standardInput.elim (.error notText) .ok
  else
    match world.tree.find? path with
    | none => .error (.fileNotFound path)
    | some .directory => .error (.io "Is a directory (os error 21)")
    | some .binary => .error notText
    | some (.text content) => .ok content

/-- The document at a path. -/
def load (world : World) (path : Path) : Except Failure Json := do
  decode path (← text world path)

end ServiceContract.Document
