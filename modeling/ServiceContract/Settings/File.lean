import ServiceContract.FileTree
import ServiceContract.Failure
import ServiceContract.Form.Tree
import ServiceContract.Json.Typed
import ServiceContract.Settings
import ServiceContract.Toml.Printer
import ServiceContract.Toml.Reader
import ServiceContract.Yaml.Reader

/-!
# Settings files

A settings file is TOML, YAML or JSON, as its extension says; without one of their extensions it
is JSON. A run reads the file it is given, or else the first one that exists among the default
places: in the working directory, then in the user's settings directory, TOML before YAML before
JSON.
-/

namespace ServiceContract

/-- The notations of settings files. -/
inductive FileFormat where
  | toml
  | json
  | yaml
  deriving DecidableEq, Repr

namespace FileFormat

def name : FileFormat → String
  | toml => "toml"
  | json => "json"
  | yaml => "yaml"

def all : List FileFormat := [toml, json, yaml]

def ofName? (name : String) : Option FileFormat := all.find? fun format => format.name == name

/-- The notation of a file. -/
def ofPath (path : Path) : FileFormat :=
  match path.extension? with
  | some "toml" => toml
  | some "yaml" => yaml
  | some "yml" => yaml
  | _ => json

end FileFormat

namespace Settings

/-- The settings in a notation. -/
def render (s : Settings) (format : FileFormat) : String :=
  let tree := form.toJson s
  match format with
  | .toml => Toml.print (tree.members?.getD [])
  | .json => tree.pretty
  | .yaml => Yaml.print tree

/-- The value under a dotted key, as text. -/
def value (s : Settings) (key : String) : Except Failure String :=
  match s.get? key with
  | some text => .ok text
  | none => .error (.settings (.unknownKey key))

/-- Reads the settings in a text. The failure of a JSON text says why. -/
def parse (path : Path) (format : FileFormat) (text : String) : Except Failure Settings :=
  let failure (detail : Option String) : Failure := .settings (.unparsable path detail)
  match format with
  | .toml => ((Toml.read? text).bind form.ofJson?).elim (.error (failure none)) .ok
  | .yaml => (Yaml.readAs? form text).elim (.error (failure none)) .ok
  | .json => (Json.readAs form text).mapError fun e => failure (some e.message)

/-- Reads the settings in a file. -/
def load (tree : FileTree) (path : Path) : Except Failure Settings :=
  match tree.find? path with
  | none => .error (.fileNotFound path)
  | some .directory => .error (.io "Is a directory (os error 21)")
  | some .binary => .error (.io "stream did not contain valid UTF-8")
  | some (.text content) => parse path (.ofPath path) content

/-- Writes the settings to a file, in the notation of its extension. -/
def save (s : Settings) (tree : FileTree) (path : Path) : FileTree × Except Failure Unit :=
  match tree.save path (s.render (.ofPath path)) with
  | (tree, true) => (tree, .ok ())
  | (tree, false) => (tree, .error (.io "Cannot write the file"))

/-- Where settings are looked for, given the user's settings directory. -/
def defaultPaths (directory : Option Path) : List Path :=
  [⟨".wc-connect.toml"⟩, ⟨".wc-connect.yaml"⟩, ⟨".wc-connect.json"⟩] ++
    directory.toList.flatMap fun d =>
      [⟨d.text ++ "/wc-connect/config.toml"⟩, ⟨d.text ++ "/wc-connect/config.yaml"⟩,
        ⟨d.text ++ "/wc-connect/config.json"⟩]

/-- The first default place where something stands. -/
def findFile? (tree : FileTree) (directory : Option Path) : Option Path :=
  (defaultPaths directory).find? tree.has

/-- The file that decides: the one that is named, or the first default one. -/
def source? (tree : FileTree) (directory named : Option Path) : Option Path :=
  named.or (findFile? tree directory)

/-- The settings of a run, without checking them. -/
def loadFrom (tree : FileTree) (directory named : Option Path) : Except Failure Settings :=
  match source? tree directory named with
  | some path => load tree path
  | none => .ok default

/-- The settings of a run. -/
def effective (tree : FileTree) (directory named : Option Path) : Except Failure Settings := do
  let s ← loadFrom tree directory named
  s.validate.mapError .settings
  return s

end Settings

end ServiceContract
