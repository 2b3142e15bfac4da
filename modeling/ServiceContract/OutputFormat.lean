import ServiceContract.Report.Human
import ServiceContract.Yaml.Printer

/-!
# Output formats

Data is written as JSON on one line, as indented JSON, or as YAML. The format for people writes
reports and defects as lines of text, and other data as indented JSON.
-/

namespace ServiceContract

/-- How results are written. -/
inductive OutputFormat where
  | human
  | json
  | jsonPretty
  | yaml
  deriving DecidableEq, Repr

namespace OutputFormat

def name : OutputFormat → String
  | human => "human"
  | json => "json"
  | jsonPretty => "json-pretty"
  | yaml => "yaml"

def all : List OutputFormat := [human, json, yaml, jsonPretty]

/-- The format with a name. -/
def ofName? (name : String) : Option OutputFormat := all.find? fun format => format.name == name

/-- The format that a settings file names: in any case, and with underscores for hyphens. -/
def ofSetting? (text : String) : Option OutputFormat :=
  ofName? (String.ofList (text.toList.map fun c => if c = '_' then '-' else c.toLower))

/-- Writes a tree. -/
def render : OutputFormat → Json → String
  | json, value => value.compact
  | yaml, value => Yaml.print value
  | human, value | jsonPretty, value => value.pretty

/-- Writes the reports of a run. -/
def renderReports : OutputFormat → List Report → String
  | human, reports => Report.describeAll reports
  | format, reports => format.render ((Form.list Report.form).toJson reports)

/-- Writes one defect. -/
def renderDefect : OutputFormat → Defect → String
  | human, defect => defect.describe
  | format, defect => format.render (Defect.form.toJson defect)

end OutputFormat

end ServiceContract
