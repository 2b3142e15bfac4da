import ServiceContract.OutputFormat
import ServiceContract.Table
import ServiceContract.Text.Style

/-!
# The console

A run writes a sequence of steps. Messages, headings and tables are meant for people and appear in
the human format only; of these, warnings and tables appear even when the run is to be quiet. Data
and reports appear in every format. A progress bar is drawn on the terminal, beside what is written.
-/

namespace ServiceContract

/-- How output is written. -/
structure Console where
  format : OutputFormat
  color : Bool
  quiet : Bool
  deriving DecidableEq, Repr

namespace Console

/-- One thing to write. -/
inductive Step where
  | raw (text : String)
  | line (text : String)
  | info (text : String)
  | success (text : String)
  | warning (text : String)
  | section (title : String)
  | data (value : Json)
  | reports (list : List Report)
  | table (table : Table)
  /-- A bar on the way through a number of things. -/
  | progress (total : Nat) (text : String)

/-- Whether the format is the one for people. -/
def forPeople (console : Console) : Bool := console.format == .human

/-- Whether messages are shown. -/
def talks (console : Console) : Bool := console.forPeople && !console.quiet

/-- A text in a style, or another text where there are no colours. -/
def styled (console : Console) (style : Text.Style) (text plain : String) : String :=
  if console.color then style.apply text else plain

/-- A table as lines. -/
def renderTable (console : Console) (table : Table) : String :=
  console.styled .bold table.headerLine table.headerLine ++ "\n" ++ table.ruleLine ++ "\n"
    ++ String.join (table.rowLines.map (· ++ "\n"))

/-- The text of a step. -/
def render (console : Console) : Step → String
  | .raw text => text
  | .line text => text ++ "\n"
  | .info text =>
    if console.talks then
      (if console.color then Text.Style.blue.apply "ℹ" else "INFO:") ++ " " ++ text ++ "\n"
    else ""
  | .success text => if console.talks then console.styled .green text text ++ "\n" else ""
  | .warning text =>
    if console.forPeople then console.styled .yellow text ("WARNING: " ++ text) ++ "\n" else ""
  | .section title =>
    if console.talks then
      "\n" ++ console.styled .brightBlue ("═══ " ++ title ++ " ═══") ("=== " ++ title ++ " ===")
        ++ "\n"
    else ""
  | .data value =>
    console.format.render value ++ if console.forPeople then "\n" else ""
  | .reports list => console.format.renderReports list ++ "\n"
  | .table table => if console.forPeople then console.renderTable table else ""
  | .progress .. => ""

/-- The text of a sequence of steps. -/
def renderAll (console : Console) (steps : List Step) : String :=
  String.join (steps.map console.render)

end Console

end ServiceContract
