import ServiceContract.Text.Blank

/-!
# Tables

Every column is as wide as its widest cell, measured in bytes, and a cell is filled up with spaces
to that number of characters. Columns are separated by bars. A row may be shorter than the header,
or longer; what lies beyond the header is not filled up. Blanks at the end of a row are dropped.
-/

namespace ServiceContract

/-- Headers and rows of cells. -/
structure Table where
  headers : List String
  rows : List (List String)
  deriving DecidableEq, Repr

namespace Table

/-- The greater width of a column and a cell; a row that ends early leaves the other columns. -/
def widen : List Nat → List String → List Nat
  | width :: widths, cell :: cells => max width cell.utf8ByteSize :: widen widths cells
  | widths, _ => widths

/-- The widths of the columns. -/
def widths (table : Table) : List Nat :=
  table.rows.foldl widen (table.headers.map String.utf8ByteSize)

/-- A text with spaces after it, up to a number of characters. -/
def pad (width : Nat) (cell : String) : String :=
  cell ++ String.ofList (List.replicate (width - cell.length) ' ')

/-- Cells at their widths. -/
def padCells : List Nat → List String → List String
  | width :: widths, cell :: cells => pad width cell :: padCells widths cells
  | _, cells => cells

def line (widths : List Nat) (cells : List String) : String :=
  String.intercalate " │ " (padCells widths cells)

def headerLine (table : Table) : String := line table.widths table.headers

/-- The rule between header and rows. -/
def ruleLine (table : Table) : String :=
  String.intercalate "─┼─"
    (table.widths.map fun width => String.ofList (List.replicate width '─'))

/-- The lines of the rows. -/
def rowLines (table : Table) : List String :=
  table.rows.map fun row => Text.trimEnd (line table.widths row)

end Table

end ServiceContract
