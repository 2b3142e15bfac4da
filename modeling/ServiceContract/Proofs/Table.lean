import Mathlib.Algebra.GroupWithZero.Nat
import Mathlib.Data.List.Forall2
import ServiceContract.Console
import ServiceContract.Proofs.Text.Extent

/-!
# How a table is laid out

The width of a column is the greatest number of bytes of its header and its cells, which is at least
their number of characters. So every cell fits, and in each line a column starts behind the widths
and the bars of the columns before it (`Table.rendered_aligned`): the statement for a line is read
off its parts, whose bars all have the same length.
-/

namespace ServiceContract

namespace Text

/-! ## Parts of a line -/

/-- Some characters stand in a line behind a number of others. -/
def StandsAt (part : List Char) (offset : Nat) (line : List Char) : Prop :=
  ∃ before after, line = before ++ part ++ after ∧ before.length = offset

variable {part bar : List Char} {parts before after : List (List Char)}

/-- A part among others, with bars between all of them. -/
theorem intercalate_append (bar part : List Char) (before after : List (List Char)) :
    bar.intercalate (before ++ part :: after) =
      before.flatMap (· ++ bar) ++ part ++ after.flatMap (bar ++ ·) := by
  induction before with
  | nil =>
    induction after generalizing part with
    | nil => simp
    | cons next after ih =>
      have later := ih next
      rw [List.nil_append] at later ⊢
      rw [List.intercalate_cons_cons, later]
      simp
  | cons first before ih =>
    obtain ⟨second, rest, split⟩ : ∃ second rest, before ++ part :: after = second :: rest := by
      cases before with
      | nil => exact ⟨_, _, rfl⟩
      | cons second before => exact ⟨_, _, rfl⟩
    rw [List.cons_append, split, List.intercalate_cons_cons, ← split, ih]
    simp

/-- Where a part starts that has others and their bars before it. -/
def partOffset (bar : List Char) (before : List (List Char)) : Nat :=
  (before.map fun part => part.length + bar.length).sum

theorem length_flatMap_bar (bar : List Char) (before : List (List Char)) :
    (before.flatMap (· ++ bar)).length = partOffset bar before := by
  rw [List.length_flatMap, partOffset]
  simp only [List.length_append]

theorem standsAt_part (split : parts = before ++ part :: after) :
    StandsAt part (partOffset bar before) (bar.intercalate parts) := by
  subst split
  exact ⟨_, _, intercalate_append bar part before after, length_flatMap_bar bar before⟩

/-- Behind a part that is not the last one stands a bar. -/
theorem standsAt_bar (split : parts = before ++ part :: after) (more : after ≠ []) :
    StandsAt bar (partOffset bar before + part.length) (bar.intercalate parts) := by
  subst split
  obtain ⟨next, after, rfl⟩ := List.exists_cons_of_ne_nil more
  refine ⟨before.flatMap (· ++ bar) ++ part, next ++ after.flatMap (bar ++ ·), ?_, ?_⟩
  · rw [intercalate_append]
    simp
  · rw [List.length_append, length_flatMap_bar]

/-- A character of what stands in a line. -/
theorem StandsAt.getElem? {offset i : Nat} {text : List Char} {c : Char}
    (stands : StandsAt part offset text) (h : part[i]? = some c) :
    text[offset + i]? = some c := by
  obtain ⟨before, after, rfl, rfl⟩ := stands
  obtain ⟨inside, -⟩ := List.getElem?_eq_some_iff.1 h
  rw [List.append_assoc, List.getElem?_append_right (by omega), Nat.add_sub_cancel_left,
    List.getElem?_append_left inside, h]

section Measured

variable {i : Nat} {width : Nat → Nat}

theorem partOffset_take (measured : ∀ j < i, (parts[j]?).map List.length = some (width j)) :
    partOffset bar (parts.take i) = ((List.range i).map fun j => width j + bar.length).sum := by
  unfold partOffset
  congr 1
  refine List.ext_getElem? fun j => ?_
  rw [List.getElem?_map, List.getElem?_map]
  by_cases inside : j < i
  · obtain ⟨part, found, length⟩ := Option.map_eq_some_iff.1 (measured j inside)
    rw [List.getElem?_take_of_lt inside, found, List.getElem?_range inside, Option.map_some,
      Option.map_some, length]
  · rw [List.getElem?_eq_none (by simp; omega), List.getElem?_eq_none (by simpa using inside)]
    rfl

/-- In a line whose parts have known lengths up to one of them, this one stands behind those before
it, and a bar stands behind it unless it is the last one. -/
theorem standsAt_of_measured (bar : List Char)
    (measured : ∀ j ≤ i, (parts[j]?).map List.length = some (width j))
    (found : parts[i]? = some part) :
    let offset := ((List.range i).map fun j => width j + bar.length).sum
    StandsAt part offset (bar.intercalate parts) ∧
      (i + 1 < parts.length → StandsAt bar (offset + width i) (bar.intercalate parts)) := by
  intro offset
  have before : partOffset bar (parts.take i) = offset :=
    partOffset_take fun j inside => measured j (Nat.le_of_lt inside)
  have length : part.length = width i := by simpa [found] using measured i (Nat.le_refl i)
  obtain ⟨inside, here⟩ := List.getElem?_eq_some_iff.1 found
  have split : parts = parts.take i ++ part :: parts.drop (i + 1) := by
    rw [← here, ← List.drop_eq_getElem_cons inside, List.take_append_drop]
  rw [← before, ← length]
  refine ⟨standsAt_part split, fun more => standsAt_bar split ?_⟩
  exact List.ne_nil_of_length_pos (by rw [List.length_drop]; omega)

end Measured

end Text

open Text (StandsAt)

namespace Table

variable {table : Table} {widths : List Nat} {cells : List String} {i : Nat}

/-! ## Columns -/

/-- The header and the cells of a column; rows that end early have none there. -/
def column (table : Table) (i : Nat) : List String :=
  (table.headers :: table.rows).filterMap (·[i]?)

/-- The greatest number of bytes in a column. -/
def width (table : Table) (i : Nat) : Nat :=
  ((table.column i).map String.utf8ByteSize).max?.getD 0

/-- Where a column starts: behind the columns before it, with three characters after each. -/
def offset (table : Table) (i : Nat) : Nat := ((List.range i).map fun j => table.width j + 3).sum

theorem getElem?_widen (widths : List Nat) (cells : List String) (i : Nat) :
    (widen widths cells)[i]? =
      widths[i]?.map fun width => (cells[i]?).elim width (max width ·.utf8ByteSize) := by
  fun_induction widen widths cells generalizing i with
  | case1 width widths cell cells ih =>
    cases i with
    | zero => rfl
    | succ i => simpa using ih i
  | case2 widths cells early =>
    cases widths with
    | nil => rfl
    | cons width widths =>
      cases cells with
      | nil => simp
      | cons cell cells => exact absurd rfl (early _ _ _ _ rfl)

/-- Row by row a column is widened by the cells that it has. -/
theorem getElem?_foldl_widen (rows : List (List String)) (widths : List Nat) (i : Nat) :
    (rows.foldl widen widths)[i]? = widths[i]?.map fun width =>
      ((rows.filterMap (·[i]?)).map String.utf8ByteSize).foldl max width := by
  induction rows generalizing widths with
  | nil => simp
  | cons row rows ih =>
    rw [List.foldl_cons, ih, getElem?_widen, Option.map_map, List.filterMap_cons]
    congr 1
    funext width
    cases row[i]? <;> rfl

theorem width_eq (inside : i < table.headers.length) :
    table.width i = ((table.rows.filterMap (·[i]?)).map String.utf8ByteSize).foldl max
      table.headers[i].utf8ByteSize := by
  have header : table.headers[i]? = some table.headers[i] := List.getElem?_eq_getElem inside
  rw [width, column, List.filterMap_cons, header, List.map_cons, List.max?_cons', Option.getD_some]

/-- Every column with a header is as wide as its widest text. -/
theorem widths_eq (table : Table) :
    table.widths = (List.range table.headers.length).map table.width := by
  refine List.ext_getElem? fun i => ?_
  rw [widths, getElem?_foldl_widen, List.getElem?_map, List.getElem?_map]
  by_cases inside : i < table.headers.length
  · rw [List.getElem?_range inside, List.getElem?_eq_getElem inside, Option.map_some,
      Option.map_some, Option.map_some, width_eq inside]
  · rw [List.getElem?_eq_none (by omega), List.getElem?_eq_none (by simpa using inside)]
    rfl

theorem utf8ByteSize_le_width (row : cells ∈ table.headers :: table.rows) {cell : String}
    (h : cells[i]? = some cell) : cell.utf8ByteSize ≤ table.width i := by
  refine List.le_max?_getD_of_mem (List.mem_map_of_mem ?_)
  exact List.mem_filterMap.2 ⟨cells, row, h⟩

/-! ## Cells -/

/-- A cell as it stands in its line: filled up to the width of its column, if that has a header. -/
def shown (table : Table) (i : Nat) (cell : String) : String :=
  if i < table.headers.length then pad (table.width i) cell else cell

theorem toList_pad (width : Nat) (cell : String) :
    (pad width cell).toList = cell.toList ++ List.replicate (width - cell.length) ' ' := by
  rw [pad, String.toList_append, String.toList_ofList]

/-- A cell has no more characters than bytes, so it fits. -/
theorem length_pad {width : Nat} {cell : String} (fits : cell.utf8ByteSize ≤ width) :
    (pad width cell).toList.length = width := by
  have characters := Text.length_le_utf8ByteSize cell
  rw [toList_pad, List.length_append, List.length_replicate, String.length_toList]
  omega

theorem getElem?_padCells (widths : List Nat) (cells : List String) (i : Nat) :
    (padCells widths cells)[i]? =
      cells[i]?.map fun cell => (widths[i]?).elim cell (pad · cell) := by
  fun_induction padCells widths cells generalizing i with
  | case1 width widths cell cells ih =>
    cases i with
    | zero => rfl
    | succ i => simpa using ih i
  | case2 widths cells early =>
    cases widths with
    | nil => simp
    | cons width widths =>
      cases cells with
      | nil => rfl
      | cons cell cells => exact absurd rfl (early _ _ _ _ rfl)

theorem padCells_widths (table : Table) (cells : List String) :
    padCells table.widths cells = cells.mapIdx table.shown := by
  refine List.ext_getElem? fun i => ?_
  rw [getElem?_padCells, List.getElem?_mapIdx, widths_eq, List.getElem?_map]
  congr 1
  funext cell
  unfold shown
  by_cases inside : i < table.headers.length
  · rw [List.getElem?_range inside, if_pos inside]
    rfl
  · rw [List.getElem?_eq_none (by simpa using inside), if_neg inside]
    rfl

/-! ## Lines -/

/-- How the line of a table with some cells is laid out: each one stands at its column, at the width
of the column, with a bar behind it unless it is the last one; whatever has no column follows as it
is. -/
structure LaidOut (table : Table) (cells : List String) (text : String) : Prop where
  whole : text = " │ ".intercalate (cells.mapIdx table.shown)
  cell : ∀ i cell, i < table.headers.length → cells[i]? = some cell →
    cell.length ≤ table.width i ∧
      StandsAt (cell.toList ++ List.replicate (table.width i - cell.length) ' ') (table.offset i)
        text.toList
  bar : ∀ i, i < table.headers.length → i + 1 < cells.length →
    text.toList[table.offset i + table.width i + 1]? = some '│'

/-- How the rule of a table is laid out: it crosses the bars between the headers. -/
structure Ruled (table : Table) (text : String) : Prop where
  column : ∀ i < table.headers.length,
    StandsAt (List.replicate (table.width i) '─') (table.offset i) text.toList
  crossing : ∀ i, i + 1 < table.headers.length →
    text.toList[table.offset i + table.width i + 1]? = some '┼'

theorem laidOut_line (row : cells ∈ table.headers :: table.rows) :
    table.LaidOut cells (line table.widths cells) := by
  have text : line table.widths cells = " │ ".intercalate (cells.mapIdx table.shown) := by
    rw [line, padCells_widths]
  have found {i : Nat} {cell : String} (inside : i < table.headers.length)
      (h : cells[i]? = some cell) :
      ((cells.mapIdx table.shown).map String.toList)[i]? =
        some (pad (table.width i) cell).toList := by
    rw [List.getElem?_map, List.getElem?_mapIdx, h, Option.map_some, Option.map_some, shown,
      if_pos inside]
  have measured {i : Nat} (inside : i < table.headers.length) (here : i < cells.length) :
      ∀ j ≤ i, (((cells.mapIdx table.shown).map String.toList)[j]?).map List.length =
        some (table.width j) := by
    intro j hj
    have h : cells[j]? = some cells[j] := List.getElem?_eq_getElem (by omega)
    rw [found (by omega) h, Option.map_some, length_pad (utf8ByteSize_le_width row h)]
  refine ⟨text, fun i cell inside h => ⟨?_, ?_⟩, fun i inside more => ?_⟩
  · exact (Text.length_le_utf8ByteSize cell).trans (utf8ByteSize_le_width row h)
  · obtain ⟨here, -⟩ := List.getElem?_eq_some_iff.1 h
    rw [← toList_pad, text, String.toList_intercalate]
    exact (Text.standsAt_of_measured _ (measured inside here) (found inside h)).1
  · have h : cells[i]? = some cells[i] := List.getElem?_eq_getElem (by omega)
    have bar := (Text.standsAt_of_measured " │ ".toList (measured inside (by omega))
      (found inside h)).2 (by simpa using more)
    rw [text, String.toList_intercalate]
    exact bar.getElem? rfl

theorem ruled_ruleLine (table : Table) : table.Ruled table.ruleLine := by
  have found {i : Nat} (inside : i < table.headers.length) :
      ((table.widths.map fun width => String.ofList (List.replicate width '─')).map
        String.toList)[i]? = some (List.replicate (table.width i) '─') := by
    rw [widths_eq, List.map_map, List.map_map, List.getElem?_map, List.getElem?_range inside,
      Option.map_some]
    simp
  have measured {i : Nat} (inside : i < table.headers.length) :
      ∀ j ≤ i, (((table.widths.map fun width => String.ofList (List.replicate width '─')).map
        String.toList)[j]?).map List.length = some (table.width j) := by
    intro j hj
    rw [found (by omega), Option.map_some, List.length_replicate]
  refine ⟨fun i inside => ?_, fun i more => ?_⟩
  · rw [ruleLine, String.toList_intercalate]
    exact (Text.standsAt_of_measured _ (measured inside) (found inside)).1
  · have inside : i < table.headers.length := by omega
    have bar := (Text.standsAt_of_measured "─┼─".toList (measured inside)
      (found inside)).2 (by simpa [widths_eq] using more)
    rw [ruleLine, String.toList_intercalate]
    exact bar.getElem? rfl

/-- A table for people is written as a header line, a rule and a line for each row. In all of them a
column starts at the same place and has the same width; of the lines of the rows only blanks at
their ends are left out. -/
theorem rendered_aligned (table : Table) (quiet : Bool) :
    ∃ header rule rows, Console.render ⟨.human, false, quiet⟩ (.table table) =
        String.join ((header :: rule :: rows).map (· ++ "\n")) ∧
      (header :: rule :: rows).length = 2 + table.rows.length ∧
      table.LaidOut table.headers header ∧ table.Ruled rule ∧
      List.Forall₂ (fun cells written => ∃ text, table.LaidOut cells text ∧
        Text.IsTrimmed written text) table.rows rows := by
  refine ⟨table.headerLine, table.ruleLine, table.rowLines, ?_, ?_,
    laidOut_line List.mem_cons_self, ruled_ruleLine table, ?_⟩
  · show table.headerLine ++ "\n" ++ table.ruleLine ++ "\n" ++
      String.join (table.rowLines.map (· ++ "\n")) = _
    simp only [List.map_cons, String.join_cons, String.append_assoc]
  · rw [List.length_cons, List.length_cons, rowLines, List.length_map]
    omega
  · rw [rowLines, List.forall₂_map_right_iff, List.forall₂_same]
    intro cells row
    exact ⟨_, laidOut_line (List.mem_cons_of_mem _ row), Text.isTrimmed_trimEnd _⟩

/-- The widths are those of the bytes, so the first column has room for a fifth character. -/
example : Console.render ⟨.human, false, false⟩
    (.table ⟨["Name", "Path"], [["café", "$"], ["", "$.sms"]]⟩) =
      "Name  │ Path \n──────┼──────\ncafé  │ $\n      │ $.sms\n" := by decide +kernel

end Table

end ServiceContract
