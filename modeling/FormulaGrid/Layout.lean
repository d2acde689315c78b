/-
Layouts: how lines of text become a grid.

The first line is the header.  Every field of it but the first is the label of a column, and every
further line is a row of data whose first field is the label of the row.  All lines have as many
fields as the header.

Main definitions:

* `LayoutError` — what can be wrong with the lines;
* `Grid.ofLines` — the grid of some lines, or the first thing wrong with them.

The header is checked before the rows, column by column; the rows are checked one after the other.
-/

import FormulaGrid.Grid
import FormulaGrid.Value

set_option relaxedAutoImplicit false
set_option autoImplicit false

namespace FormulaGrid

/-- Why lines make no grid. -/
inductive LayoutError
  | noLines
  | unlabelledColumn (col : Nat)
  /-- A column label holds an ASCII digit, with which a row label could start. -/
  | digitInColumnLabel (label : String) (col : Nat)
  | repeatedColumnLabel (label : String) (first col : Nat)
  | raggedRow (row found expected : Nat)
  | emptyCell (row col : Nat)
  | rowLabelNotInteger (label : String)
deriving DecidableEq, Repr

def LayoutError.message : LayoutError → String
  | noLines => "input is empty"
  | unlabelledColumn col => s!"missing column name in col {col}"
  | digitInColumnLabel label col => s!"column name must not contain numbers: {label} in col {col}"
  | repeatedColumnLabel label first col =>
    s!"duplicate column name: {label} in cols {first} and {col}"
  | raggedRow row found expected =>
    s!"mismatched row lengths: row {row} has length {found} instead of {expected}"
  | emptyCell row col => s!"empty cell at [{row}][{col}]"
  | rowLabelNotInteger label => s!"row number must be numerical: {label}"

namespace Grid

/-- Indexes the labels of the columns from `col` on.  A label is not empty, holds no ASCII digit,
and labels no earlier column. -/
def indexColumns : (labels : List String) → (col : Nat) → Labels → Except LayoutError Labels
  | [], _, index => .ok index
  | label :: labels, col, index =>
    if label.isEmpty then .error (.unlabelledColumn col)
    else if label.toList.any Char.isDigit then .error (.digitInColumnLabel label col)
    else match index[label]? with
      | some first => .error (.repeatedColumnLabel label first col)
      | none => indexColumns labels (col + 1) (index.insert label col)

/-- The label of a data row: its first field.  The row has as many fields as the header, its label
is an integer, and no field is empty. -/
def rowLabel (width row : Nat) (fields : List String) : Except LayoutError String :=
  if fields.length ≠ width then .error (.raggedRow row fields.length width)
  else match fields with
    | [] => .error (.emptyCell row 0)
    | label :: _ =>
      if label.isEmpty then .error (.emptyCell row 0)
      else if (Value.read? label).isNone then .error (.rowLabelNotInteger label)
      else match fields.findIdx? String.isEmpty with
        | some col => .error (.emptyCell row col)
        | none => .ok label

/-- Appends the data rows from `row` on.  Of rows with one label the last one has it. -/
def addLines (width : Nat) : (lines : List String) → (row : Nat) → Grid → Except LayoutError Grid
  | [], _, g => .ok g
  | line :: lines, row, g =>
    let fields := Text.fields line
    match rowLabel width row fields with
    | .error e => .error e
    | .ok label =>
      let g := g.addRow fields
      addLines width lines (row + 1) { g with rowOf := g.rowOf.insert label row }

/-- The grid of some lines, or the first thing that is wrong with them. -/
def ofLines : List String → Except LayoutError Grid
  | [] => .error .noLines
  | header :: lines =>
    let labels := Text.fields header
    match indexColumns labels.tail 1 ∅ with
    | .error e => .error e
    | .ok index => addLines labels.length lines 1 { (empty.addRow labels) with columnOf := index }

end Grid

end FormulaGrid
