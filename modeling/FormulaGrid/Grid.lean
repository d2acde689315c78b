/-
Grids: rows of text with labels.

Row 0 holds the column labels and column 0 the row labels; the other cells hold data.  Beside the
rows a grid keeps two indexes from label to column and to row, through which cells are named.

Main definitions:

* `Grid.get?`, `Grid.set` — the text of a cell;
* `Grid.dataPositions` — the data cells, row by row;
* `Grid.nameOf?` — the name of a data cell: its column label, then its row label;
* `Grid.find`, `Grid.lookUp` — the cell that a name stands for, and with its text;
* `Grid.text` — the lines of the grid.

A name has no mark between its two labels.  `Grid.find` tries every place to cut it from the
left, and the first cut into a known column label and a known row label counts.
-/

import FormulaGrid.Fault
import FormulaGrid.Position
import FormulaGrid.Text.Lines

set_option relaxedAutoImplicit false
set_option autoImplicit false

namespace FormulaGrid

/-- An index from labels to row or column numbers. -/
abbrev Labels := Std.ExtTreeMap String Nat

/-- Rows of text, and the columns and rows that labels stand for. -/
structure Grid where
  /-- The rows, the header row first. -/
  rows : Array (Array String) := #[]
  /-- The column of each column label. -/
  columnOf : Labels := ∅
  /-- The row of each row label. -/
  rowOf : Labels := ∅
deriving BEq

namespace Grid

/-- The grid without rows and labels. -/
def empty : Grid := {}

/-! ### Cells -/

/-- The text at a position, if the grid has such a cell. -/
def get? (g : Grid) (p : Position) : Option String := (g.rows[p.row]?).bind (·[p.col]?)

/-- The grid with another text at a position; a position outside the grid changes nothing. -/
def set (g : Grid) (p : Position) (text : String) : Grid :=
  { g with rows := g.rows.modify p.row fun row => row.setIfInBounds p.col text }

/-- The number of cells in a row. -/
def width (g : Grid) (row : Nat) : Nat := ((g.rows[row]?).map Array.size).getD 0

/-- The positions of the data cells, row by row. -/
def dataPositions (g : Grid) : List Position :=
  (List.range' 1 (g.rows.size - 1)).flatMap fun row =>
    (List.range' 1 (g.width row - 1)).map fun col => ⟨row, col⟩

/-- The grid with one more row at its end. -/
def addRow (g : Grid) (row : List String) : Grid := { g with rows := g.rows.push row.toArray }

@[simp] theorem columnOf_set (g : Grid) (p : Position) (t : String) :
    (g.set p t).columnOf = g.columnOf := rfl

@[simp] theorem rowOf_set (g : Grid) (p : Position) (t : String) :
    (g.set p t).rowOf = g.rowOf := rfl

/-- Writing a cell changes that cell alone, and only if the grid has it. -/
theorem get?_set (g : Grid) (p q : Position) (t : String) :
    (g.set p t).get? q = if p = q then (g.get? q).map fun _ => t else g.get? q := by
  obtain ⟨r, c⟩ := p
  obtain ⟨r', c'⟩ := q
  simp only [get?, set, Array.getElem?_modify, Position.mk.injEq]
  by_cases hr : r = r'
  · subst hr
    cases hrow : g.rows[r]? with
    | none => simp
    | some row =>
        by_cases hc : c = c'
        · subst hc
          simp only [Option.map_some, Option.bind_some, true_and, if_true]
          rw [Array.getElem?_setIfInBounds_self]
          by_cases hlt : c < row.size
          · simp [hlt]
          · simp [hlt]
        · simp [hc]
  · simp [hr]

/-- Writing a cell keeps the number of rows. -/
@[simp] theorem size_rows_set (g : Grid) (p : Position) (t : String) :
    (g.set p t).rows.size = g.rows.size := by
  simp [set]

/-- Writing a cell keeps the length of every row. -/
@[simp] theorem width_set (g : Grid) (p : Position) (t : String) (row : Nat) :
    (g.set p t).width row = g.width row := by
  simp only [width, set, Array.getElem?_modify]
  split
  · cases g.rows[row]? <;> simp
  · rfl

@[simp] theorem dataPositions_set (g : Grid) (p : Position) (t : String) :
    (g.set p t).dataPositions = g.dataPositions := by
  simp [dataPositions]

/-! ### Names of cells -/

/-- The name of a data cell: the label above it, then the label to its left. -/
def nameOf? (g : Grid) (p : Position) : Option String :=
  if p.isLabel then none
  else (g.get? ⟨0, p.col⟩).bind fun column => (g.get? ⟨p.row, 0⟩).map fun row => column ++ row

/-- What a cell is called in a message: its name, or its position if it has none. -/
def nameOf (g : Grid) (p : Position) : String := (g.nameOf? p).getD p.text

/-- The number that an index gives to a label.  Number 0 belongs to the labels themselves, and no
name reaches it. -/
def dataIndex? (labels : Labels) (label : String) : Option Nat :=
  (labels[label]?).filter (· ≠ 0)

/-- The cell of a name that is cut after `count` characters. -/
def cutAt? (g : Grid) (name : List Char) (count : Nat) : Option Position :=
  (dataIndex? g.columnOf (String.ofList (name.take count))).bind fun col =>
    (dataIndex? g.rowOf (String.ofList (name.drop count))).map fun row => ⟨row, col⟩

/-- The cell that a name stands for: the first cut from the left at which both parts are known
labels.  Neither part is empty. -/
def find (g : Grid) (name : String) : Except Fault Position :=
  match (List.range' 1 (name.toList.length - 1)).findSome? (g.cutAt? name.toList) with
  | some p => .ok p
  | none => .error (.unknownCell name)

/-- The cell that a name stands for, with its text. -/
def lookUp (g : Grid) (name : String) : Except Fault (Position × String) :=
  match g.find name with
  | .error e => .error e
  | .ok p =>
    match g.get? p with
    | some text => .ok (p, text)
    | none => .error (.unknownCell name)

@[simp] theorem find_set (g : Grid) (p : Position) (t name : String) :
    (g.set p t).find name = g.find name := rfl

/-! ### Text of a grid -/

/-- The lines of the grid, each ended by `\n`. -/
def text (g : Grid) : String :=
  String.join (g.rows.toList.map fun row => Text.joinFields row.toList ++ "\n")

end Grid

end FormulaGrid
