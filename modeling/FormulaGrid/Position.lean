/-
Positions in a grid.

Rows and columns are counted from zero, and row 0 and column 0 hold the labels.  Positions are
ordered row by row, and within a row by column.
-/

import Std.Data.ExtTreeMap
import Std.Data.ExtTreeSet

set_option relaxedAutoImplicit false
set_option autoImplicit false

namespace FormulaGrid

/-- A row and a column, both counted from zero. -/
@[ext] structure Position where
  row : Nat
  col : Nat
deriving DecidableEq, Repr

namespace Position

/-- Row by row, and within a row by column. -/
instance : Ord Position := ⟨compareLex (compareOn row) (compareOn col)⟩

instance : Std.TransOrd Position :=
  inferInstanceAs (Std.TransCmp (compareLex (compareOn row) (compareOn col)))

instance : Std.LawfulEqOrd Position where
  eq_of_compare {a b} h := by
    have h' : (compare a.row b.row).then (compare a.col b.col) = .eq := h
    rw [Ordering.then_eq_eq] at h'
    exact Position.ext (Std.LawfulEqOrd.eq_of_compare h'.1) (Std.LawfulEqOrd.eq_of_compare h'.2)

/-- The position belongs to the row or to the column of labels. -/
def isLabel (p : Position) : Bool := p.row = 0 || p.col = 0

/-- The text that stands for a cell without a name. -/
def text (p : Position) : String := s!"[{p.row}][{p.col}]"

end Position

end FormulaGrid
