/-
Worksheets: a grid under evaluation.

A pass over a worksheet goes through the data cells row by row and puts the value of each formula
in its place.  It stops at the first cell that has no value, and what it has written by then stays.

Main definitions:

* `Worksheet` — a grid, its settings, and the values computed so far;
* `Worksheet.evaluateCell` — what the pass does at one cell;
* `Worksheet.evaluateAll` — the pass.
-/

import FormulaGrid.Calculator
import FormulaGrid.Layout

set_option relaxedAutoImplicit false
set_option autoImplicit false

namespace FormulaGrid

/-- A grid with the settings for its evaluation and the values computed so far. -/
structure Worksheet where
  grid : Grid := .empty
  settings : Settings := {}
  memo : Memo := ∅

/-- How many cells of each kind a pass has met. -/
structure Tally where
  integers : Nat := 0
  formulas : Nat := 0
deriving DecidableEq, Repr

/-- Why a pass stops. -/
inductive PassError
  | notInteger (text : String) (p : Position)
  | inCell (name : String) (fault : Fault)
deriving DecidableEq, Repr

def PassError.message : PassError → String
  | notInteger text p => s!"invalid cell value: {text} at {p.text}"
  | inCell name fault => s!"{name}: {fault.message}"

namespace Worksheet

/-- A worksheet of which nothing is computed yet. -/
def new (grid : Grid) (settings : Settings) : Worksheet := ⟨grid, settings, ∅⟩

def ofLines (lines : List String) (settings : Settings) : Except LayoutError Worksheet :=
  (Grid.ofLines lines).map (new · settings)

theorem ofLines_eq_ok_iff {lines : List String} {settings : Settings} {w : Worksheet} :
    ofLines lines settings = .ok w ↔ ∃ g, Grid.ofLines lines = .ok g ∧ new g settings = w := by
  unfold ofLines
  cases Grid.ofLines lines with
  | error e => simp [Except.map]
  | ok g => simp [Except.map]

/-- Checks an integer cell, or puts the value of a formula cell in its place; and counts the cell
in the tally. -/
def evaluateCell (w : Worksheet) (p : Position) (t : Tally) : Except PassError Tally × Worksheet :=
  match w.grid.get? p with
  | none => (.ok t, w)
  | some text =>
    if Formula.isFormulaText text then
      match Formula.parse text with
      | .error e => (.error (.inCell (w.grid.nameOf p) e), w)
      | .ok f =>
        match (Calculator.remembering w.grid w.settings).cell p f w.memo with
        | (.error e, memo) => (.error (.inCell (w.grid.nameOf p) e), { w with memo := memo })
        | (.ok v, memo) =>
          (.ok { t with formulas := t.formulas + 1 },
            { w with grid := w.grid.set p v.text, memo := memo })
    else if (Value.read? text).isSome then (.ok { t with integers := t.integers + 1 }, w)
    else (.error (.notInteger text p), w)

/-- Evaluates the cells at the given positions in turn, up to the first that has no value. -/
def evaluateCells : List Position → Tally → Worksheet → Except PassError Tally × Worksheet
  | [], t, w => (.ok t, w)
  | p :: ps, t, w =>
    match w.evaluateCell p t with
    | (.error e, w) => (.error e, w)
    | (.ok t, w) => evaluateCells ps t w

/-- Evaluates every data cell, row by row. -/
def evaluateAll (w : Worksheet) : Except PassError Tally × Worksheet :=
  evaluateCells w.grid.dataPositions {} w

end Worksheet

end FormulaGrid
