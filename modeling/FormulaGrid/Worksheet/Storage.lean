/-
Worksheets and what they are stored as.

Main definitions:

* `evaluateLines` — from lines to the grid after a whole pass;
* `Worksheet.ofFile` — the worksheet that a file stores;
* `Grid.toFile` — stores a grid as a file, all its text at once;
* `Grid.print` — prints a grid, line by line.

Main result: `Grid.print_eq` — **what is printed of a grid is its text**.
-/

import FormulaGrid.Failure

set_option relaxedAutoImplicit false
set_option autoImplicit false

namespace FormulaGrid

/-- The largest input file that is read, in bytes. -/
def greatestInput : Nat := 64 * 1024 * 1024

/-- The grid of some lines after a whole pass over it. -/
def evaluateLines (lines : List String) (settings : Settings) : Except Failure Grid :=
  match Worksheet.ofLines lines settings with
  | .error e => .error (.layout e)
  | .ok w =>
    match w.evaluateAll with
    | (.error e, _) => .error (.pass e)
    | (.ok _, w) => .ok w.grid

/-- Lines evaluate to a grid if they make one over which a pass ends. -/
theorem evaluateLines_eq_ok_iff {ls : List String} {s : Settings} {g₁ : Grid} :
    evaluateLines ls s = .ok g₁ ↔ ∃ g t w, Grid.ofLines ls = .ok g ∧
      (Worksheet.new g s).evaluateAll = (.ok t, w) ∧ w.grid = g₁ := by
  constructor
  · intro h
    unfold evaluateLines at h
    split at h
    · cases h
    next w₀ hload =>
    obtain ⟨g, hg, rfl⟩ := Worksheet.ofLines_eq_ok_iff.1 hload
    split at h
    · cases h
    next t w hrun => exact ⟨g, t, w, hg, hrun, Except.ok.inj h⟩
  · rintro ⟨g, t, w, hload, hrun, rfl⟩
    have hnew : Worksheet.ofLines ls s = .ok (.new g s) :=
      Worksheet.ofLines_eq_ok_iff.2 ⟨g, hload, rfl⟩
    simp only [evaluateLines, hnew, hrun]

/-- Lines make a grid over which a pass stops. -/
theorem evaluateLines_eq_pass_iff {ls : List String} {s : Settings} {e : PassError} :
    evaluateLines ls s = .error (.pass e) ↔ ∃ g w, Grid.ofLines ls = .ok g ∧
      (Worksheet.new g s).evaluateAll = (.error e, w) := by
  constructor
  · intro h
    unfold evaluateLines at h
    split at h
    · cases h
    next w₀ hload =>
    obtain ⟨g, hg, rfl⟩ := Worksheet.ofLines_eq_ok_iff.1 hload
    split at h
    next e' w hrun =>
      cases h
      exact ⟨g, w, hg, hrun⟩
    · cases h
  · rintro ⟨g, w, hload, hrun⟩
    have hnew : Worksheet.ofLines ls s = .ok (.new g s) :=
      Worksheet.ofLines_eq_ok_iff.2 ⟨g, hload, rfl⟩
    simp only [evaluateLines, hnew, hrun]

variable {m : Type → Type} [Monad m]

/-- The worksheet of a file. -/
def Worksheet.ofFile [FileStore m] (path : String) (settings : Settings) :
    m (Except Failure Worksheet) := do
  match ← FileStore.size path with
  | .error e => return .error (.file e)
  | .ok size =>
    if greatestInput < size then return .error (.file (.tooLarge path size greatestInput))
    else match ← FileStore.readText path with
      | .error e => return .error (.file e)
      | .ok text =>
        match Worksheet.ofLines (Text.lines text) settings with
        | .error e => return .error (.layout e)
        | .ok w => return .ok w

namespace Grid

/-- Makes the text of a grid the content of a file. -/
def toFile [FileStore m] (g : Grid) (path : String) : m (Except Failure Unit) := do
  match ← FileStore.writeText path g.text with
  | .error e => return .error (.file e)
  | .ok () => return .ok ()

/-- Prints rows, a line for each, up to the first line that is refused. -/
def printRows [TextWriter m] : List (Array String) → m (Except Failure Unit)
  | [] => do
    match ← TextWriter.flush with
    | .error e => return .error (.file e)
    | .ok () => return .ok ()
  | row :: rows => do
    match ← TextWriter.write (Text.joinFields row.toList ++ "\n") with
    | .error e => return .error (.file e)
    | .ok () => printRows rows

/-- Prints a grid. -/
def print [TextWriter m] (g : Grid) : m (Except Failure Unit) := printRows g.rows.toList

theorem printRows_eq (rows : List (Array String)) (printed : String) :
    let lines := rows.map fun row => Text.joinFields row.toList ++ "\n"
    printRows (m := StateM String) rows printed = (.ok (), printed ++ String.join lines) := by
  induction rows generalizing printed with
  | nil => exact congrArg (Prod.mk _) (String.append_empty).symm
  | cons row rows ih =>
      refine (ih (printed ++ (Text.joinFields row.toList ++ "\n"))).trans ?_
      rw [List.map_cons, String.join_cons, String.append_assoc]

/-- **What is printed of a grid is its text.** -/
theorem print_eq (g : Grid) (printed : String) :
    g.print (m := StateM String) printed = (.ok (), printed ++ g.text) :=
  printRows_eq g.rows.toList printed

end Grid

end FormulaGrid
