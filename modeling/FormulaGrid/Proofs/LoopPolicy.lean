/-
**The loop policies do the same to a worksheet**, but for the report of a loop.

Two passes go through the cells of one grid, one with the full search for loops and one without it.
At each cell they get the same answer and write the same text, until a cell from which a loop is
reached.  There both stop: the first reports the loop, and the second the bound on nested formulas.

Main definitions:

* `Worksheet.withLoops` — a worksheet under another loop policy;
* `Worksheet.Unrolls` — what one pass ends with, and what the other one.

Main results:

* `Worksheet.evaluateCell_unrolls`, `Worksheet.evaluateCells_unrolls` — one cell, and a run;
* `Worksheet.evaluateAll_loops` — **the policies differ only in how a loop is reported**.
-/

import FormulaGrid.Proofs.History
import FormulaGrid.Proofs.Unrolling

set_option relaxedAutoImplicit false
set_option autoImplicit false

namespace FormulaGrid

namespace Worksheet

/-- The worksheet under another loop policy. -/
def withLoops (w : Worksheet) (policy : LoopPolicy) : Worksheet :=
  { w with settings := { w.settings with loops := policy } }

/-- How a run ends under the two policies: in the same way and with the same worksheet, or the
first stops at a loop; then the second stops at the same cell, with the bound `limit`. -/
inductive Unrolls (limit : Nat) :
    Except PassError Tally × Worksheet → Except PassError Tally × Worksheet → Prop
  | same {r : Except PassError Tally} {w : Worksheet}
      (h : ∀ cell names, r ≠ .error (.inCell cell (.loop names))) :
      Unrolls limit (r, w.withLoops .full) (r, w.withLoops .selfOnly)
  | loop {cell name : String} {names : List String} {w w' : Worksheet} (hgrid : w'.grid = w.grid) :
      Unrolls limit (.error (.inCell cell (.loop names)), w)
        (.error (.inCell cell (.tooDeep name limit)), w')

variable {w : Worksheet} (hb : w.grid.Backs w.memo)

include hb

theorem evaluateCell_unrolls (p : Position) (t : Tally) :
    Unrolls w.settings.maxDepth ((w.withLoops .full).evaluateCell p t)
      ((w.withLoops .selfOnly).evaluateCell p t) := by
  -- the formula of the cell has the same answer under both policies, or closes a loop
  have hcells : ∀ {text f r memo}, w.grid.get? p = some text → Formula.parse text = .ok f →
      (Calculator.remembering w.grid (w.withLoops .full).settings).cell p f w.memo = (r, memo) →
      ((∀ names, r ≠ .error (.loop names)) ∧
        (Calculator.remembering w.grid (w.withLoops .selfOnly).settings).cell p f w.memo =
          (r, memo)) ∨
      ∃ names name memo', r = .error (.loop names) ∧
        (Calculator.remembering w.grid (w.withLoops .selfOnly).settings).cell p f w.memo =
          (.error (.tooDeep name w.settings.maxDepth), memo') := by
    intro text f r memo hget hparse hcell
    have hun : Answer.Unrolls w.settings.maxDepth
        ((Calculator.remembering w.grid (w.withLoops .full).settings).cell p f w.memo)
        ((Calculator.remembering w.grid (w.withLoops .selfOnly).settings).cell p f w.memo) :=
      Calculator.cell_unrolls (c := .remembering w.grid w.settings) hget hparse fun _ => hb
    rw [hcell] at hun
    generalize (Calculator.remembering w.grid (w.withLoops .selfOnly).settings).cell p f w.memo =
      o at hun
    cases hun with
    | same hne => exact .inl ⟨hne, rfl⟩
    | loop => exact .inr ⟨_, _, _, rfl, rfl⟩
  have hd := (w.withLoops .full).evaluateCell_deals p t
  generalize (w.withLoops .full).evaluateCell p t = o at hd
  cases hd with
  | noCell hget =>
      rw [(Deals.noCell (w := w.withLoops .selfOnly) hget).evaluateCell_eq]
      exact .same (by simp)
  | integer hget hread =>
      rw [(Deals.integer (w := w.withLoops .selfOnly) hget hread).evaluateCell_eq]
      exact .same (by simp)
  | notInteger hget htext hread =>
      rw [(Deals.notInteger (w := w.withLoops .selfOnly) hget htext hread).evaluateCell_eq]
      exact .same (by simp)
  | notFormula hget htext hparse =>
      rw [(Deals.notFormula (w := w.withLoops .selfOnly) hget htext hparse).evaluateCell_eq]
      refine .same fun cell names h => ?_
      cases h
      cases Formula.ofNesting_of_parse hparse
  | @fault text f e memo hget hparse hcell =>
      rcases hcells hget hparse hcell with ⟨hne, hcell'⟩ | ⟨names, name, memo', hloop, hcell'⟩
      · rw [(Deals.fault (w := w.withLoops .selfOnly) hget hparse hcell').evaluateCell_eq]
        refine Unrolls.same (w := { w with memo := memo }) fun cell names h => ?_
        cases h
        exact hne names rfl
      · cases hloop
        rw [(Deals.fault (w := w.withLoops .selfOnly) hget hparse hcell').evaluateCell_eq]
        exact .loop rfl
  | @formula text f v memo hget hparse hcell =>
      rcases hcells hget hparse hcell with ⟨-, hcell'⟩ | ⟨names, name, memo', hloop, -⟩
      · rw [(Deals.formula (w := w.withLoops .selfOnly) hget hparse hcell').evaluateCell_eq]
        exact Unrolls.same (w := { w with grid := w.grid.set p v.text, memo := memo }) (by simp)
      · cases hloop

theorem evaluateCells_unrolls (ps : List Position) (t : Tally) :
    Unrolls w.settings.maxDepth (evaluateCells ps t (w.withLoops .full))
      (evaluateCells ps t (w.withLoops .selfOnly)) := by
  induction ps generalizing t w with
  | nil => exact .same (by simp)
  | cons p ps ih =>
      have hcell := evaluateCell_unrolls hb p t
      have hdeals := (w.withLoops .full).evaluateCell_deals p t
      obtain ⟨qs, -, hsettles, -⟩ := hdeals.settles ⟨.refl w.grid, hb⟩
      have hsettings := hdeals.settings
      rcases hstep : (w.withLoops .full).evaluateCell p t with ⟨r, w₁⟩
      rcases hstep' : (w.withLoops .selfOnly).evaluateCell p t with ⟨r', w₁'⟩
      rw [hstep, hstep'] at hcell
      rw [hstep] at hsettles hsettings
      cases hcell with
      | loop hgrid =>
          rw [evaluateCells_cons_of_error hstep, evaluateCells_cons_of_error hstep']
          exact .loop hgrid
      | @same _ w₂ hne =>
          rcases r with e | t₁
          · rw [evaluateCells_cons_of_error hstep, evaluateCells_cons_of_error hstep']
            exact .same hne
          · rw [evaluateCells_cons_of_ok hstep, evaluateCells_cons_of_ok hstep']
            have hmax : w₂.settings.maxDepth = w.settings.maxDepth := by
              simpa [withLoops] using congrArg Settings.maxDepth hsettings
            rw [← hmax]
            exact ih (w := w₂) hsettles.backs t₁

omit hb

theorem evaluateAll_unrolls (g : Grid) (s : Settings) :
    Unrolls s.maxDepth (new g { s with loops := .full }).evaluateAll
      (new g { s with loops := .selfOnly }).evaluateAll :=
  evaluateCells_unrolls (w := new g s) g.backs_empty g.dataPositions {}

/-- Without the full search no loop is reported. -/
theorem evaluateAll_ne_loop (g : Grid) {s : Settings} (h : s.loops = .selfOnly) (cell : String)
    (names : List String) : (new g s).evaluateAll.1 ≠ .error (.inCell cell (.loop names)) := by
  have hrun := evaluateAll_unrolls g s
  rw [← h] at hrun
  generalize (new g s).evaluateAll = self, (new g _).evaluateAll = full at hrun
  cases hrun with
  | same hne => exact hne cell names
  | loop => simp

/-- **The loop policies differ only in how a loop is reported.**  A pass that does not stop at a
loop is the same pass without the full search.  A pass that stops at a loop stops at the same cell
without the search, with the same rows, because the bound on nested formulas is met.  The same
holds for an operand, with and without the use of a memo. -/
theorem evaluateAll_loops (g : Grid) (s : Settings) :
    let full := (new g { s with loops := .full }).evaluateAll
    let self := (new g { s with loops := .selfOnly }).evaluateAll
    ((∀ cell names, full.1 ≠ .error (.inCell cell (.loop names))) →
      self.1 = full.1 ∧ self.2.grid = full.2.grid ∧ self.2.memo = full.2.memo) ∧
    (∀ cell names, full.1 = .error (.inCell cell (.loop names)) →
      (∃ name, self.1 = .error (.inCell cell (.tooDeep name s.maxDepth))) ∧
        self.2.grid = full.2.grid) ∧
    ∀ (cached : Bool) (operand : String),
      let full := ((new g { s with loops := .full }).calculator cached).operand operand ∅
      let self := ((new g { s with loops := .selfOnly }).calculator cached).operand operand ∅
      ((∀ names, full.1 ≠ .error (.loop names)) → self = full) ∧
      (∀ names, full.1 = .error (.loop names) →
        ∃ name, self.1 = .error (.tooDeep name s.maxDepth)) := by
  intro full self
  have hrun : Unrolls s.maxDepth full self := evaluateAll_unrolls g s
  refine ⟨fun hne => ?_, fun cell names hloop => ?_, fun cached operand => ?_⟩
  · generalize full = o, self = o' at hrun hne
    cases hrun with
    | same => exact ⟨rfl, rfl, rfl⟩
    | loop => exact absurd rfl (hne _ _)
  · generalize full = o, self = o' at hrun hloop
    cases hrun with
    | same hne => exact absurd hloop (hne cell names)
    | loop hgrid =>
        cases hloop
        exact ⟨⟨_, rfl⟩, hgrid⟩
  · intro full self
    have hanswer : Answer.Unrolls s.maxDepth full self := by
      cases cached with
      | false => exact Calculator.operand_unrolls (c := .plain g s) operand fun _ => g.backs_empty
      | true =>
          exact Calculator.operand_unrolls (c := .remembering g s) operand fun _ => g.backs_empty
    generalize full = o, self = o' at hanswer
    cases hanswer with
    | same hne => exact ⟨fun _ => rfl, fun names hloop => absurd hloop (hne names)⟩
    | loop => exact ⟨fun hne => absurd rfl (hne _), fun _ _ => ⟨_, rfl⟩⟩

end Worksheet

end FormulaGrid
