/-
**A pass with a memo does what a pass without one does**, unless that one meets the bound.

Two passes go through the same cells of the same grid, one without a memo and one with a memo of
worths.  At each cell the second gets the answer of the first, or the first runs out of room, and
then it stops.  So as long as the first goes on, the two grids stay the same.

Main definitions:

* `Worksheet.Follows` — two worksheets that differ in their memos alone;
* `Worksheet.RanOut` — a pass met the bound on nested formulas.

Main results:

* `Worksheet.evaluateCells_follows` — a run with a memo follows the run without;
* `Worksheet.evaluateAll_memoize` — **memoization changes neither the result of a pass nor the
  grid it leaves, up to the bound**.
-/

import FormulaGrid.Proofs.Memo
import FormulaGrid.Proofs.Pass

set_option relaxedAutoImplicit false
set_option autoImplicit false

namespace FormulaGrid

namespace Worksheet

/-- The worksheet `w'` is `w`, which has no memo, with a memo of worths. -/
structure Follows (w w' : Worksheet) : Prop where
  grid : w'.grid = w.grid
  loops : w'.settings.loops = w.settings.loops
  maxDepth : w'.settings.maxDepth = w.settings.maxDepth
  plain : w.settings.memoize = false
  backs : w'.grid.Backs w'.memo

/-- The pass met the bound on nested formulas. -/
def RanOut (o : Except PassError Tally × Worksheet) : Prop :=
  ∃ cell name limit, o.1 = .error (.inCell cell (.tooDeep name limit))

section Follows

variable {w w' : Worksheet} (h : w.Follows w')

include h

/-- At one cell the two passes have the same result and write the same text. -/
theorem Deals.agrees {p : Position} {t : Tally} {o : Except PassError Tally × Worksheet}
    (hd : w.Deals p t o) :
    RanOut o ∨
      ((w'.evaluateCell p t).1 = o.1 ∧ (w'.evaluateCell p t).2.grid = o.2.grid) := by
  -- the calculators of the two passes have answers to the formula of the cell that agree
  have hcells : ∀ {text f r m}, w.grid.get? p = some text → Formula.parse text = .ok f →
      (Calculator.remembering w.grid w.settings).cell p f w.memo = (r, m) →
      (∃ name limit, r = .error (.tooDeep name limit)) ∨
        ∃ m', (Calculator.remembering w'.grid w'.settings).cell p f w'.memo = (r, m') := by
    intro text f r m hget hparse hcell
    have ht : (Calculator.remembering w'.grid w'.settings).Trusts w'.memo := fun _ => h.backs
    have hfollows := Calculator.cell_follows (c := .remembering w.grid w.settings) h.grid h.loops
      h.plain h.maxDepth hget hparse w.memo ht
    rw [hcell] at hfollows
    exact hfollows.imp id fun hres => ⟨_, Prod.ext hres.1 rfl⟩
  cases hd with
  | noCell hget =>
      rw [(Deals.noCell (w := w') (h.grid ▸ hget)).evaluateCell_eq]
      exact .inr ⟨rfl, h.grid⟩
  | integer hget hread =>
      rw [(Deals.integer (w := w') (h.grid ▸ hget) hread).evaluateCell_eq]
      exact .inr ⟨rfl, h.grid⟩
  | notInteger hget htext hread =>
      rw [(Deals.notInteger (w := w') (h.grid ▸ hget) htext hread).evaluateCell_eq]
      exact .inr ⟨rfl, h.grid⟩
  | notFormula hget htext hparse =>
      rw [(Deals.notFormula (w := w') (h.grid ▸ hget) htext hparse).evaluateCell_eq, h.grid]
      exact .inr ⟨rfl, rfl⟩
  | fault hget hparse hcell =>
      rcases hcells hget hparse hcell with ⟨name, limit, hout⟩ | ⟨m', hcell'⟩
      · obtain rfl := Except.error.inj hout
        exact .inl ⟨_, name, limit, rfl⟩
      · rw [(Deals.fault (h.grid ▸ hget) hparse hcell').evaluateCell_eq, h.grid]
        exact .inr ⟨rfl, rfl⟩
  | formula hget hparse hcell =>
      rcases hcells hget hparse hcell with ⟨name, limit, hout⟩ | ⟨m', hcell'⟩
      · cases hout
      · rw [(Deals.formula (h.grid ▸ hget) hparse hcell').evaluateCell_eq, h.grid]
        exact .inr ⟨rfl, rfl⟩

theorem evaluateCell_follows (p : Position) (t : Tally) :
    RanOut (w.evaluateCell p t) ∨
      ((w'.evaluateCell p t).1 = (w.evaluateCell p t).1 ∧
        (w.evaluateCell p t).2.Follows (w'.evaluateCell p t).2) := by
  refine (Deals.agrees h (w.evaluateCell_deals p t)).imp id fun hagree => ⟨hagree.1, ?_⟩
  have hs := (w.evaluateCell_deals p t).settings
  have hs' := (w'.evaluateCell_deals p t).settings
  obtain ⟨qs, -, hsettles, -⟩ := (w'.evaluateCell_deals p t).settles ⟨.refl w'.grid, h.backs⟩
  exact {
    grid := hagree.2
    loops := by rw [hs, hs', h.loops]
    maxDepth := by rw [hs, hs', h.maxDepth]
    plain := by rw [hs, h.plain]
    backs := hsettles.backs }

theorem evaluateCells_follows (ps : List Position) (t : Tally) :
    RanOut (evaluateCells ps t w) ∨
      ((evaluateCells ps t w').1 = (evaluateCells ps t w).1 ∧
        (evaluateCells ps t w).2.Follows (evaluateCells ps t w').2) := by
  induction ps generalizing t w w' with
  | nil => exact .inr ⟨rfl, h⟩
  | cons p ps ih =>
      have hcell := evaluateCell_follows h p t
      rcases hstep : w.evaluateCell p t with ⟨e | t₁, w₁⟩
      · rcases hstep' : w'.evaluateCell p t with ⟨r, w₁'⟩
        rw [hstep, hstep'] at hcell
        rw [evaluateCells_cons_of_error hstep]
        refine hcell.imp id fun hres => ?_
        obtain rfl : r = _ := hres.1
        rw [evaluateCells_cons_of_error hstep']
        exact hres
      · rcases hstep' : w'.evaluateCell p t with ⟨r, w₁'⟩
        rw [hstep, hstep'] at hcell
        rcases hcell with ⟨cell, name, limit, hout⟩ | ⟨hres, hfollows⟩
        · cases hout
        · obtain rfl : r = _ := hres
          rw [evaluateCells_cons_of_ok hstep, evaluateCells_cons_of_ok hstep']
          exact ih hfollows t₁

end Follows

/-- **Memoization changes neither the result of a pass nor the grid it leaves**, unless the pass
without it meets the bound on nested formulas.  So a pass that ends without it ends in the same
way with it, and a pass that stops with it stops without it. -/
theorem evaluateAll_memoize (g : Grid) (s : Settings) :
    let plain := (new g { s with memoize := false }).evaluateAll
    let memo := (new g { s with memoize := true }).evaluateAll
    (RanOut plain ∨ (memo.1 = plain.1 ∧ memo.2.grid = plain.2.grid)) ∧
      (∀ t, plain.1 = .ok t → memo.1 = .ok t ∧ memo.2.grid = plain.2.grid) ∧
      (∀ e, memo.1 = .error e → ∃ e', plain.1 = .error e') := by
  intro plain memo
  have hfollows : (new g { s with memoize := false }).Follows (new g { s with memoize := true }) :=
    { grid := rfl, loops := rfl, maxDepth := rfl, plain := rfl, backs := g.backs_empty }
  have hrun : RanOut plain ∨ (memo.1 = plain.1 ∧ plain.2.Follows memo.2) :=
    evaluateCells_follows hfollows g.dataPositions {}
  refine ⟨hrun.imp id fun hsame => ⟨hsame.1, hsame.2.grid⟩, ?_, ?_⟩
  · intro t ht
    rcases hrun with ⟨cell, name, limit, hout⟩ | ⟨hres, hsame⟩
    · cases ht.symm.trans hout
    · exact ⟨hres.trans ht, hsame.grid⟩
  · intro e he
    rcases hrun with ⟨cell, name, limit, hout⟩ | ⟨hres, -⟩
    · exact ⟨_, hout⟩
    · exact ⟨e, hres.symm.trans he⟩

end Worksheet

end FormulaGrid
