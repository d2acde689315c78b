/-
**What cells are worth does not depend on where they stand.**

Cells refer to each other by name only.  If the cells of a grid stand in other places and their
names have gone with them, every operand is worth what it was worth before, and every cell is worth
at its new place what it was worth at its old one.  A pass goes through the cells in another order
then, but if it ends in one grid and the bound allows for all formulas, it ends in the other, and
the two grids are again the same up to the places.

Main definitions:

* `Grid.Moves` — a grid with the cells of another in other places.

Main results:

* `Grid.Moves.worth_iff`, `Grid.Moves.cellWorth_iff` — **worths move with the cells**;
* `Worksheet.evaluateAll_moves` — a pass ends with the cells moved, too.
-/

import FormulaGrid.Proofs.Pass
import Mathlib.Logic.Equiv.Defs

set_option relaxedAutoImplicit false
set_option autoImplicit false

namespace FormulaGrid

namespace Grid

/-- `g'` is `g` with its cells in other places: at `p` stands what stood at `σ p`, and the names
have gone with the cells. -/
structure Moves (σ : Equiv.Perm Position) (g g' : Grid) : Prop where
  get? : ∀ p, g'.get? p = g.get? (σ p)
  find : ∀ name p, g'.find name = .ok p ↔ g.find name = .ok (σ p)
  /-- Data stays data. -/
  data : ∀ p, p ∈ g'.dataPositions ↔ σ p ∈ g.dataPositions

namespace Moves

variable {σ : Equiv.Perm Position} {g g' : Grid} (h : Moves σ g g')

include h

/-- The cells can be moved back. -/
theorem symm : Moves σ.symm g' g where
  get? p := by rw [h.get?, σ.apply_symm_apply]
  find name p := by rw [h.find, σ.apply_symm_apply]
  data p := by rw [h.data, σ.apply_symm_apply]

theorem refers_iff {operand text : String} {p : Position} :
    g'.Refers operand p text ↔ g.Refers operand (σ p) text := by
  rw [Refers, Refers, lookUp_eq_ok_iff, lookUp_eq_ok_iff, h.find, h.get?]

theorem worth {operand : String} {v : Value} (hv : g.Worth operand v) : g'.Worth operand v := by
  have hmoved : ∀ {name p text}, g.Refers name p text → g'.Refers name (σ.symm p) text := by
    intro name p text hcell
    rwa [h.refers_iff, σ.apply_symm_apply]
  induction hv with
  | integer hread => exact .integer hread
  | cell hcell hread => exact .cell (hmoved hcell) hread
  | formula hcell hparse _ _ hresult ihl ihr =>
      exact .formula (hmoved hcell) hparse ihl ihr hresult

/-- **Operands keep their worth.** -/
theorem worth_iff {operand : String} {v : Value} : g'.Worth operand v ↔ g.Worth operand v :=
  ⟨h.symm.worth, h.worth⟩

theorem cellWorth {p : Position} {v : Value} (hv : g.CellWorth (σ p) v) : g'.CellWorth p v := by
  cases hv with
  | integer hget hread => exact .integer ((h.get? p).trans hget) hread
  | formula hget hparse hf =>
      exact .formula ((h.get? p).trans hget) hparse (hf.mono fun _ _ => h.worth)

/-- **Cells keep their worth at their new places.** -/
theorem cellWorth_iff {p : Position} {v : Value} : g'.CellWorth p v ↔ g.CellWorth (σ p) v := by
  refine ⟨fun hv => h.symm.cellWorth ?_, h.cellWorth⟩
  rwa [σ.symm_apply_apply]

theorem holdsFormula (p : Position) : g'.holdsFormula p = g.holdsFormula (σ p) := by
  rw [Grid.holdsFormula, Grid.holdsFormula, h.get?]

theorem mem_formulaPositions (p : Position) :
    p ∈ g'.formulaPositions ↔ σ p ∈ g.formulaPositions := by
  rw [formulaPositions, formulaPositions, List.mem_filter, List.mem_filter, h.data,
    h.holdsFormula]

theorem length_formulaPositions_le : g'.formulaPositions.length ≤ g.formulaPositions.length := by
  have hnodup : (g'.formulaPositions.map σ).Nodup :=
    (g'.nodup_dataPositions.filter _).map σ.injective
  have hsubset : g'.formulaPositions.map σ ⊆ g.formulaPositions := by
    intro q hq
    obtain ⟨p, hp, rfl⟩ := List.mem_map.1 hq
    exact (h.mem_formulaPositions p).1 hp
  simpa using (List.subperm_of_subset hnodup hsubset).length_le

/-- If all formulas have given way to their worths on both sides, the cells are still moved in the
same way. -/
theorem of_settled {g₁ g₂ : Grid} (h₁ : g.Settled g.dataPositions g₁)
    (h₂ : g'.Settled g'.dataPositions g₂) : Moves σ g₁ g₂ where
  get? p := by
    by_cases hp : p ∈ g'.dataPositions ∧ g'.holdsFormula p = true
    · obtain ⟨v, hv, hget⟩ := h₂.formula p hp.1 hp.2
      obtain ⟨u, hu, hget'⟩ := h₁.formula (σ p) ((h.data p).1 hp.1) (h.holdsFormula p ▸ hp.2)
      obtain rfl := (h.cellWorth_iff.1 hv).unique hu
      rw [hget, hget']
    · rw [h₂.other p hp, h.get?]
      rw [h.data, h.holdsFormula] at hp
      exact (h₁.other (σ p) hp).symm
  find name p := by rw [h₂.find, h₁.find, h.find]
  data p := by rw [h₂.dataPositions, h₁.dataPositions, h.data]

end Moves

end Grid

/-- **If a pass ends, it ends with the cells moved, too**, and with the same outcome up to the
places. -/
theorem Worksheet.evaluateAll_moves {σ : Equiv.Perm Position} {g g' : Grid} (h : g.Moves σ g')
    {s : Settings} (hdepth : g.formulaPositions.length ≤ s.maxDepth) {t : Tally} {w : Worksheet}
    (hrun : (new g s).evaluateAll = (.ok t, w)) :
    ∃ t' w', (new g' s).evaluateAll = (.ok t', w') ∧ g'.Settled g'.dataPositions w'.grid ∧
      w.grid.Moves σ w'.grid := by
  obtain ⟨hsettled, hworth⟩ := worths_of_evaluateAll hrun
  have hworth' : ∀ p ∈ g'.dataPositions, ∃ v, g'.CellWorth p v := by
    intro p hp
    obtain ⟨v, hv⟩ := hworth (σ p) ((h.data p).1 hp)
    exact ⟨v, h.cellWorth hv⟩
  obtain ⟨t', w', hrun'⟩ :=
    exists_evaluateAll hworth' (Nat.le_trans h.length_formulaPositions_le hdepth)
  obtain ⟨hsettled', -⟩ := worths_of_evaluateAll hrun'
  exact ⟨t', w', hrun', hsettled', h.of_settled hsettled hsettled'⟩

end FormulaGrid
