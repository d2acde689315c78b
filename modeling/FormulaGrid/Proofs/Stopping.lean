/-
**Where a pass stops, and what it leaves.**

A pass that stops names a cell.  The cells before it are done: their formulas have given way to
worths, and where they held no formula they hold integers.  The cell itself and all cells after it
are as they were, also if an evaluation went through them.  So if the bound allows for all formulas,
the pass stops at the first cell that is worth nothing.

Main results:

* `Worksheet.Deals.grid_of_error` — a cell at which the pass stops is not written;
* `Grid.Settled.nameOf` — a pass calls cells by the names that they had;
* `Worksheet.evaluateAll_stops` — **a pass stops at the first cell that is worth nothing, and leaves
  the cells before it done**.
-/

import FormulaGrid.Proofs.Loading
import FormulaGrid.Proofs.Pass

set_option relaxedAutoImplicit false
set_option autoImplicit false

namespace FormulaGrid

/-- A pass calls cells by the names that they had at the start. -/
theorem Grid.Settled.nameOf {g g' : Grid} {done : List Position} (h : g.Settled done g')
    (hdone : ∀ q ∈ done, q ∈ g.dataPositions) (p : Position) : g'.nameOf p = g.nameOf p := by
  unfold Grid.nameOf nameOf?
  rw [h.get?_label hdone (.inl rfl), h.get?_label hdone (.inr rfl)]

namespace Worksheet

variable {g : Grid} {s : Settings} {w w' : Worksheet} {p : Position} {t : Tally}

/-- A cell at which the pass stops is not written. -/
theorem Deals.grid_of_error {o : Except PassError Tally × Worksheet} (hd : w.Deals p t o)
    {e : PassError} (ho : o.1 = .error e) : o.2.grid = w.grid := by
  cases hd with
  | noCell | integer | formula => cases ho
  | notInteger | notFormula | fault => rfl

/-- The reason for which a pass stops at a cell: its text is no formula and no integer, or its
formula has a fault. -/
def Blames (g : Grid) (p : Position) (text : String) (e : PassError) : Prop :=
  if Formula.isFormulaText text then ∃ fault, e = .inCell (g.nameOf p) fault
  else e = .notInteger text p

theorem Deals.blames {e : PassError} (hd : w.Deals p t (.error e, w')) :
    ∃ text, w.grid.get? p = some text ∧ Blames w.grid p text e := by
  cases hd with
  | notInteger hget htext _ => exact ⟨_, hget, by rw [Blames, htext]; rfl⟩
  | notFormula hget htext _ => exact ⟨_, hget, by rw [Blames, if_pos htext]; exact ⟨_, rfl⟩⟩
  | fault hget hparse _ =>
      have htext := Formula.isFormulaText_of_parse hparse
      exact ⟨_, hget, by rw [Blames, if_pos htext]; exact ⟨_, rfl⟩⟩

/-- **A pass stops at the first cell that is worth nothing, and leaves the cells before it done.**
Before the cell at which it stops, the formulas have given way to their worths in the grid at the
start, and all cells hold integers; nothing else has changed.  The reason names the cell.  The cells
before it are worth something in any case, and it is worth nothing itself if the bound allows for as
many nested formulas as there are formula cells. -/
theorem evaluateAll_stops {e : PassError} (hrun : (new g s).evaluateAll = (.error e, w)) :
    ∃ p ∈ g.dataPositions,
      g.Settled (g.cellsBefore p) w.grid ∧
      (∀ q ∈ g.cellsBefore p, w.grid.holdsInteger q = true ∧ ∃ v, g.CellWorth q v) ∧
      (∃ text, g.get? p = some text ∧ w.grid.get? p = some text ∧ Blames g p text e) ∧
      (g.formulaPositions.length ≤ s.maxDepth → ∀ v, ¬ g.CellWorth p v) := by
  obtain ⟨qs, p, rs, t, w₁, hps, hbefore, hstop⟩ := evaluateCells_stops g.dataPositions {} hrun
  have hp : p ∈ g.dataPositions := by simp [hps]
  have hqs : ∀ q ∈ qs, q ∈ g.dataPositions := fun q hq => by simp [hps, hq]
  have hnodup := g.nodup_dataPositions
  rw [hps, List.nodup_append] at hnodup
  obtain ⟨hnodup, -, hpqs⟩ := hnodup
  have hbacks : w₁.Settles g qs := (settles_new g s).of_run hbefore
  have hsettled := hbacks.settled
  have hgrid : w.grid = w₁.grid := hstop.grid_of_error rfl
  refine ⟨p, hp, ?_⟩
  rw [Grid.cellsBefore_eq hps, hgrid]
  refine ⟨hsettled, fun q hq => ?_, ?_, fun hdepth v hv => ?_⟩
  · obtain ⟨v, hv⟩ := exists_worth_of_run (settles_new g s) hnodup hbefore hq
      (Grid.mem_dataPositions.1 (hqs q hq)).2.2
    exact ⟨hsettled.holdsInteger hq hv, v, hv⟩
  · obtain ⟨text, hget, hblames⟩ := hstop.blames
    have hkept : w₁.grid.get? p = g.get? p :=
      hsettled.other p fun hp => hpqs p hp.1 p (List.mem_cons_self ..) rfl
    rw [Blames, hsettled.nameOf hqs] at hblames
    exact ⟨text, hkept ▸ hget, hget, hblames⟩
  · -- a worth would have been found, since no derivation is higher than there are formulas
    have hsettings : w₁.settings = s := settings_of_run hbefore
    have hv := hsettled.cellWorthIn ((hv.cellWorthIn_length hp).mono hdepth)
    obtain ⟨t', ht'⟩ := hstop.eq_ok hbacks.backs (hsettings.symm ▸ hv)
    cases ht'

/-- `A1` is done, `B1` divides by it after its formula has been evaluated to zero, and the text in
`A2` is not reached. -/
theorem evaluateAll_stops_at_division :
    ∃ g w, Grid.ofLines [",A,B", "1,=2-2,=4/A1", "2,x,7"] = .ok g ∧
      (new g { maxDepth := 2 }).evaluateAll =
        (.error (.inCell "B1" (.divisionByZero "4/A1")), w) ∧
      ∃ p ∈ g.dataPositions, g.nameOf p = "B1" ∧ (∀ v, ¬ g.CellWorth p v) ∧
        ∀ q ∈ g.cellsBefore p, w.grid.holdsInteger q = true := by
  have hfacts : (Grid.ofLines [",A,B", "1,=2-2,=4/A1", "2,x,7"]).toOption.map (fun g =>
      ((new g { maxDepth := 2 }).evaluateAll.1, g.formulaPositions.length)) =
        some (.error (.inCell "B1" (.divisionByZero "4/A1")), 2) := by
    decide +kernel
  rcases h : Grid.ofLines [",A,B", "1,=2-2,=4/A1", "2,x,7"] with e | g
  · rw [h] at hfacts
    cases hfacts
  · rw [h] at hfacts
    obtain ⟨he, htwo⟩ := Prod.mk.inj (Option.some.inj hfacts)
    have hrun : (new g { maxDepth := 2 }).evaluateAll =
        (.error (.inCell "B1" (.divisionByZero "4/A1")), _) := Prod.ext he rfl
    obtain ⟨p, hp, -, hbefore, ⟨text, -, -, hblames⟩, hnothing⟩ := evaluateAll_stops hrun
    refine ⟨g, _, rfl, hrun, p, hp, ?_, hnothing (Nat.le_of_eq htwo), fun q hq => (hbefore q hq).1⟩
    unfold Blames at hblames
    split at hblames
    · obtain ⟨fault, hfault⟩ := hblames
      exact (PassError.inCell.inj hfault).1.symm
    · cases hblames

end Worksheet

end FormulaGrid
