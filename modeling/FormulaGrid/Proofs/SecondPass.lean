/-
**A second pass changes nothing.**

A pass may start from any worksheet: its grid need not be a rectangle, and its memo may hold
anything.  If the pass ends, every data cell holds an integer, and a second pass counts them.  If it
stops, the cells before the one at which it stops hold integers, and that cell is as it was, so the
second pass comes to it again.  The memo has grown in the evaluation that failed, and the answer of
that evaluation is the same with what it has left there.

Main results:

* `Worksheet.Deals.again` — a cell at which a pass stops stops it again;
* `Worksheet.evaluateCells_again` — a run over the same cells;
* `Worksheet.evaluateAll_again` — **a second pass has the outcome of the first**, except that all
  cells count as integers.
-/

import FormulaGrid.Proofs.Pass
import FormulaGrid.Proofs.Repetition

set_option relaxedAutoImplicit false
set_option autoImplicit false

namespace FormulaGrid

namespace Worksheet

/-! ### One cell -/

section Cell

variable {w : Worksheet} {p : Position} {t : Tally} {o : Except PassError Tally × Worksheet}
  (hd : w.Deals p t o)

include hd

/-- Every other cell is left alone, whatever the memo holds. -/
theorem Deals.get?_of_ne {q : Position} (hq : q ≠ p) : o.2.grid.get? q = w.grid.get? q := by
  cases hd with
  | formula => rw [Grid.get?_set, if_neg (Ne.symm hq)]
  | noCell | integer | notInteger | notFormula | fault => rfl

theorem Deals.dataPositions : o.2.grid.dataPositions = w.grid.dataPositions := by
  cases hd with
  | formula => exact Grid.dataPositions_set ..
  | noCell | integer | notInteger | notFormula | fault => rfl

/-- A cell that a pass gets over is counted once, and holds an integer then. -/
theorem Deals.holdsInteger (hp : (w.grid.get? p).isSome = true) {t' : Tally}
    (ho : o.1 = .ok t') :
    t'.integers + t'.formulas = t.integers + t.formulas + 1 ∧
      o.2.grid.holdsInteger p = true := by
  cases hd with
  | notInteger | notFormula | fault => cases ho
  | noCell hget =>
      rw [hget] at hp
      cases hp
  | integer hget hread =>
      obtain rfl := Except.ok.inj ho
      refine ⟨Nat.add_right_comm .., ?_⟩
      rw [Grid.holdsInteger_of_get? hget, hread]
      rfl
  | @formula text f v memo hget hparse hcell =>
      obtain rfl := Except.ok.inj ho
      refine ⟨rfl, ?_⟩
      have hwritten : (w.grid.set p v.text).get? p = some v.text := by
        rw [Grid.get?_set, if_pos rfl, hget, Option.map_some]
      rw [Grid.holdsInteger_of_get? hwritten, Value.read?_text]
      rfl

/-- **A cell at which a pass stops stops it again**, for the same reason. -/
theorem Deals.again {e : PassError} (ho : o.1 = .error e) (t' : Tally) :
    o.2.evaluateCell p t' = o := by
  cases hd with
  | noCell | integer | formula => cases ho
  | notInteger hget htext hread => exact (Deals.notInteger hget htext hread).evaluateCell_eq
  | notFormula hget htext hparse => exact (Deals.notFormula hget htext hparse).evaluateCell_eq
  | @fault text f e memo hget hparse hcell =>
      -- the evaluation starts from what it has left itself
      have hagain := (Calculator.remembering w.grid w.settings).cell_again p f w.memo
      rw [hcell] at hagain
      exact (Deals.fault (w := { w with memo := memo }) hget hparse hagain).evaluateCell_eq

end Cell

/-! ### A run over cells -/

section Run

variable {w : Worksheet}

/-- A run leaves alone the cells that it does not come to. -/
theorem get?_evaluateCells_of_not_mem {q : Position} (ps : List Position) (t : Tally)
    (hq : q ∉ ps) : (evaluateCells ps t w).2.grid.get? q = w.grid.get? q :=
  evaluateCells_keeps (fun w => w.grid.get? q) ps t fun p hp w t =>
    (w.evaluateCell_deals p t).get?_of_ne (ne_of_mem_of_not_mem hp hq).symm

theorem dataPositions_evaluateCells (ps : List Position) (t : Tally) :
    (evaluateCells ps t w).2.grid.dataPositions = w.grid.dataPositions :=
  evaluateCells_keeps (fun w => w.grid.dataPositions) ps t fun p _ w t =>
    (w.evaluateCell_deals p t).dataPositions

/-- A run that ends counts each cell once, and a run over the same cells again stops where the first
one has stopped, or counts all of them as integers. -/
theorem evaluateCells_again (ps : List Position) (t : Tally) (hnodup : ps.Nodup)
    (hps : ∀ p ∈ ps, (w.grid.get? p).isSome = true) :
    (∀ u, (evaluateCells ps t w).1 = .ok u →
      u.integers + u.formulas = t.integers + t.formulas + ps.length) ∧
    ∀ t' : Tally, evaluateCells ps t' (evaluateCells ps t w).2 =
      ((evaluateCells ps t w).1.map fun _ => { t' with integers := t'.integers + ps.length },
        (evaluateCells ps t w).2) := by
  induction ps generalizing t w with
  | nil =>
      refine ⟨fun u hu => ?_, fun t' => rfl⟩
      obtain rfl := Except.ok.inj hu
      rfl
  | cons p ps ih =>
      obtain ⟨hp, hnodup⟩ := List.nodup_cons.1 hnodup
      have hdeals := w.evaluateCell_deals p t
      rcases hstep : w.evaluateCell p t with ⟨e | t₁, w₁⟩
      all_goals rw [hstep] at hdeals
      · rw [evaluateCells_cons_of_error hstep]
        refine ⟨by simp, fun t' => ?_⟩
        exact evaluateCells_cons_of_error (hdeals.again rfl t') ps
      · obtain ⟨hcount, hinteger⟩ := hdeals.holdsInteger (hps p (List.mem_cons_self ..)) rfl
        rw [evaluateCells_cons_of_ok hstep]
        obtain ⟨hcounts, hagain⟩ := ih t₁ hnodup fun q hq => by
          rw [hdeals.get?_of_ne (ne_of_mem_of_not_mem hq hp)]
          exact hps q (List.mem_cons_of_mem p hq)
        refine ⟨fun u hu => ?_, fun t' => ?_⟩
        · have hcounts := hcounts u hu
          rw [List.length_cons]
          omega
        · -- the rest of the run has not come to `p`
          have hinteger' : (evaluateCells ps t₁ w₁).2.grid.holdsInteger p = true := by
            rwa [Grid.holdsInteger, get?_evaluateCells_of_not_mem ps t₁ hp]
          rw [evaluateCells_cons_of_ok (evaluateCell_of_holdsInteger hinteger' t'), hagain]
          simp only [List.length_cons, Nat.add_assoc, Nat.add_comm 1]

end Run

/-! ### A pass -/

/-- **A second pass has the outcome of the first**: it stops at the same cell for the same reason,
or it counts every cell as an integer, and it changes neither the grid nor the memo.  This holds for
every grid, for all settings and for whatever the memo held before the first pass. -/
theorem evaluateAll_again (w : Worksheet) :
    w.evaluateAll.2.evaluateAll =
      (w.evaluateAll.1.map fun t => { integers := t.integers + t.formulas, formulas := 0 },
        w.evaluateAll.2) := by
  have hps : ∀ p ∈ w.grid.dataPositions, (w.grid.get? p).isSome = true := fun p hp =>
    (Grid.mem_dataPositions.1 hp).2.2
  obtain ⟨hcount, hagain⟩ :=
    evaluateCells_again w.grid.dataPositions {} w.grid.nodup_dataPositions hps
  rw [evaluateAll, evaluateAll, dataPositions_evaluateCells, hagain {}]
  rcases hrun : evaluateCells w.grid.dataPositions {} w with ⟨e | t, w'⟩
  · rfl
  · have hcount := hcount t (congrArg Prod.fst hrun)
    simp only [Except.map, hcount]

end Worksheet

end FormulaGrid
