/-
**Putting the worth of a formula in its place changes no worth.**

A pass writes the value of a formula cell over its formula, while other formulas still refer to
that cell.  `Grid.Settled` relates the grid before the pass to the grid on the way: at the cells
that are done the formulas have given way to the texts of their worths, and everything else is as
it was.  Under this relation every operand and every cell keeps its worth, so a formula that is
evaluated late means what it meant at the start.

Main definitions:

* `Grid.Settled` — a grid in which some formulas have been replaced by their worths.

Main results:

* `Grid.Settled.worth_iff`, `Grid.Settled.cellWorth_iff` — **no worth changes**;
* `Grid.Settled.cellWorthIn` — a derivation gets no higher;
* `Grid.Settled.set`, `Grid.Settled.skip` — one more cell is done.
-/

import FormulaGrid.Proofs.Evaluation

set_option relaxedAutoImplicit false
set_option autoImplicit false

namespace FormulaGrid

namespace Grid

/-- `g'` is `g` with the formulas of the cells in `done` replaced by the texts of their worths. -/
structure Settled (g : Grid) (done : List Position) (g' : Grid) : Prop where
  columnOf : g'.columnOf = g.columnOf
  rowOf : g'.rowOf = g.rowOf
  size_rows : g'.rows.size = g.rows.size
  width : ∀ row, g'.width row = g.width row
  /-- A formula that is done has given way to its worth. -/
  formula : ∀ p ∈ done, g.holdsFormula p = true →
    ∃ v, g.CellWorth p v ∧ g'.get? p = some v.text
  /-- Every other cell is as it was. -/
  other : ∀ p, ¬ (p ∈ done ∧ g.holdsFormula p = true) → g'.get? p = g.get? p

namespace Settled

theorem refl (g : Grid) : g.Settled [] g where
  columnOf := rfl
  rowOf := rfl
  size_rows := rfl
  width _ := rfl
  formula p hp := by simp at hp
  other _ _ := rfl

variable {g g' : Grid} {done : List Position} (h : g.Settled done g')

include h

theorem dataPositions : g'.dataPositions = g.dataPositions := by
  unfold Grid.dataPositions
  rw [h.size_rows]
  simp only [h.width]

theorem find (name : String) : g'.find name = g.find name := by
  have hcut : g'.cutAt? = g.cutAt? := by
    unfold cutAt?
    rw [h.columnOf, h.rowOf]
  unfold Grid.find
  rw [hcut]

/-- A cell holds what it held, or the worth of the formula that it held. -/
theorem get?_cases (p : Position) :
    g'.get? p = g.get? p ∨
      g.holdsFormula p = true ∧ ∃ v, g.CellWorth p v ∧ g'.get? p = some v.text := by
  by_cases hp : p ∈ done ∧ g.holdsFormula p = true
  · exact .inr ⟨hp.2, h.formula p hp.1 hp.2⟩
  · exact .inl (h.other p hp)

/-- A cell that holds a formula has kept it. -/
theorem get?_of_formula {p : Position} {text : String} (hget : g'.get? p = some text)
    (htext : Formula.isFormulaText text = true) : g.get? p = some text := by
  rcases h.get?_cases p with hkept | ⟨-, v, -, hv⟩
  · rw [← hkept, hget]
  · obtain rfl := Option.some.inj (hv.symm.trans hget)
    rw [Formula.isFormulaText_text] at htext
    cases htext

theorem refers {operand text : String} {p : Position} (hcell : g.Refers operand p text) :
    ∃ text', g'.Refers operand p text' := by
  obtain ⟨hname, hlook⟩ := hcell
  obtain ⟨hfind, hget⟩ := lookUp_eq_ok_iff.1 hlook
  rcases h.get?_cases p with hkept | ⟨-, v, -, hv⟩
  · exact ⟨text, hname, lookUp_eq_ok_iff.2 ⟨(h.find operand).trans hfind, hkept.trans hget⟩⟩
  · exact ⟨v.text, hname, lookUp_eq_ok_iff.2 ⟨(h.find operand).trans hfind, hv⟩⟩

theorem refers_of_refers {operand text : String} {p : Position}
    (hcell : g'.Refers operand p text) : ∃ text', g.Refers operand p text' := by
  obtain ⟨hname, hlook⟩ := hcell
  obtain ⟨hfind, hget⟩ := lookUp_eq_ok_iff.1 hlook
  rw [h.find] at hfind
  rcases h.get?_cases p with hkept | ⟨hformula, -⟩
  · exact ⟨text, hname, lookUp_eq_ok_iff.2 ⟨hfind, hkept.symm.trans hget⟩⟩
  · obtain ⟨text', hget', -⟩ := holdsFormula_iff.1 hformula
    exact ⟨text', hname, lookUp_eq_ok_iff.2 ⟨hfind, hget'⟩⟩

/-! ### No worth changes -/

/-- The worth of a cell stays, in terms of what its operands are worth. -/
theorem cellWorthIn_of_worthIn {n : Nat} {p : Position} {v : Value} (hv : g.CellWorthIn n p v)
    (hoperand : ∀ m < n, ∀ name u, g.WorthIn m name u → g'.WorthIn m name u) :
    g'.CellWorthIn n p v := by
  rcases h.get?_cases p with hkept | ⟨-, u, hu, hget'⟩
  · cases hv with
    | integer hget hv => exact .integer (hkept.trans hget) hv
    | @formula m _ _ _ _ hget hparse hv =>
        exact .formula (hkept.trans hget) hparse (hv.mono (hoperand m (by omega)))
  · obtain rfl := hu.unique (cellWorth_iff_exists_cellWorthIn.2 ⟨n, hv⟩)
    exact .integer hget' (Value.read?_text u)

theorem worthIn {n : Nat} {operand : String} {v : Value} (hv : g.WorthIn n operand v) :
    g'.WorthIn n operand v := by
  -- induction on the height, since a cell that is done has a derivation of height 0 now
  induction n using Nat.strongRecOn generalizing operand v with
  | _ n ih =>
      cases hname : Value.read? operand with
      | some u => rwa [worthIn_of_read hname] at hv ⊢
      | none =>
          obtain ⟨p, text, hcell⟩ : ∃ p text, g.Refers operand p text := by
            cases hv with
            | integer hv => simp [hname] at hv
            | cell hcell _ | formula hcell _ _ _ _ => exact ⟨_, _, hcell⟩
          obtain ⟨text', hcell'⟩ := h.refers hcell
          rw [hcell.worthIn_iff] at hv
          rw [hcell'.worthIn_iff]
          exact h.cellWorthIn_of_worthIn hv fun m hm _ _ => ih m hm

/-- A derivation gets no higher. -/
theorem cellWorthIn {n : Nat} {p : Position} {v : Value} (hv : g.CellWorthIn n p v) :
    g'.CellWorthIn n p v :=
  h.cellWorthIn_of_worthIn hv fun _ _ _ _ => h.worthIn

/-- An integer that a cell holds now is what the cell was worth before. -/
theorem cellWorth_of_integer {p : Position} {text : String} {v : Value}
    (hget : g'.get? p = some text) (hv : Value.read? text = some v) : g.CellWorth p v := by
  rcases h.get?_cases p with hkept | ⟨-, u, hu, hget'⟩
  · exact .integer (hkept.symm.trans hget) hv
  · obtain rfl := Option.some.inj (hget'.symm.trans hget)
    rw [Value.read?_text] at hv
    obtain rfl := Option.some.inj hv
    exact hu

theorem worth_of_worth {operand : String} {v : Value} (hv : g'.Worth operand v) :
    g.Worth operand v := by
  have hback : ∀ {name p text u}, g'.Refers name p text → g.CellWorth p u → g.Worth name u := by
    intro name p text u hcell hu
    obtain ⟨text', hcell'⟩ := h.refers_of_refers hcell
    exact hcell'.worth_iff.2 hu
  induction hv with
  | integer hv => exact .integer hv
  | cell hcell hv => exact hback hcell (h.cellWorth_of_integer hcell.get? hv)
  | formula hcell hparse _ _ hresult ihl ihr =>
      have hget := h.get?_of_formula hcell.get? (Formula.isFormulaText_of_parse hparse)
      exact hback hcell (.formula hget hparse ⟨_, _, ihl, ihr, hresult⟩)

/-- **No operand changes its worth.** -/
theorem worth_iff {operand : String} {v : Value} : g'.Worth operand v ↔ g.Worth operand v := by
  refine ⟨h.worth_of_worth, fun hv => ?_⟩
  obtain ⟨n, hn⟩ := worth_iff_exists_worthIn.1 hv
  exact worth_iff_exists_worthIn.2 ⟨n, h.worthIn hn⟩

/-- **No cell changes its worth.** -/
theorem cellWorth_iff {p : Position} {v : Value} : g'.CellWorth p v ↔ g.CellWorth p v := by
  constructor
  · intro hv
    cases hv with
    | integer hget hv => exact h.cellWorth_of_integer hget hv
    | formula hget hparse hv =>
        have hget' := h.get?_of_formula hget (Formula.isFormulaText_of_parse hparse)
        exact .formula hget' hparse (hv.mono fun _ _ => h.worth_of_worth)
  · intro hv
    obtain ⟨n, hn⟩ := cellWorth_iff_exists_cellWorthIn.1 hv
    exact cellWorth_iff_exists_cellWorthIn.2 ⟨n, h.cellWorthIn hn⟩

/-- A cell that is done and worth something holds an integer. -/
theorem holdsInteger {p : Position} (hp : p ∈ done) {v : Value} (hv : g.CellWorth p v) :
    g'.holdsInteger p = true := by
  cases hformula : g.holdsFormula p with
  | true =>
      obtain ⟨u, -, hget⟩ := h.formula p hp hformula
      rw [holdsInteger_of_get? hget, Value.read?_text]
      rfl
  | false =>
      have hkept := h.other p fun hp => Bool.eq_false_iff.1 hformula hp.2
      cases hv with
      | integer hget hread =>
          rw [holdsInteger_of_get? (hkept.trans hget), hread]
          rfl
      | formula hget hparse _ =>
          rw [holdsFormula_of_get? hget, Formula.isFormulaText_of_parse hparse] at hformula
          cases hformula

theorem backs_iff {memo : Memo} : g'.Backs memo ↔ g.Backs memo := by
  simp only [Backs, h.dataPositions, h.cellWorth_iff]

/-! ### One more cell is done -/

theorem holdsFormula {p : Position} (hformula : g'.holdsFormula p = true) :
    g.holdsFormula p = true := by
  obtain ⟨text, hget, htext⟩ := holdsFormula_iff.1 hformula
  exact holdsFormula_iff.2 ⟨text, h.get?_of_formula hget htext, htext⟩

/-- No formula comes up on the way. -/
theorem formulaPositions_sublist : g'.formulaPositions.Sublist g.formulaPositions := by
  unfold Grid.formulaPositions
  rw [h.dataPositions]
  exact List.monotone_filter_right _ fun p hp => h.holdsFormula hp

/-- Writing the worth of a formula cell in its place settles the cell. -/
theorem set {p : Position} {v : Value} (hformula : g'.holdsFormula p = true)
    (hv : g'.CellWorth p v) : g.Settled (done ++ [p]) (g'.set p v.text) where
  columnOf := h.columnOf
  rowOf := h.rowOf
  size_rows := by rw [size_rows_set, h.size_rows]
  width row := by rw [width_set, h.width]
  formula q hq hq' := by
    rw [get?_set]
    by_cases hpq : p = q
    · obtain rfl := hpq
      obtain ⟨text, hget, -⟩ := holdsFormula_iff.1 hformula
      exact ⟨v, h.cellWorth_iff.1 hv, by rw [if_pos rfl, hget, Option.map_some]⟩
    · rw [if_neg hpq]
      have hdone : q ∈ done := by
        simpa [Ne.symm hpq] using hq
      exact h.formula q hdone hq'
  other q hq := by
    have hpq : p ≠ q := by
      rintro rfl
      exact hq ⟨by simp, h.holdsFormula hformula⟩
    rw [get?_set, if_neg hpq]
    refine h.other q fun hdone => hq ⟨?_, hdone.2⟩
    exact List.mem_append_left _ hdone.1

/-- A cell without a formula is settled as it is. -/
theorem skip {p : Position} (hformula : g'.holdsFormula p = false) :
    g.Settled (done ++ [p]) g' where
  columnOf := h.columnOf
  rowOf := h.rowOf
  size_rows := h.size_rows
  width := h.width
  formula q hq hq' := by
    rcases h.get?_cases q with hkept | ⟨-, hworth⟩
    · -- such a cell is not `p`, which would still hold its formula
      have hpq : q ≠ p := by
        rintro rfl
        rw [Grid.holdsFormula, hkept] at hformula
        exact Bool.eq_false_iff.1 hformula hq'
      have hdone : q ∈ done := by
        simpa [hpq] using hq
      exact h.formula q hdone hq'
    · exact hworth
  other q hq := by
    refine h.other q fun hdone => hq ⟨?_, hdone.2⟩
    exact List.mem_append_left _ hdone.1

end Settled

end Grid

end FormulaGrid
