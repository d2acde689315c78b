/-
**A formula may give way to its value, and no answer tells.**

A pass writes values over formulas while other formulas still refer to those cells.  On the new grid
an operand is read as on the old one, or it is the name of a cell that held a formula and holds the
worth of that formula now.  There the two evaluations take different shapes: one takes an integer,
and the other goes into a formula and all that it leads to.  But a cell that is worth something
lies on no loop and names nothing that has a fault, so the other one can only come to the same
value, or run out of room.  Everywhere else the two take the same steps in the same nestings, and so
their values and their faults agree, the names round a loop included.  Only the room differs: the
new grid needs no more of it than the old one, and the old one needs at most the height of the
formulas that are gone in addition.

Main results:

* `Calculator.read_of_settled` — an operand is read as before, or its cell holds its worth;
* `Calculator.answer_of_settled` — **what is answered on the old grid is answered on the new one**;
* `Calculator.answer_before_settled` — **what is answered on the new grid is answered on the old one
  with more room**;
* `Calculator.operand_set_value` — **replacing a formula by its value changes no answer**.
-/

import FormulaGrid.Proofs.Deepening
import FormulaGrid.Proofs.Locality

set_option relaxedAutoImplicit false
set_option autoImplicit false

namespace FormulaGrid

/-! ### What is read -/

namespace Grid

/-- A name is looked up as before, or it leads to a cell whose formula has given way to its
worth. -/
theorem Settled.lookUp_eq_or_replaced {g g' : Grid} {done : List Position}
    (h : g.Settled done g') (name : String) :
    g'.lookUp name = g.lookUp name ∨ ∃ p text v, g.lookUp name = .ok (p, text) ∧
      g'.lookUp name = .ok (p, v.text) ∧ g'.get? p ≠ g.get? p ∧ g.CellWorth p v := by
  cases hfind : g.find name with
  | error e => exact .inl (by simp only [Grid.lookUp, h.find, hfind])
  | ok p =>
      have hfind' : g'.find name = .ok p := (h.find name).trans hfind
      by_cases hkept : g'.get? p = g.get? p
      · exact .inl (by simp only [Grid.lookUp, hfind, hfind', hkept])
      · obtain ⟨hformula, v, hv, hget'⟩ := (h.get?_cases p).resolve_left hkept
        obtain ⟨text, hget, -⟩ := holdsFormula_iff.1 hformula
        exact .inr ⟨p, text, v, lookUp_eq_ok_iff.2 ⟨hfind, hget⟩,
          lookUp_eq_ok_iff.2 ⟨hfind', hget'⟩, hkept, hv⟩

/-- A name that leads to a formula has led to that formula before. -/
theorem Settled.refers_of_parse {g g' : Grid} {done : List Position} (h : g.Settled done g')
    {operand text : String} {p : Position} {f : Formula} (hcell : g'.Refers operand p text)
    (hparse : Formula.parse text = .ok f) : g.Refers operand p text := by
  obtain ⟨text', hcell'⟩ := h.refers_of_refers hcell
  have hget := h.get?_of_formula hcell.get? (Formula.isFormulaText_of_parse hparse)
  obtain rfl := Option.some.inj (hcell'.get?.symm.trans hget)
  exact hcell'

end Grid

namespace Calculator

variable {c : Calculator} {g' : Grid} {done : List Position}

/-- **An operand is read as before, or it is the name of a cell that holds its worth now.** -/
theorem read_of_settled (h : c.grid.Settled done g') (memo : Memo) (operand : String) :
    (c.onGrid g').read memo operand = c.read memo operand ∨
      ∃ p text v, c.grid.Refers operand p text ∧ g'.get? p ≠ c.grid.get? p ∧
        c.grid.CellWorth p v ∧ (c.onGrid g').read memo operand = .ok (.value v) := by
  have hgrid : (c.onGrid g').grid = g' := rfl
  unfold read
  rw [hgrid]
  cases hname : Value.read? operand with
  | some v => exact .inl rfl
  | none =>
      rcases h.lookUp_eq_or_replaced operand with hlook | ⟨p, text, v, hlook, hlook', hne, hv⟩
      · rw [hlook]
        exact .inl rfl
      · refine .inr ⟨p, text, v, ⟨hname, hlook⟩, hne, hv, ?_⟩
        simp only [hlook', Value.read?_text]

/-! ### Answers on the two grids -/

/-- **What is answered on the old grid is answered on the new one**, in every nesting that awaits
the operand, unless the room runs out on the old grid. -/
theorem answer_of_settled (hplain : c.usesMemo = false) (h : c.grid.Settled done g') (room : Nat)
    (n : Nesting) (operand : String) (memo : Memo) (hn : n.Awaits c.grid operand) :
    (c.answer room n operand memo).RanOut ∨
      (c.onGrid g').answer room n operand memo = c.answer room n operand memo := by
  refine answer_same (c := c) (d := c.onGrid g') (J := fun n operand => n.Awaits c.grid operand)
    rfl rfl 0 ?_ ?_ room n operand memo hn
  · intro room n operand memo hn
    rcases read_of_settled h memo operand with hread | ⟨p, text, v, hcell, -, hv, hread⟩
    · exact .inl hread
    · -- on the old grid the formula of the cell is evaluated
      have hworth : c.grid.Worth operand v := hcell.worth_iff.2 hv
      right
      rcases answer_complete room (trusts_of_plain hplain memo) hn v hworth with hres | ⟨hout, -⟩
      · rw [answer_of_read_value hread]
        exact .inr (Prod.ext hres.symm (answer_snd hplain room n operand).symm)
      · exact .inl hout
  · intro n operand memo p f name hn hread hm
    obtain ⟨text, hcell, hparse⟩ := formula_of_read hread
    exact hn.push hcell hparse hm c.settings.loops

/-- **What is answered on the new grid is answered on the old one with more room**: `height` more,
if the worths of the cells that have changed have derivations of no greater height. -/
theorem answer_before_settled (hplain : c.usesMemo = false) (h : c.grid.Settled done g')
    {height : Nat}
    (hheight : ∀ p v, g'.get? p ≠ c.grid.get? p → c.grid.CellWorth p v →
      c.grid.CellWorthIn height p v)
    (depth room : Nat) (n : Nesting) (operand : String) (memo : Memo)
    (hn : n.Awaits c.grid operand) :
    ((c.onGrid g').answer room n operand memo).RanOut ∨
      (c.withDepth depth).answer (room + height) n operand memo =
        (c.onGrid g').answer room n operand memo := by
  refine answer_same (c := c.onGrid g') (d := c.withDepth depth)
    (J := fun n operand => n.Awaits c.grid operand) rfl rfl height ?_ ?_ room n operand memo hn
  · intro room n operand memo hn
    rcases read_of_settled h memo operand with hread | ⟨p, text, v, hcell, hne, hv, hread⟩
    · exact .inl hread.symm
    · have hworth : c.grid.WorthIn (room + height) operand v := by
        rw [hcell.worthIn_iff]
        exact (hheight p v hne hv).mono (Nat.le_add_left height room)
      have hplain' : (c.withDepth depth).usesMemo = false := hplain
      have hres := (answer_complete (room + height) (trusts_of_plain hplain' memo) hn).eq_ok
        hworth.worth hworth
      rw [answer_of_read_value hread]
      exact .inr (.inr (Prod.ext hres (answer_snd hplain' (room + height) n operand)))
  · intro n operand memo p f name hn hread hm
    obtain ⟨text, hcell, hparse⟩ := formula_of_read hread
    exact hn.push (h.refers_of_parse hcell hparse) hparse hm c.settings.loops

/-! ### One formula -/

/-- **Replacing a formula by its value changes no answer.**  Let a cell of any grid hold a formula
that has a value under some bound.  Once the text of the value is written in its place, every
operand has the answer that it has had, under every loop policy and every bound: the same value or
the same fault, unless the bound was met.  And every answer on the new grid is one on the old grid,
under the sum of the two bounds, unless the bound is met on the new grid. -/
theorem operand_set_value {g : Grid} {p : Position} {text : String} {f : Formula}
    (hget : g.get? p = some text) (hparse : Formula.parse text = .ok f) {cellSettings : Settings}
    {cellMemo : Memo} {v : Value} (hv : ((plain g cellSettings).cell p f cellMemo).1 = .ok v)
    (name : String) (s : Settings) (memo : Memo) :
    (¬ Answer.RanOut ((plain g s).operand name memo) →
      (plain (g.set p v.text) s).operand name memo = (plain g s).operand name memo) ∧
    (¬ Answer.RanOut ((plain (g.set p v.text) s).operand name memo) →
      (plain g { s with maxDepth := s.maxDepth + cellSettings.maxDepth }).operand name memo =
        (plain (g.set p v.text) s).operand name memo) := by
  have hworth : g.CellWorthIn cellSettings.maxDepth p v :=
    cellWorthIn_of_cell (c := plain g cellSettings) rfl hget hparse hv
  have hcell : g.CellWorth p v := Grid.cellWorth_iff_exists_cellWorthIn.2 ⟨_, hworth⟩
  have hformula : g.holdsFormula p = true :=
    Grid.holdsFormula_iff.2 ⟨text, hget, Formula.isFormulaText_of_parse hparse⟩
  have hset : g.Settled ([] ++ [p]) (g.set p v.text) := (Grid.Settled.refl g).set hformula hcell
  have hheight : ∀ q u, (g.set p v.text).get? q ≠ g.get? q → g.CellWorth q u →
      g.CellWorthIn cellSettings.maxDepth q u := by
    intro q u hne hu
    have hpq : p = q := by
      by_contra hpq
      exact hne (by rw [Grid.get?_set, if_neg hpq])
    subst hpq
    obtain rfl := hcell.unique hu
    exact hworth
  have hn := Nesting.awaits_empty g name
  simp only [operand_eq_answer]
  constructor
  · intro hroom
    exact (answer_of_settled (c := plain g s) rfl hset s.maxDepth .empty name memo hn).resolve_left
      hroom
  · intro hroom
    exact (answer_before_settled (c := plain g s) rfl hset hheight
      (s.maxDepth + cellSettings.maxDepth) s.maxDepth .empty name memo hn).resolve_left hroom

/-- `A1` gives way to the least value.  The loop of `D1` and `E1`, on which `A1` does not lie, is
reported as before; and `C1`, for which one level of nesting suffices then, has had its value with
two. -/
theorem operand_set_value_least :
    let v : Value := ⟨-9223372036854775808, by decide, by decide⟩
    let lines := [",A,B,C,D,E", "1,=B1-1,-9223372036854775807,=A1+5,=A1*E1,=D1+1"]
    ∃ g, Grid.ofLines lines = .ok g ∧ g.get? ⟨1, 1⟩ = some "=B1-1" ∧
      ((plain g { maxDepth := 1 }).cell ⟨1, 1⟩ ⟨"B1", .sub, "1"⟩ ∅).1 = .ok v ∧
      ((plain (g.set ⟨1, 1⟩ v.text) { loops := .full }).operand "D1" ∅).1 =
        .error (.loop ["D1", "E1", "D1"]) ∧
      ((plain g { maxDepth := 2 }).operand "C1" ∅).1 =
        .ok ⟨-9223372036854775803, by decide, by decide⟩ := by
  intro v lines
  have hcheck : (Grid.ofLines lines).toOption.any (fun g => decide (
      g.get? ⟨1, 1⟩ = some "=B1-1" ∧
      ((plain g { maxDepth := 1 }).cell ⟨1, 1⟩ ⟨"B1", .sub, "1"⟩ ∅).1 = .ok v ∧
      ((plain g { loops := .full }).operand "D1" ∅).1 = .error (.loop ["D1", "E1", "D1"]) ∧
      ((plain (g.set ⟨1, 1⟩ v.text) { maxDepth := 1 }).operand "C1" ∅).1 =
        .ok ⟨-9223372036854775803, by decide, by decide⟩)) = true := by
    decide +kernel
  rcases h : Grid.ofLines lines with e | g
  · rw [h] at hcheck
    cases hcheck
  · simp only [h, Except.toOption, Option.any_some, decide_eq_true_eq] at hcheck
    obtain ⟨hget, hcell, hloop, hvalue⟩ := hcheck
    have hparse : Formula.parse "=B1-1" = .ok ⟨"B1", .sub, "1"⟩ := by decide +kernel
    refine ⟨g, rfl, hget, hcell, ?_, ?_⟩
    · have hset := (operand_set_value hget hparse hcell "D1" { loops := .full } ∅).1
      rw [hset]
      · exact hloop
      · rintro ⟨name, limit, hout⟩
        cases hloop.symm.trans hout
    · have hbefore := (operand_set_value hget hparse hcell "C1" { maxDepth := 1 } ∅).2
      refine (congrArg Prod.fst (hbefore ?_)).trans hvalue
      rintro ⟨name, limit, hout⟩
      cases hvalue.symm.trans hout

end Calculator

end FormulaGrid
