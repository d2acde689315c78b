/-
**A greater bound changes only what the bound has stopped.**

Two calculators evaluate one grid from one memo, and the second one may nest more formulas.  They
read the same operands and take the same steps, and the bound is looked at in one place only, where
a formula cell is entered.  So the second has the answer of the first and leaves the memo that the
first leaves, unless the first has run out of room there.  Nothing has to be known of the memo: a
value that it holds is taken by both, whether it is right or not.

Main definitions:

* `Calculator.withDepth`, `Worksheet.withDepth` — the same under another bound;
* `Worksheet.Deepens` — how a run ends under a greater bound.

Main results:

* `Calculator.answer_same` — **two calculators that read alike answer alike**, unless the first runs
  out of room;
* `Calculator.answer_deeper`, `Calculator.ask_deeper` — **with more room an evaluation has the
  answer that it has had, unless it ran out of room**;
* `Worksheet.evaluateCell_deepens`, `Worksheet.evaluateCells_deepens` — one cell, and a run;
* `Worksheet.evaluateAll_deeper` — **a greater bound changes the outcome of a pass only if the pass
  met the bound**.
-/

import FormulaGrid.Proofs.History
import FormulaGrid.Proofs.Memoization

set_option relaxedAutoImplicit false
set_option autoImplicit false

namespace FormulaGrid

/-! ### Evaluations -/

/-- If the operands have the answers that they have had, unless they ran out of room, then so does
the formula. -/
theorem Formula.answer_same {f : Formula} {asked asked' : String → Memo → Answer}
    (h : ∀ name memo, f.Mentions name →
      (asked name memo).RanOut ∨ asked' name memo = asked name memo) (memo : Memo) :
    (f.answer asked memo).RanOut ∨ f.answer asked' memo = f.answer asked memo := by
  have hfollows : Answer.Follows (fun m m' => m' = m) (f.answer asked memo)
      (f.answer asked' memo) := by
    refine answer_follows (fun name m m' hm hmemo => ?_) rfl
    subst hmemo
    exact (h name m' hm).imp id Prod.ext_iff.1
  exact hfollows.imp id Prod.ext_iff.2

namespace Calculator

/-- **Two calculators that read alike answer alike**, unless the first runs out of room; the second
may have more of it.  `J` is what is known of the nesting and the operand at hand.  An operand that
the two do not read alike has to be compared by itself. -/
theorem answer_same {c d : Calculator} (hloops : d.settings.loops = c.settings.loops)
    (huse : d.usesMemo = c.usesMemo) {J : Nesting → String → Prop} (extra : Nat)
    (hread : ∀ room n operand memo, J n operand → d.read memo operand = c.read memo operand ∨
      (c.answer room n operand memo).RanOut ∨
        d.answer (room + extra) n operand memo = c.answer room n operand memo)
    (hpush : ∀ n operand memo p f name, J n operand → c.read memo operand = .ok (.formula p f) →
      f.Mentions name → J (n.push c.settings.loops p operand) name)
    (room : Nat) (n : Nesting) (operand : String) (memo : Memo) (hJ : J n operand) :
    (c.answer room n operand memo).RanOut ∨
      d.answer (room + extra) n operand memo = c.answer room n operand memo := by
  induction room using Nat.strongRecOn generalizing n operand memo with
  | _ room ih =>
      rcases hread room n operand memo hJ with hsame | hother
      · rcases hr : c.read memo operand with e | v | ⟨p, f⟩
        · rw [answer_of_read_error hr, answer_of_read_error (hsame.trans hr)]
          exact .inr rfl
        · rw [answer_of_read_value hr, answer_of_read_value (hsame.trans hr)]
          exact .inr rfl
        · have hr' := hsame.trans hr
          cases hp : n.namesFrom? p with
          | some names =>
              rw [answer_of_loop hr hp, answer_of_loop hr' hp]
              exact .inr rfl
          | none =>
              cases room with
              | zero =>
                  rw [answer_zero_of_formula hr hp]
                  exact .inl ⟨_, _, rfl⟩
              | succ room =>
                  have hf := f.answer_same (fun name memo' hm =>
                    ih room (by omega) _ name memo' (hpush n operand memo p f name hJ hr hm)) memo
                  have hkeep : ∀ o, d.keep p o = c.keep p o := by
                    rintro ⟨e | v, memo'⟩ <;> simp [keep, huse]
                  rw [Nat.add_right_comm, answer_succ_of_formula hr hp,
                    answer_succ_of_formula hr' hp, hkeep, hloops]
                  rcases hf with ⟨name, limit, hout⟩ | hsame
                  · exact .inl ⟨name, limit, (keep_fst ..).trans hout⟩
                  · exact .inr (congrArg (c.keep p) hsame)
      · exact hother

/-- The calculator under another bound on nested formulas. -/
def withDepth (c : Calculator) (depth : Nat) : Calculator :=
  { c with settings := { c.settings with maxDepth := depth } }

variable {c : Calculator} {depth : Nat}

/-- **With more room an operand has the answer that it has had**, unless it ran out of room. -/
theorem answer_deeper (room : Nat) (n : Nesting) (operand : String) (memo : Memo) {room' : Nat}
    (hroom : room ≤ room') :
    (c.answer room n operand memo).RanOut ∨
      (c.withDepth depth).answer room' n operand memo = c.answer room n operand memo := by
  obtain ⟨extra, rfl⟩ := Nat.exists_eq_add_of_le hroom
  refine answer_same (c := c) (d := c.withDepth depth) (J := fun _ _ => True) rfl rfl extra ?_ ?_
    room n operand memo trivial
  · -- what is read does not depend on the bound
    intro room n operand memo _
    exact .inl rfl
  · intros
    trivial

/-- **With a greater bound a request has the answer that it has had**, and leaves the same memo,
unless it ran out of room. -/
theorem ask_deeper (hdepth : c.settings.maxDepth ≤ depth) (r : Request) (memo : Memo) :
    Answer.RanOut (c.ask r memo) ∨ (c.withDepth depth).ask r memo = c.ask r memo := by
  have hformula : ∀ f : Formula, Answer.RanOut (c.formula f memo) ∨
      (c.withDepth depth).formula f memo = c.formula f memo := by
    intro f
    rw [formula_eq_answer, formula_eq_answer]
    exact f.answer_same (fun name memo' _ => answer_deeper _ .empty name memo' hdepth) memo
  cases r with
  | formula f => exact hformula f
  | operand name =>
      simp only [ask, operand_eq_answer]
      exact answer_deeper _ .empty name memo hdepth
  | formulaText text =>
      simp only [ask, formulaText]
      cases Formula.parse text with
      | error e => exact .inr rfl
      | ok f => exact hformula f
  | cell p f =>
      -- the cell itself takes one level of the room
      simp only [ask, cell_eq_answer]
      have hmax : (c.withDepth depth).settings.maxDepth = depth := rfl
      rw [hmax]
      cases hroom : c.settings.maxDepth with
      | zero => exact .inl ⟨_, _, rfl⟩
      | succ room =>
          obtain ⟨room', rfl⟩ : ∃ room', depth = room' + 1 := ⟨depth - 1, by omega⟩
          have hle : room ≤ room' := by omega
          exact f.answer_same (fun name memo' _ => answer_deeper room _ name memo' hle) memo

end Calculator

/-! ### Passes -/

namespace Worksheet

/-- The worksheet under another bound on nested formulas. -/
def withDepth (w : Worksheet) (depth : Nat) : Worksheet :=
  { w with settings := { w.settings with maxDepth := depth } }

/-- How a run ends under the greater bound `depth`: as it has ended, with the same grid and the same
memo, unless it met its own bound. -/
def Deepens (depth : Nat) (o o' : Except PassError Tally × Worksheet) : Prop :=
  RanOut o ∨ o' = (o.1, o.2.withDepth depth)

variable {w : Worksheet} {depth : Nat}

theorem calculator_withDepth (w : Worksheet) (depth : Nat) (cached : Bool) :
    (w.withDepth depth).calculator cached = (w.calculator cached).withDepth depth := by
  cases cached <;> rfl

theorem evaluateCell_deepens (hdepth : w.settings.maxDepth ≤ depth) (p : Position) (t : Tally) :
    Deepens depth (w.evaluateCell p t) ((w.withDepth depth).evaluateCell p t) := by
  -- the formula of the cell has the same answer, or there was no room for it
  have hcells : ∀ {f r memo}, (Calculator.remembering w.grid w.settings).cell p f w.memo =
      (r, memo) → (∃ name limit, r = .error (.tooDeep name limit)) ∨
        (Calculator.remembering w.grid (w.withDepth depth).settings).cell p f w.memo =
          (r, memo) := by
    intro f r memo hcell
    have hdeeper := Calculator.ask_deeper (c := .remembering w.grid w.settings) hdepth
      (.cell p f) w.memo
    simp only [Calculator.ask, hcell] at hdeeper
    exact hdeeper
  have hd := w.evaluateCell_deals p t
  generalize w.evaluateCell p t = o at hd
  cases hd with
  | noCell hget => exact .inr (Deals.noCell (w := w.withDepth depth) hget).evaluateCell_eq
  | integer hget hread =>
      exact .inr (Deals.integer (w := w.withDepth depth) hget hread).evaluateCell_eq
  | notInteger hget htext hread =>
      exact .inr (Deals.notInteger (w := w.withDepth depth) hget htext hread).evaluateCell_eq
  | notFormula hget htext hparse =>
      exact .inr (Deals.notFormula (w := w.withDepth depth) hget htext hparse).evaluateCell_eq
  | fault hget hparse hcell =>
      rcases hcells hcell with ⟨name, limit, hout⟩ | hcell'
      · obtain rfl := Except.error.inj hout
        exact .inl ⟨_, name, limit, rfl⟩
      · exact .inr (Deals.fault (w := w.withDepth depth) hget hparse hcell').evaluateCell_eq
  | formula hget hparse hcell =>
      rcases hcells hcell with ⟨name, limit, hout⟩ | hcell'
      · cases hout
      · exact .inr (Deals.formula (w := w.withDepth depth) hget hparse hcell').evaluateCell_eq

theorem evaluateCells_deepens (ps : List Position) (t : Tally)
    (hdepth : w.settings.maxDepth ≤ depth) :
    Deepens depth (evaluateCells ps t w) (evaluateCells ps t (w.withDepth depth)) := by
  induction ps generalizing t w with
  | nil => exact .inr rfl
  | cons p ps ih =>
      have hcell := evaluateCell_deepens hdepth p t
      have hsettings := (w.evaluateCell_deals p t).settings
      rcases hstep : w.evaluateCell p t with ⟨e | t₁, w₁⟩
      all_goals rw [hstep] at hcell hsettings
      · rw [evaluateCells_cons_of_error hstep]
        exact hcell.imp id fun hstep' => evaluateCells_cons_of_error hstep' ps
      · rcases hcell with ⟨cell, name, limit, hout⟩ | hstep'
        · cases hout
        · rw [evaluateCells_cons_of_ok hstep, evaluateCells_cons_of_ok hstep']
          exact ih t₁ (hsettings ▸ hdepth)

/-- **A greater bound changes the outcome of a pass only if the pass met the bound.**  Otherwise the
pass ends in the same way under the greater bound, for the same reason if it stops, and leaves the
same grid and the same memo.  This holds for every grid and for whatever the memo held before.
The same holds for everything else that can be evaluated, with and without the memo. -/
theorem evaluateAll_deeper {w : Worksheet} {depth : Nat} (hdepth : w.settings.maxDepth ≤ depth) :
    (¬ RanOut w.evaluateAll →
      (w.withDepth depth).evaluateAll.1 = w.evaluateAll.1 ∧
        (w.withDepth depth).evaluateAll.2.grid = w.evaluateAll.2.grid ∧
        (w.withDepth depth).evaluateAll.2.memo = w.evaluateAll.2.memo) ∧
    ∀ (cached : Bool) (r : Request), ¬ Answer.RanOut ((w.calculator cached).ask r w.memo) →
      ((w.withDepth depth).calculator cached).ask r w.memo =
        (w.calculator cached).ask r w.memo := by
  constructor
  · intro hroom
    have hrun : Deepens depth w.evaluateAll (w.withDepth depth).evaluateAll :=
      evaluateCells_deepens w.grid.dataPositions {} hdepth
    rw [hrun.resolve_left hroom]
    exact ⟨rfl, rfl, rfl⟩
  · intro cached r hroom
    rw [calculator_withDepth]
    refine (Calculator.ask_deeper ?_ r w.memo).resolve_left hroom
    cases cached <;> exact hdepth

/-- Two levels of nesting are all that the cells `A1` and `B1` take, and the division in `A2` has
nothing to do with the bound. -/
theorem evaluateAll_deeper_division :
    ∃ g, Grid.ofLines [",A,B", "1,=B1+1,=2*3", "2,=A1/0,1"] = .ok g ∧
      (new g { maxDepth := 2, memoize := true }).settings.maxDepth ≤ 4096 ∧
      ¬ RanOut (new g { maxDepth := 2, memoize := true }).evaluateAll ∧
      (new g { maxDepth := 4096, memoize := true }).evaluateAll.1 =
        .error (.inCell "A2" (.divisionByZero "A1/0")) := by
  have hstops : (Grid.ofLines [",A,B", "1,=B1+1,=2*3", "2,=A1/0,1"]).toOption.map (fun g =>
      (new g { maxDepth := 2, memoize := true }).evaluateAll.1) =
        some (.error (.inCell "A2" (.divisionByZero "A1/0"))) := by
    decide +kernel
  rcases h : Grid.ofLines [",A,B", "1,=B1+1,=2*3", "2,=A1/0,1"] with e | g
  · rw [h] at hstops
    cases hstops
  · rw [h] at hstops
    have hstops : (new g { maxDepth := 2, memoize := true }).evaluateAll.1 =
        .error (.inCell "A2" (.divisionByZero "A1/0")) := Option.some.inj hstops
    have hroom : ¬ RanOut (new g { maxDepth := 2, memoize := true }).evaluateAll := by
      rintro ⟨cell, name, limit, hout⟩
      cases hstops.symm.trans hout
    have hle : (new g { maxDepth := 2, memoize := true }).settings.maxDepth ≤ 4096 := by
      show 2 ≤ 4096
      decide
    exact ⟨g, rfl, hle, hroom, ((evaluateAll_deeper hle).1 hroom).1.trans hstops⟩

end Worksheet

end FormulaGrid
