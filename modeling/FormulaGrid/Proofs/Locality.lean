/-
**An answer depends on the cells that the operand reaches, and on no others.**

The evaluation of an operand goes from the cell that it names to the cells that the operands of
its formula name, and so on.  Whatever is written into any other cell, the answer stays as it is:
the value, or the fault with every text and every name that it shows, also where the way leads
round a loop or down to the bound.

Main definitions:

* `Grid.DependsOn` — the cells that an operand reaches;
* `Grid.AgreesFor` — two grids that hold the same in these cells;
* `Grid.encloses` — a check that some operands reach no other cells than the given ones.

Main results:

* `Calculator.answer_of_agreesFor` — **grids that agree on the cells of an operand give it the same
  answer**;
* `Calculator.operand_set` — **what is written into another cell changes no answer**.
-/

import FormulaGrid.Layout
import FormulaGrid.Proofs.Evaluation

set_option relaxedAutoImplicit false
set_option autoImplicit false

namespace FormulaGrid

/-- The answer of a formula is settled by the answers of its two operands. -/
theorem Formula.answer_congr {f : Formula} {asked asked' : String → Memo → Answer}
    (h : ∀ name, f.Mentions name → ∀ memo, asked' name memo = asked name memo) (memo : Memo) :
    f.answer asked' memo = f.answer asked memo := by
  have hleft := h f.left (.inl rfl)
  have hright := h f.right (.inr rfl)
  simp only [answer, hleft, hright]

namespace Grid

/-! ### The cells of an operand -/

/-- The cells that an operand depends on: the cell that it names, and if that cell holds a formula,
the cells that the operands of the formula depend on. -/
inductive DependsOn (g : Grid) : String → Position → Prop
  | cell {operand text : String} {p : Position} (hcell : g.Refers operand p text) :
      DependsOn g operand p
  | formula {operand name text : String} {p q : Position} {f : Formula}
      (hcell : g.Refers operand p text) (hparse : Formula.parse text = .ok f)
      (hm : f.Mentions name) (h : DependsOn g name q) : DependsOn g operand q

/-- In `g'` the same names stand for the same places as in `g`, there are no further cells, and the
cells that the operand depends on hold what they hold in `g`. -/
structure AgreesFor (g g' : Grid) (operand : String) : Prop where
  find : ∀ name, g'.find name = g.find name
  get?_none : ∀ p, g.get? p = none → g'.get? p = none
  get? : ∀ p, g.DependsOn operand p → g'.get? p = g.get? p

variable {g g' : Grid} {operand name text : String} {p : Position} {f : Formula}

/-- Writing a cell that the operand does not depend on leaves all cells that it depends on. -/
theorem agreesFor_set (h : ¬ g.DependsOn operand p) (text : String) :
    g.AgreesFor (g.set p text) operand where
  find name := g.find_set p text name
  get?_none q hq := by
    rw [get?_set, hq]
    split <;> rfl
  get? q hq := by
    rw [get?_set, if_neg]
    rintro rfl
    exact h hq

namespace AgreesFor

variable (h : g.AgreesFor g' operand)

include h

/-- What agrees for an operand agrees for the operands of the formula that it names. -/
theorem of_mentions (hcell : g.Refers operand p text) (hparse : Formula.parse text = .ok f)
    (hm : f.Mentions name) : g.AgreesFor g' name where
  find := h.find
  get?_none := h.get?_none
  get? q hq := h.get? q (.formula hcell hparse hm hq)

theorem lookUp (hname : Value.read? operand = none) : g'.lookUp operand = g.lookUp operand := by
  unfold Grid.lookUp
  rw [h.find]
  cases hfind : g.find operand with
  | error e => rfl
  | ok p =>
      dsimp only
      cases hget : g.get? p with
      | none => rw [h.get?_none p hget]
      | some text =>
          have hcell : g.Refers operand p text := ⟨hname, lookUp_eq_ok_iff.2 ⟨hfind, hget⟩⟩
          rw [h.get? p (.cell hcell), hget]

end AgreesFor

/-! ### A check for the cells of operands -/

/-- The operands `names` are closed under following formulas, and they name no cells but `cells`. -/
def encloses (g : Grid) (names : List String) (cells : List Position) : Bool :=
  names.all fun name => (Value.read? name).isSome ||
    match g.lookUp name with
    | .error _ => true
    | .ok (p, text) => decide (p ∈ cells) &&
      match Formula.parse text with
      | .error _ => true
      | .ok f => decide (f.left ∈ names ∧ f.right ∈ names)

/-- Operands that pass the check depend on the given cells only. -/
theorem DependsOn.mem_of_encloses {names : List String} {cells : List Position}
    (hcheck : g.encloses names cells = true) (h : g.DependsOn operand p)
    (hname : operand ∈ names) : p ∈ cells := by
  have hstep : ∀ {name p text}, name ∈ names → g.Refers name p text → p ∈ cells ∧
      ∀ f, Formula.parse text = .ok f → f.left ∈ names ∧ f.right ∈ names := by
    intro name p text hname hcell
    have hthis := List.all_eq_true.1 hcheck name hname
    simp only [hcell.1, hcell.2, Option.isSome_none, Bool.false_or, Bool.and_eq_true,
      decide_eq_true_eq] at hthis
    obtain ⟨hp, hformula⟩ := hthis
    refine ⟨hp, fun f hparse => ?_⟩
    simpa [hparse] using hformula
  induction h with
  | cell hcell => exact (hstep hname hcell).1
  | formula hcell hparse hm _ ih =>
      obtain ⟨hleft, hright⟩ := (hstep hname hcell).2 _ hparse
      rcases hm with rfl | rfl
      · exact ih hleft
      · exact ih hright

end Grid

/-! ### Answers on two grids -/

namespace Calculator

/-- The calculator on another grid. -/
def onGrid (c : Calculator) (g : Grid) : Calculator := { c with grid := g }

variable {c : Calculator} {g : Grid} {operand : String}

theorem keep_onGrid (c : Calculator) (g : Grid) (p : Position) (o : Answer) :
    (c.onGrid g).keep p o = c.keep p o := rfl

/-- An operand is read in the same way. -/
theorem read_of_agreesFor (h : c.grid.AgreesFor g operand) (memo : Memo) :
    (c.onGrid g).read memo operand = c.read memo operand := by
  unfold read
  cases hname : Value.read? operand with
  | some v => rfl
  | none =>
      have hlook : (c.onGrid g).grid.lookUp operand = c.grid.lookUp operand := h.lookUp hname
      rw [hlook]
      rfl

/-- **Grids that agree on the cells of an operand give it the same answer**, in every nesting and
with every memo. -/
theorem answer_of_agreesFor (room : Nat) (n : Nesting) (memo : Memo)
    (h : c.grid.AgreesFor g operand) :
    (c.onGrid g).answer room n operand memo = c.answer room n operand memo := by
  revert h
  induction room, n, operand, memo using c.answer_induction with
  | fault room n operand memo e hread =>
      intro h
      exact answer_of_read_error ((read_of_agreesFor h memo).trans hread) room n
  | value room n operand memo v hread =>
      intro h
      exact answer_of_read_value ((read_of_agreesFor h memo).trans hread) room n
  | loop room n operand memo p f names hread hp =>
      intro h
      exact answer_of_loop ((read_of_agreesFor h memo).trans hread) hp room
  | noRoom n operand memo p f hread hp =>
      intro h
      exact answer_zero_of_formula ((read_of_agreesFor h memo).trans hread) hp
  | nested room n operand memo p f hread hp ih =>
      intro h
      obtain ⟨text, hcell, hparse⟩ := formula_of_read hread
      rw [answer_succ_of_formula ((read_of_agreesFor h memo).trans hread) hp, keep_onGrid]
      congr 1
      refine Formula.answer_congr (fun name hm memo => ?_) memo
      exact ih name memo (h.of_mentions hcell hparse hm)

/-- **What is written into a cell that an operand does not depend on changes nothing**: the operand
has the same value, or the same fault. -/
theorem operand_set {g : Grid} {operand : String} {p : Position} (h : ¬ g.DependsOn operand p)
    (text : String) (s : Settings) (memo : Memo) :
    (plain (g.set p text) s).operand operand memo = (plain g s).operand operand memo := by
  rw [operand_eq_answer, operand_eq_answer]
  have hagrees : (plain g s).grid.AgreesFor (g.set p text) operand := Grid.agreesFor_set h text
  exact answer_of_agreesFor s.maxDepth .empty memo hagrees

/-- Two cells refer to each other, and a third one is given a formula that refers to both: the loop
of the two is reported as before. -/
theorem operand_set_beside_loop :
    ∃ g, Grid.ofLines [",A,B,C", "1,2,5,7", "2,=B2+1,=A2*C1,0"] = .ok g ∧
      ¬ g.DependsOn "B2" ⟨1, 2⟩ ∧
      ((plain (g.set ⟨1, 2⟩ "=A2+B2") { loops := .full }).operand "B2" ∅).1 =
        .error (.loop ["B2", "A2", "B2"]) := by
  have hcheck : (Grid.ofLines [",A,B,C", "1,2,5,7", "2,=B2+1,=A2*C1,0"]).toOption.any (fun g =>
      g.encloses ["B2", "A2", "C1", "1"] [⟨2, 2⟩, ⟨2, 1⟩, ⟨1, 3⟩] &&
        decide (((plain g { loops := .full }).operand "B2" ∅).1 =
          .error (.loop ["B2", "A2", "B2"]))) = true := by
    decide +kernel
  rcases h : Grid.ofLines [",A,B,C", "1,2,5,7", "2,=B2+1,=A2*C1,0"] with e | g
  · rw [h] at hcheck
    cases hcheck
  · simp only [h, Except.toOption, Option.any_some, Bool.and_eq_true, decide_eq_true_eq] at hcheck
    obtain ⟨henclosed, hloop⟩ := hcheck
    have hp : ¬ g.DependsOn "B2" ⟨1, 2⟩ := by
      intro hp
      have hmem := hp.mem_of_encloses henclosed (by decide)
      revert hmem
      decide
    refine ⟨g, rfl, hp, ?_⟩
    rw [operand_set hp]
    exact hloop

end Calculator

end FormulaGrid
