/-
**Whatever is done with a worksheet, its memo holds worths.**

A worksheet goes through a history of evaluations, passes and changes of its settings.  The memo
is filled by evaluations that fail later, by passes that stop midway, and by evaluations of
formulas as if they stood in cells that hold others; and it is used after the grid was rewritten
and the bound was changed.  The invariant `Worksheet.Settles` of a pass carries over all this: the
grid has only lost formulas to their worths, and so a value that the memo holds is still the worth
of its cell, and was it from the start.

Main definitions:

* `Request`, `Calculator.ask` — what can be evaluated;
* `Request.Worth` — what a request is worth in a grid;
* `Action`, `Worksheet.perform`, `Worksheet.after` — a history of a worksheet.

Main results:

* `Worksheet.after_settles` — a history keeps the invariant;
* `Worksheet.coherent_of_ofLines` — **in every history the memo holds worths, and answers that use
  it are the answers without it**.
-/

import FormulaGrid.Proofs.Memo
import FormulaGrid.Proofs.Pass

set_option relaxedAutoImplicit false
set_option autoImplicit false

namespace FormulaGrid

/-! ### Requests -/

/-- Something to evaluate. -/
inductive Request
  | operand (name : String)
  | formulaText (text : String)
  | formula (f : Formula)
  /-- A formula as if it stood in the cell `p`. -/
  | cell (p : Position) (f : Formula)

/-- What a request is worth. -/
def Request.Worth (g : Grid) : Request → Value → Prop
  | operand name, v => g.Worth name v
  | formulaText text, v => ∃ f, Formula.parse text = .ok f ∧ f.WorthBy g.Worth v
  | formula f, v | cell _ f, v => f.WorthBy g.Worth v

/-- The formula of a request for a cell is the one that the cell holds. -/
def Request.Stored (g : Grid) : Request → Prop
  | cell p f => ∃ text, g.get? p = some text ∧ Formula.parse text = .ok f
  | _ => True

namespace Calculator

/-- The value of a request. -/
def ask {M : Type} [MemoStore M] (c : Calculator) : Request → M → Except Fault Value × M
  | .operand name => c.operand name
  | .formulaText text => c.formulaText text
  | .formula f => c.formula f
  | .cell p f => c.cell p f

variable {c : Calculator} {memo : Memo}

theorem backs_of_ask (r : Request) (hb : c.grid.Backs memo) :
    c.grid.Backs (c.ask r memo).2 := by
  cases r with
  | operand name => exact backs_of_operand name hb
  | formula f => exact backs_of_formula f hb
  | cell p f => exact backs_of_cell p f hb
  | formulaText text =>
      rw [ask]
      cases hparse : Formula.parse text with
      | error e => rwa [formulaText_of_error hparse]
      | ok f =>
          rw [formulaText_of_ok hparse]
          exact backs_of_formula f hb

/-- With a memo of worths a value is the worth of the request. -/
theorem worth_of_ask (ht : c.Trusts memo) {r : Request} {v : Value}
    (hv : (c.ask r memo).1 = .ok v) : r.Worth c.grid v := by
  cases r with
  | operand name => exact (worth_of_operand name ht).2 v hv
  | formula f => exact (worth_of_formula f ht).2 v hv
  | cell p f => exact (worth_of_cell p f ht).2 v hv
  | formulaText text =>
      rw [ask] at hv
      cases hparse : Formula.parse text with
      | error e =>
          rw [formulaText_of_error hparse] at hv
          cases hv
      | ok f =>
          rw [formulaText_of_ok hparse] at hv
          exact ⟨f, hparse, (worth_of_formula f ht).2 v hv⟩

/-- With a memo of worths a request has the answer that it has without a memo, unless the bound is
met without one. -/
theorem ask_follows {d : Calculator} (hgrid : d.grid = c.grid)
    (hloops : d.settings.loops = c.settings.loops) (hplain : c.usesMemo = false)
    (hdepth : d.settings.maxDepth = c.settings.maxDepth) {r : Request} (hr : r.Stored c.grid)
    (m : Memo) (ht : d.Trusts memo) :
    Answer.RanOut (c.ask r m) ∨ (d.ask r memo).1 = (c.ask r m).1 := by
  cases r with
  | operand name =>
      exact (operand_follows hgrid hloops hplain hdepth name m ht).imp id And.left
  | formula f => exact (formula_follows hgrid hloops hplain hdepth f m ht).imp id And.left
  | cell p f =>
      obtain ⟨text, hget, hparse⟩ := hr
      exact (cell_follows hgrid hloops hplain hdepth hget hparse m ht).imp id And.left
  | formulaText text =>
      rw [ask, ask]
      cases hparse : Formula.parse text with
      | error e =>
          rw [formulaText_of_error hparse, formulaText_of_error hparse]
          exact .inr rfl
      | ok f =>
          rw [formulaText_of_ok hparse, formulaText_of_ok hparse]
          exact (formula_follows hgrid hloops hplain hdepth f m ht).imp id And.left

end Calculator

/-! ### Histories -/

/-- What can be done with a worksheet. -/
inductive Action
  /-- A request is evaluated, with the memo of the worksheet or without one. -/
  | ask (cached : Bool) (r : Request)
  | evaluateAll
  | configure (s : Settings)
  /-- The memo is emptied. -/
  | forget

namespace Worksheet

/-- The calculator for evaluations with the memo of the worksheet, or without one. -/
def calculator (w : Worksheet) : (cached : Bool) → Calculator
  | true => .remembering w.grid w.settings
  | false => .plain w.grid w.settings

/-- The worksheet that an action leaves. -/
def perform (w : Worksheet) : Action → Worksheet
  | .ask cached r => { w with memo := ((w.calculator cached).ask r w.memo).2 }
  | .evaluateAll => w.evaluateAll.2
  | .configure s => { w with settings := s }
  | .forget => { w with memo := ∅ }

/-- The worksheet after a history. -/
def after (w : Worksheet) (history : List Action) : Worksheet := history.foldl perform w

@[simp] theorem calculator_grid (w : Worksheet) (cached : Bool) :
    (w.calculator cached).grid = w.grid := by
  cases cached <;> rfl

variable {w : Worksheet} {g : Grid} {done : List Position}

theorem perform_settles (a : Action) (h : w.Settles g done) :
    ∃ done', (w.perform a).Settles g done' := by
  cases a with
  | configure s => exact ⟨done, h.settled, h.backs⟩
  | forget => exact ⟨done, h.settled, w.grid.backs_empty⟩
  | evaluateAll =>
      obtain ⟨qs, -, hw, -⟩ := evaluateCells_settles w.grid.dataPositions {} h
      exact ⟨done ++ qs, hw⟩
  | ask cached r =>
      have hbacks := (w.calculator cached).backs_of_ask r (by simpa using h.backs)
      rw [calculator_grid] at hbacks
      exact ⟨done, h.settled, hbacks⟩

/-- A history only settles cells of the grid, and fills the memo with worths. -/
theorem after_settles (history : List Action) (h : w.Settles g done) :
    ∃ done', (w.after history).Settles g done' := by
  induction history generalizing w done with
  | nil => exact ⟨done, h⟩
  | cons a history ih =>
      obtain ⟨done', h'⟩ := perform_settles a h
      exact ih h'

/-- **The memo is coherent in every history.**  Each of its values belongs to a data cell and is
what the cell is worth, now and in the grid as it was read.  So a value that is found with the
memo is the worth of the request; and if the formulas of cells are those that the cells hold, the
answer with the memo is the answer without it, unless that one meets the bound. -/
theorem coherent_of_ofLines {lines : List String} {settings : Settings} {w₀ : Worksheet}
    (h : ofLines lines settings = .ok w₀) (history : List Action) :
    let w := w₀.after history
    (∀ p v, w.memo[p]? = some v →
      p ∈ w.grid.dataPositions ∧ w.grid.CellWorth p v ∧ w₀.grid.CellWorth p v) ∧
    ∀ r : Request,
      (∀ v, ((w.calculator true).ask r w.memo).1 = .ok v → r.Worth w.grid v) ∧
      (r.Stored w.grid → Answer.RanOut ((w.calculator false).ask r w.memo) ∨
        ((w.calculator true).ask r w.memo).1 = ((w.calculator false).ask r w.memo).1) := by
  obtain ⟨g, -, rfl⟩ : ∃ g, Grid.ofLines lines = .ok g ∧ new g settings = w₀ := by
    unfold ofLines at h
    cases hg : Grid.ofLines lines with
    | error e => simp [hg, Except.map] at h
    | ok g => exact ⟨g, rfl, by simpa [hg, Except.map] using h⟩
  obtain ⟨done, hw⟩ := after_settles history (settles_new g settings)
  intro w
  refine ⟨fun p v hv => ?_, fun r => ⟨fun v hv => ?_, fun hr => ?_⟩⟩
  · obtain ⟨hp, hworth⟩ := hw.backs p v hv
    exact ⟨hp, hworth, hw.settled.cellWorth_iff.1 hworth⟩
  · exact Calculator.worth_of_ask (c := w.calculator true) (fun _ => hw.backs) hv
  · exact Calculator.ask_follows (c := w.calculator false) (d := w.calculator true) rfl rfl rfl
      rfl hr w.memo fun _ => hw.backs

/-- A pass stops at a name that is unknown, and the memo has kept the value of a cell that it was
asked for before. -/
theorem coherent_of_stopped_pass :
    ∃ w₀, ofLines [",A,B", "1,=B1+1,=2*3", "2,=A9+1,1"] { memoize := true } = .ok w₀ ∧
      ∃ v, (w₀.after [.evaluateAll, .configure {}]).memo[(⟨1, 2⟩ : Position)]? = some v ∧
        v.toInt = 6 ∧ w₀.grid.CellWorth ⟨1, 2⟩ v := by
  have hmemo : ((ofLines [",A,B", "1,=B1+1,=2*3", "2,=A9+1,1"] { memoize := true }).toOption.bind
      fun w => (w.after [.evaluateAll, .configure {}]).memo[(⟨1, 2⟩ : Position)]?).map Value.toInt =
        some 6 := by
    decide +kernel
  rcases h : ofLines [",A,B", "1,=B1+1,=2*3", "2,=A9+1,1"] { memoize := true } with e | w₀
  · rw [h] at hmemo
    cases hmemo
  · rw [h] at hmemo
    obtain ⟨v, hv, hsix⟩ := Option.map_eq_some_iff.1 hmemo
    exact ⟨w₀, rfl, v, hv, hsix, ((coherent_of_ofLines h _).1 _ v hv).2.2⟩

end Worksheet

end FormulaGrid
