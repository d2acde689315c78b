/-
Calculators: the evaluation of operands and formulas in a grid.

An operand is an integer or the name of a cell.  The name of an integer cell has the value of that
integer, and the name of a formula cell the value of its formula, whose operands are evaluated in
turn.  An evaluation works on two things that change on the way, the nesting of formula cells that
it is in and the memo of values computed so far, and it leaves both behind also when it ends in a
fault.

Main definitions:

* `MemoStore` — what an evaluation does with a memo, and `Memo`, the memo of a worksheet;
* `Calculator` — a grid, the settings, and whether the memo is used;
* `Calculator.read` — what an operand stands for before any formula is evaluated;
* `Calculator.step` — the value of an operand, given a way to evaluate operands one level deeper;
* `Calculator.evaluate` — the value of an operand with room for a number of nested formulas;
* `Calculator.operand`, `Calculator.formula`, `Calculator.formulaText`, `Calculator.cell` —
  evaluations that start from outside.

`Calculator.evaluate` recurses on the room that is left, so the bound on nested formulas is what
makes it end.  It is the same evaluation on whatever keeps its values: all that it does with a memo
is to look values up and to put values in.
-/

import FormulaGrid.Formula
import FormulaGrid.Grid
import FormulaGrid.Nesting

set_option relaxedAutoImplicit false
set_option autoImplicit false

namespace FormulaGrid

/-- What an evaluation does with a memo. -/
class MemoStore (M : Type) where
  get? : M → Position → Option Value
  insert : M → Position → Value → M

/-- Values of formula cells computed so far, by position. -/
abbrev Memo := Std.ExtTreeMap Position Value

@[default_instance]
instance : MemoStore Memo where
  get? memo p := memo[p]?
  insert memo p v := memo.insert p v

@[simp] theorem MemoStore.get?_memo (memo : Memo) (p : Position) :
    MemoStore.get? memo p = memo[p]? := rfl

@[simp] theorem MemoStore.insert_memo (memo : Memo) (p : Position) (v : Value) :
    MemoStore.insert memo p v = memo.insert p v := rfl

structure Work (M : Type := Memo) where
  nesting : Nesting := .empty
  memo : M

/-- An evaluation on a kind of memo: it ends with a result or a fault, and leaves its work behind
either way. -/
abbrev EvalOn (M : Type) := EStateM Fault (Work M)

abbrev Eval := EvalOn Memo

/-- What an operand stands for before any formula is evaluated. -/
inductive Reading
  | value (v : Value)
  | formula (p : Position) (f : Formula)
deriving DecidableEq, Repr

/-- Evaluates the formulas of one grid under given settings. -/
structure Calculator where
  grid : Grid
  settings : Settings
  /-- Whether values are taken from the memo and added to it. -/
  usesMemo : Bool

/-- The value of a formula, when its operands are evaluated by `operand`, the left one first. -/
def Formula.evaluate {M : Type} (f : Formula) (operand : String → EvalOn M Value) :
    EvalOn M Value := do
  let a ← operand f.left
  let b ← operand f.right
  match f.result a b with
  | .ok v => pure v
  | .error e => throw e

def Eval.within {M α : Type} (policy : LoopPolicy) (p : Position) (name : String)
    (body : EvalOn M α) : EvalOn M α := fun w =>
  match body { w with nesting := w.nesting.push policy p name } with
  | .ok a w => .ok a { w with nesting := w.nesting.pop }
  | .error e w => .error e { w with nesting := w.nesting.pop }

namespace Calculator

def plain (grid : Grid) (settings : Settings) : Calculator := ⟨grid, settings, false⟩

/-- A calculator that asks and fills the memo it is given, if the settings say so. -/
def remembering (grid : Grid) (settings : Settings) : Calculator :=
  ⟨grid, settings, settings.memoize⟩

variable {M : Type} [MemoStore M]

/-- The value that the memo has for a cell, if the memo is used. -/
def remembered? (c : Calculator) (memo : M) (p : Position) : Option Value :=
  if c.usesMemo then MemoStore.get? memo p else none

def record (c : Calculator) (p : Position) (v : Value) : EvalOn M Unit :=
  modify fun w => if c.usesMemo then { w with memo := MemoStore.insert w.memo p v } else w

/-- What an operand stands for.  An integer stands for itself, also where a cell has that name.
Any other operand is the name of a cell, and that cell holds an integer, has a value in the memo,
or holds a formula.  A formula that mentions the very text by which it was reached refers to
itself. -/
def read (c : Calculator) (memo : M) (operand : String) : Except Fault Reading :=
  match Value.read? operand with
  | some v => .ok (.value v)
  | none =>
    match c.grid.lookUp operand with
    | .error e => .error e
    | .ok (p, text) =>
      match Value.read? text with
      | some v => .ok (.value v)
      | none =>
        match c.remembered? memo p with
        | some v => .ok (.value v)
        | none =>
          match Formula.parse text with
          | .error e => .error e
          | .ok f =>
            if f.Mentions operand then .error (.selfReference operand text)
            else .ok (.formula p f)

/-- Evaluates the formula of a cell that was reached as `name`.  `deeper` evaluates the operands;
it is `none` where no further formula may be nested.  A loop is reported before the lack of
room. -/
def nested (c : Calculator) (deeper : Option (String → EvalOn M Value)) (p : Position)
    (name : String) (f : Formula) : EvalOn M Value := do
  match (← get).nesting.namesFrom? p with
  | some names => throw (.loop (names ++ [name]))
  | none =>
    match deeper with
    | none => throw (.tooDeep name c.settings.maxDepth)
    | some operand => Eval.within c.settings.loops p name (f.evaluate operand)

/-- The value of an operand, where `deeper` evaluates the operands of formulas. -/
def step (c : Calculator) (deeper : Option (String → EvalOn M Value)) (operand : String) :
    EvalOn M Value := do
  match c.read (← get).memo operand with
  | .error e => throw e
  | .ok (.value v) => pure v
  | .ok (.formula p f) =>
    let v ← c.nested deeper p operand f
    c.record p v
    pure v

/-- The value of an operand, with room for `room` nested formulas. -/
def evaluate (c : Calculator) : (room : Nat) → String → EvalOn M Value
  | 0 => c.step none
  | room + 1 => c.step (some (c.evaluate room))

/-- The evaluation of operands inside a formula that is nested where there is room for `room`
formulas, itself included. -/
def inside (c : Calculator) : (room : Nat) → Option (String → EvalOn M Value)
  | 0 => none
  | room + 1 => some (c.evaluate room)

/-- One equation for all room: what an operand is worth is settled by one step. -/
theorem evaluate_eq_step (c : Calculator) (room : Nat) :
    (c.evaluate room : String → EvalOn M Value) = c.step (c.inside room) := by
  cases room <;> rfl

/-! ### Evaluations that start from outside -/

/-- Runs an evaluation that is nested in nothing on a memo, and returns the memo it leaves. -/
def run {M : Type} (x : EvalOn M Value) (memo : M) : Except Fault Value × M :=
  match x { memo := memo } with
  | .ok v w => (.ok v, w.memo)
  | .error e w => (.error e, w.memo)

def operand (c : Calculator) (operand : String) (memo : M) : Except Fault Value × M :=
  run (c.evaluate c.settings.maxDepth operand) memo

/-- The value of a formula that stands in no cell. -/
def formula (c : Calculator) (f : Formula) (memo : M) : Except Fault Value × M :=
  run (f.evaluate (c.evaluate c.settings.maxDepth)) memo

def formulaText (c : Calculator) (text : String) (memo : M) : Except Fault Value × M :=
  match Formula.parse text with
  | .error e => (.error e, memo)
  | .ok f => c.formula f memo

/-- The value of a formula as the formula of a cell.  The cell itself is the outermost nested one,
so that loops back to it are found; its value is not added to the memo. -/
def cell (c : Calculator) (p : Position) (f : Formula) (memo : M) : Except Fault Value × M :=
  run (c.nested (c.inside c.settings.maxDepth) p (c.grid.nameOf p) f) memo

end Calculator

end FormulaGrid
