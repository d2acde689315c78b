/-
Formulas: `=`, an operand, an operation, an operand.

The first operation symbol after the `=` is the operation of the formula.  So the left operand
holds no symbol, and whatever follows the first symbol is the right operand, further symbols
included.

Main definitions:

* `Formula.parse`, `Formula.text` — a formula from its text, and its text without the `=`;
* `Formula.Mentions` — an operand of the formula is, letter by letter, a given text;
* `Formula.result` — the value of the formula from the values of its operands.
-/

import FormulaGrid.Fault
import FormulaGrid.Operation

set_option relaxedAutoImplicit false
set_option autoImplicit false

namespace FormulaGrid

/-- An operation on two operands, each an integer or the name of a cell. -/
structure Formula where
  left : String
  op : Operation
  right : String
deriving DecidableEq, Repr

namespace Formula

/-- The text of a formula after its `=`. -/
def text (f : Formula) : String := f.left ++ f.op.symbol.toString ++ f.right

/-- A text that is meant as a formula: it starts with `=`. -/
def isFormulaText (text : String) : Bool := text.toList.head? == some '='

/-- A character that writes no operation. -/
def isPlain (c : Char) : Bool := (Operation.ofSymbol? c).isNone

/-- A text cut at its first operation symbol. -/
def cut? (body : List Char) : Option (List Char × Operation × List Char) :=
  match body.dropWhile isPlain with
  | [] => none
  | c :: right => (Operation.ofSymbol? c).map fun op => (body.takeWhile isPlain, op, right)

/-- Reads a formula such as `=A1+B1`.  The checks come in this order: the `=`, the length, the
operation, the left operand, the right operand. -/
def parse (text : String) : Except Fault Formula :=
  match text.toList with
  | '=' :: body =>
    if text.utf8ByteSize < 4 then .error (.formulaTooShort text)
    else match cut? body with
      | none => .error (.noOperation (String.ofList body))
      | some ([], _, _) => .error (.noLeftOperand (String.ofList body))
      | some (_, _, []) => .error (.noRightOperand (String.ofList body))
      | some (left, op, right) => .ok ⟨String.ofList left, op, String.ofList right⟩
  | _ => .error (.notFormula text)

/-- One of the operands is the text `operand`. -/
def Mentions (f : Formula) (operand : String) : Prop := f.left = operand ∨ f.right = operand

instance (f : Formula) (operand : String) : Decidable (f.Mentions operand) :=
  inferInstanceAs (Decidable (_ ∨ _))

/-- The value of the formula when its operands have the values `a` and `b`.  An operation without
a result is a division by zero if it divides by zero, and else an overflow. -/
def result (f : Formula) (a b : Value) : Except Fault Value :=
  match f.op.valueResult a b with
  | some v => .ok v
  | none =>
    if f.op = .div ∧ b.toInt = 0 then .error (.divisionByZero f.text)
    else .error (.overflow f.text)

theorem result_eq_ok_iff {f : Formula} {a b v : Value} :
    f.result a b = .ok v ↔ f.op.integerResult a.toInt b.toInt = some v.toInt := by
  rw [← Operation.valueResult_eq_some_iff]
  unfold result
  split
  · next w h => simp [h]
  · next h =>
    rw [h]
    split <;> simp

end Formula

end FormulaGrid
