/-
Faults: the reasons for which an operand or a formula has no value.

Each constructor is one reason and carries the texts that its message shows.
-/

set_option relaxedAutoImplicit false
set_option autoImplicit false

namespace FormulaGrid

/-- Why an operand or a formula has no value.  A `body` is the text of a formula after its `=`. -/
inductive Fault
  | unknownCell (name : String)
  | notFormula (text : String)
  | formulaTooShort (text : String)
  | noOperation (body : String)
  | noLeftOperand (body : String)
  | noRightOperand (body : String)
  | selfReference (name text : String)
  /-- Following operands leads round the cells `names`; the first and the last are one cell. -/
  | loop (names : List String)
  | divisionByZero (formula : String)
  | overflow (formula : String)
  /-- Evaluating `name` would nest more than `limit` formulas. -/
  | tooDeep (name : String) (limit : Nat)
deriving DecidableEq, Repr

def Fault.message : Fault → String
  | unknownCell name => s!"invalid cell address: not found: {name}"
  | notFormula text => s!"invalid cell expression: not a formula: {text}"
  | formulaTooShort text => s!"invalid cell expression: {text}"
  | noOperation body => s!"invalid cell: operator not found: {body}"
  | noLeftOperand body => s!"invalid cell: no left operand: {body}"
  | noRightOperand body => s!"invalid cell: no right operand: {body}"
  | selfReference name text => s!"invalid cell address: recursion: {name} value is {text}"
  | loop names => "circular reference: " ++ " -> ".intercalate names
  | divisionByZero formula => s!"invalid expression {formula}: division by zero"
  | overflow formula => s!"invalid expression {formula}: integer overflow"
  | tooDeep name limit => s!"recursion too deep while resolving {name} (limit {limit})"

end FormulaGrid
