/-
The four operations of a formula.

Main definitions:

* `Operation.ofSymbol?`, `Operation.symbol` — an operation and the character that writes it;
* `Operation.integerResult` — the result on all integers, with division towards zero;
* `Operation.valueResult` — the result on values, if it is a value itself.
-/

import FormulaGrid.Value

set_option relaxedAutoImplicit false
set_option autoImplicit false

namespace FormulaGrid

/-- An operation with two operands. -/
inductive Operation
  | add
  | sub
  | mul
  | div
deriving DecidableEq, Repr

namespace Operation

/-- The character that writes the operation. -/
def symbol : Operation → Char
  | add => '+'
  | sub => '-'
  | mul => '*'
  | div => '/'

/-- The operation that a character writes. -/
def ofSymbol? (c : Char) : Option Operation :=
  if c = '+' then some add
  else if c = '-' then some sub
  else if c = '*' then some mul
  else if c = '/' then some div
  else none

@[simp] theorem ofSymbol?_symbol (op : Operation) : ofSymbol? op.symbol = some op := by
  cases op <;> rfl

theorem ofSymbol?_eq_some_iff {c : Char} {op : Operation} :
    ofSymbol? c = some op ↔ c = op.symbol := by
  constructor
  · intro h
    unfold ofSymbol? at h
    split at h
    · cases h; assumption
    split at h
    · cases h; assumption
    split at h
    · cases h; assumption
    split at h
    · cases h; assumption
    · cases h
  · rintro rfl
    exact ofSymbol?_symbol op

/-- The result on the integers.  Division drops the fraction, and division by zero has no
result. -/
def integerResult : Operation → Int → Int → Option Int
  | add, a, b => some (a + b)
  | sub, a, b => some (a - b)
  | mul, a, b => some (a * b)
  | div, a, b => if b = 0 then none else some (a.tdiv b)

/-- The result on values: the exact result, if it is in range. -/
def valueResult (op : Operation) (a b : Value) : Option Value :=
  (op.integerResult a.toInt b.toInt).bind Value.ofInt?

/-- **The result on values is the exact result.** -/
theorem valueResult_eq_some_iff {op : Operation} {a b v : Value} :
    op.valueResult a b = some v ↔ op.integerResult a.toInt b.toInt = some v.toInt := by
  simp only [valueResult, Option.bind_eq_some_iff, Value.ofInt?_eq_some_iff]
  constructor
  · rintro ⟨n, hn, rfl⟩
    exact hn
  · exact fun h => ⟨v.toInt, h, rfl⟩

end Operation

end FormulaGrid
