/-
Values: the integers that a cell can hold.

A value is an integer of 64 bits with its sign, from `-2^63` to `2^63 - 1`.  Arithmetic is exact:
it is done on the integers, and a result outside the range is no value (`Value.ofInt?`).

Main results:

* `Value.ofInt?_eq_some_iff` — the range check changes no number;
* `Value.read?_text` — **a value is read back from its own text**.
-/

import FormulaGrid.Text.Integer

set_option relaxedAutoImplicit false
set_option autoImplicit false

namespace FormulaGrid

/-- An integer from `-2^63` to `2^63 - 1`. -/
@[ext] structure Value where
  /-- The integer itself. -/
  toInt : Int
  least_le : -9223372036854775808 ≤ toInt
  le_greatest : toInt ≤ 9223372036854775807
deriving DecidableEq, Repr

namespace Value

/-- The value of an integer, if the integer is in range. -/
def ofInt? (n : Int) : Option Value :=
  if h : -9223372036854775808 ≤ n ∧ n ≤ 9223372036854775807 then some ⟨n, h.1, h.2⟩ else none

@[simp] theorem ofInt?_toInt (v : Value) : ofInt? v.toInt = some v := by
  simp [ofInt?, v.least_le, v.le_greatest]

/-- The range check changes no number. -/
theorem ofInt?_eq_some_iff {n : Int} {v : Value} : ofInt? n = some v ↔ v.toInt = n := by
  constructor
  · intro h
    simp only [ofInt?] at h
    split at h
    · cases h; rfl
    · cases h
  · rintro rfl
    exact ofInt?_toInt v

/-- The integers that are no values. -/
theorem ofInt?_eq_none_iff {n : Int} :
    ofInt? n = none ↔ n < -9223372036854775808 ∨ 9223372036854775807 < n := by
  unfold ofInt?
  split
  · simp only [reduceCtorEq, false_iff]
    omega
  · simp only [true_iff]
    omega

/-- A cell or an operand that is written as a plain integer in range. -/
def read? (text : String) : Option Value := (Text.integer? text.toList).bind ofInt?

/-- The decimal text of a value. -/
def text (v : Value) : String := String.ofList (Text.decimal v.toInt)

/-- **A value is read back from its own text.** -/
@[simp] theorem read?_text (v : Value) : read? v.text = some v := by
  simp [read?, text, Text.integer?_decimal]

end Value

end FormulaGrid
