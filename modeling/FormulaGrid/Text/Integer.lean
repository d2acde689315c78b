/-
Integers as decimal text.

Main definitions:

* `Text.digits?` — the number that a run of ASCII digits writes;
* `Text.natural?`, `Text.integer?` — the same with an optional sign in front;
* `Text.decimal` — the shortest text of an integer.

Main result: `Text.integer?_decimal` — **an integer is read back from its own text**.
-/

set_option relaxedAutoImplicit false
set_option autoImplicit false

namespace FormulaGrid

namespace Text

/-- The number written by a run of one or more ASCII digits.  Leading zeros count for nothing, and
nothing else may stand between the digits. -/
def digits? (cs : List Char) : Option Nat :=
  if cs ≠ [] ∧ cs.all Char.isDigit then some (Nat.ofDigitChars 10 cs 0) else none

/-- A natural number: digits, with at most one `+` before them. -/
def natural? : List Char → Option Nat
  | '+' :: cs => digits? cs
  | cs => digits? cs

/-- An integer: digits, with at most one sign before them. -/
def integer? : List Char → Option Int
  | '+' :: cs => (digits? cs).map Int.ofNat
  | '-' :: cs => (digits? cs).map fun n => -Int.ofNat n
  | cs => (digits? cs).map Int.ofNat

/-- The shortest decimal text of an integer. -/
def decimal : Int → List Char
  | .ofNat n => Nat.toDigits 10 n
  | .negSucc n => '-' :: Nat.toDigits 10 (n + 1)

theorem digits?_toDigits (n : Nat) : digits? (Nat.toDigits 10 n) = some n := by
  have hne : Nat.toDigits 10 n ≠ [] := Nat.toDigits_ne_nil
  have hall : (Nat.toDigits 10 n).all Char.isDigit = true := by
    rw [List.all_eq_true]
    exact fun c hc => Nat.isDigit_of_mem_toDigits (by decide) (by decide) hc
  rw [digits?, if_pos ⟨hne, hall⟩, Nat.ofDigitChars_ten_toDigits]

/-- Text that starts with a digit is read without a sign. -/
theorem integer?_of_isDigit_head {c : Char} {cs : List Char} (h : c.isDigit = true) :
    integer? (c :: cs) = (digits? (c :: cs)).map Int.ofNat := by
  unfold integer?
  split
  · next heq => cases heq; exact absurd h (by decide)
  · next heq => cases heq; exact absurd h (by decide)
  · rfl

/-- **An integer is read back from its own text.** -/
theorem integer?_decimal (n : Int) : integer? (decimal n) = some n := by
  cases n with
  | ofNat n =>
      cases hd : Nat.toDigits 10 n with
      | nil => exact absurd hd Nat.toDigits_ne_nil
      | cons c cs =>
          have hc : c.isDigit = true :=
            Nat.isDigit_of_mem_toDigits (b := 10) (n := n) (by decide) (by decide) (by simp [hd])
          rw [decimal, hd, integer?_of_isDigit_head hc, ← hd, digits?_toDigits]
          rfl
  | negSucc n =>
      rw [decimal]
      simp only [integer?, digits?_toDigits, Option.map_some]
      rfl

end Text

end FormulaGrid
