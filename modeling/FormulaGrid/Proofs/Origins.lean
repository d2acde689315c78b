/-
**Every fault has its origin in the grid.**

A fault surfaces where it was asked for, but it arises further down: the evaluation has gone from
operand to operand, each in the formula of the cell that the one before names, to the operand at
which something is wrong.  There the fault says what is wrong, and that can be read off the grid
without an evaluator: a name that no cell has, a text that is no formula, a formula that mentions
its own name, two values without a result, or as many nested formulas as the bound allows and one
more.  A loop is the one fault that is no matter of a single operand.

Main definitions:

* `Grid.LeadsIn` — one step from an operand to an operand of the formula of its cell;
* `Grid.Chain` — as many such steps as there are nested formulas;
* `Grid.Combines` — the values that the formula of a cell combines;
* `Fault.HoldsAt` — what a fault says of the operand at which it arises.

Main results:

* `Calculator.exists_chain_of_answer` — a chain for each fault, by induction on the room;
* `Calculator.exists_chain_of_operand` — **a fault is that of an operand at the end of a chain, and
  what it says holds there**.
-/

import FormulaGrid.Proofs.Faults
import FormulaGrid.Layout

set_option relaxedAutoImplicit false
set_option autoImplicit false

namespace FormulaGrid

namespace Grid

/-- The operand `a` leads to the operand `b`: the cell of `a` holds a formula with `b` on the left,
or with `b` on the right of an operand that has a value.  Inside the formula there is room for
`room` further formulas, and the value on the left needs no more. -/
def LeadsIn (g : Grid) (room : Nat) (a b : String) : Prop :=
  ∃ p text f, g.Refers a p text ∧ Formula.parse text = .ok f ∧
    (f.left = b ∨ (f.right = b ∧ ∃ v, g.WorthIn room f.left v))

/-- Operands from `first` to `last`, each of which leads to the next one.  There is room for `room`
nested formulas, and `k` of them lie on the way. -/
inductive Chain (g : Grid) : (room : Nat) → (first : String) → (k : Nat) → (last : String) → Prop
  | stay (room : Nat) (operand : String) : Chain g room operand 0 operand
  | step {room k : Nat} {first next last : String} (hleads : g.LeadsIn room first next)
      (hrest : Chain g room next k last) : Chain g (room + 1) first (k + 1) last

/-- The cell of the operand holds the formula `=body`, whose operands have values in the room that
is left, and `Q` holds of the operation and of these values. -/
def Combines (g : Grid) (room : Nat) (operand body : String) (Q : Operation → Int → Int → Prop) :
    Prop :=
  ∃ p f a b, g.Refers operand p ("=" ++ body) ∧ Formula.parse ("=" ++ body) = .ok f ∧
    g.WorthIn room f.left a ∧ g.WorthIn room f.right b ∧ Q f.op a.toInt b.toInt

end Grid

/-- What the fault says of the operand at which it arises, inside `k` nested formulas where `limit`
are allowed.  The last case are the faults of a text that is no formula. -/
def Fault.HoldsAt (g : Grid) (limit k : Nat) (operand : String) : Fault → Prop
  | .unknownCell name =>
    name = operand ∧ Value.read? operand = none ∧ ∀ p text, g.lookUp operand ≠ .ok (p, text)
  | .selfReference name text =>
    name = operand ∧
      ∃ p f, g.Refers operand p text ∧ Formula.parse text = .ok f ∧ f.Mentions operand
  | .divisionByZero body =>
    ∃ room, k + 1 + room = limit ∧ g.Combines room operand body fun op _ b => op = .div ∧ b = 0
  | .overflow body =>
    ∃ room, k + 1 + room = limit ∧ g.Combines room operand body fun op a b =>
      ∃ n, op.integerResult a b = some n ∧ (n < -9223372036854775808 ∨ 9223372036854775807 < n)
  | .tooDeep name limit' =>
    name = operand ∧ limit' = limit ∧ k = limit ∧
      ∃ p text f, g.Refers operand p text ∧ Formula.parse text = .ok f
  | .loop _ => False
  | e => ∃ p text, g.Refers operand p text ∧ Value.read? text = none ∧
      Formula.parse text = .error e

/-! ### What holds where a fault arises -/

namespace Fault

variable {g : Grid} {limit k : Nat} {operand text : String} {p : Position} {e : Fault}

theorem holdsAt_of_parse (hcell : g.Refers operand p text) (htext : Value.read? text = none)
    (hparse : Formula.parse text = .error e) : e.HoldsAt g limit k operand := by
  have h : ∃ p text, g.Refers operand p text ∧ Value.read? text = none ∧
      Formula.parse text = .error e := ⟨p, text, hcell, htext, hparse⟩
  -- the faults of a text all fall into the last case
  unfold Formula.parse at hparse
  split at hparse
  · split at hparse
    · cases hparse; exact h
    · split at hparse <;> cases hparse <;> exact h
  · cases hparse; exact h

theorem holdsAt_of_read {c : Calculator} {memo : Memo} (hread : c.read memo operand = .error e) :
    e.HoldsAt c.grid limit k operand := by
  have hreads := c.read_reads memo operand
  rw [hread] at hreads
  cases hreads with
  | noCell hname hlook =>
      obtain rfl := Grid.eq_unknownCell_of_lookUp hlook
      refine ⟨rfl, hname, fun p text hcell => ?_⟩
      cases hlook.symm.trans hcell
  | notFormula hcell htext _ hparse => exact holdsAt_of_parse hcell htext hparse
  | selfReference hcell _ hparse hm => exact ⟨rfl, _, _, hcell, hparse, hm⟩

theorem holdsAt_of_result {f : Formula} {room : Nat} {a b : Value}
    (hcell : g.Refers operand p text) (hparse : Formula.parse text = .ok f)
    (ha : g.WorthIn room f.left a) (hb : g.WorthIn room f.right b) (hk : k + 1 + room = limit)
    (hresult : f.result a b = .error e) : e.HoldsAt g limit k operand := by
  rw [Formula.text_of_parse hparse] at hcell hparse
  rcases Formula.divisionByZero_or_overflow_of_result hresult with
    ⟨hop, hzero, rfl⟩ | ⟨n, hn, hrange, rfl⟩
  · exact ⟨room, hk, p, f, a, b, hcell, hparse, ha, hb, hop, hzero⟩
  · exact ⟨room, hk, p, f, a, b, hcell, hparse, ha, hb, n, hn, Value.ofInt?_eq_none_iff.1 hrange⟩

end Fault

/-! ### Chains to the faults of an evaluation -/

namespace Calculator

variable {c : Calculator} {memo : Memo}

/-- A fault of an operand inside `k` formulas arises at the end of a chain from there. -/
theorem exists_chain_of_answer (hplain : c.usesMemo = false) {room : Nat} {n : Nesting}
    {operand : String} {e : Fault} (he : (c.answer room n operand memo).1 = .error e)
    (hloop : ∀ names, e ≠ .loop names) {k : Nat} (hk : k + room = c.settings.maxDepth) :
    ∃ j last, c.grid.Chain room operand j last ∧
      e.HoldsAt c.grid c.settings.maxDepth (k + j) last := by
  induction room, n, operand, memo using c.answer_induction generalizing k with
  | fault room n operand memo e' hread =>
      obtain rfl := Except.error.inj he
      exact ⟨0, operand, .stay room operand, Fault.holdsAt_of_read hread⟩
  | value => cases he
  | loop room n operand memo p f names hread hp =>
      exact absurd (Except.error.inj he).symm (hloop _)
  | noRoom n operand memo p f hread hp =>
      obtain rfl := Except.error.inj he
      obtain ⟨text, hcell, hparse⟩ := formula_of_read hread
      exact ⟨0, operand, .stay 0 operand, rfl, rfl, hk, p, text, f, hcell, hparse⟩
  | nested room n operand memo p f hread hp ih =>
      obtain ⟨text, hcell, hparse⟩ := formula_of_read hread
      rw [keep_fst] at he
      -- one step in front of the chain of an operand of the formula
      have hstep : ∀ {name memo'}, c.grid.LeadsIn room operand name →
          (c.answer room (n.push c.settings.loops p operand) name memo').1 = .error e →
          ∃ j last, c.grid.Chain (room + 1) operand j last ∧
            e.HoldsAt c.grid c.settings.maxDepth (k + j) last := by
        intro name memo' hleads he'
        obtain ⟨j, last, hchain, hlast⟩ := ih name memo' he' (k := k + 1) (by omega)
        refine ⟨j + 1, last, .step hleads hchain, ?_⟩
        rwa [Nat.add_right_comm, Nat.add_assoc] at hlast
      rcases Formula.cases_of_answer_error he with hleft | ⟨a, hleft, hright | ⟨b, hright, hresult⟩⟩
      · exact hstep ⟨p, text, f, hcell, hparse, .inl rfl⟩ hleft
      · have ha : c.grid.WorthIn room f.left a := worthIn_of_answer hplain hleft
        exact hstep ⟨p, text, f, hcell, hparse, .inr ⟨rfl, a, ha⟩⟩ hright
      · have ha : c.grid.WorthIn room f.left a := worthIn_of_answer hplain hleft
        have hb : c.grid.WorthIn room f.right b := worthIn_of_answer hplain hright
        exact ⟨0, operand, .stay _ operand,
          Fault.holdsAt_of_result hcell hparse ha hb (by omega) hresult⟩

/-- **A fault of an operand that is no loop arises at the end of a chain**, and what it says holds
of the operand there.  So the lack of room is reported only where the chain has as many formulas as
the bound allows. -/
theorem exists_chain_of_operand {g : Grid} {s : Settings} {operand : String} {e : Fault}
    (he : ((plain g s).operand operand memo).1 = .error e) (hloop : ∀ names, e ≠ .loop names) :
    ∃ k last, g.Chain s.maxDepth operand k last ∧ e.HoldsAt g s.maxDepth k last := by
  rw [operand_eq_answer] at he
  obtain ⟨k, last, hchain, hlast⟩ :=
    exists_chain_of_answer (c := plain g s) rfl he hloop (Nat.zero_add _)
  rw [Nat.zero_add] at hlast
  exact ⟨k, last, hchain, hlast⟩

/-- The division by zero stands in a cell on the right of one that has a value. -/
theorem exists_chain_to_division :
    ∃ g, Grid.ofLines [",A,B", "1,=B1+B2,=2*3", "2,7,=B1/0"] = .ok g ∧
      ((plain g {}).operand "A1" ∅).1 = .error (.divisionByZero "B1/0") ∧
      ∃ k last, g.Chain 512 "A1" k last ∧
        (Fault.divisionByZero "B1/0").HoldsAt g 512 k last := by
  have hfault : (Grid.ofLines [",A,B", "1,=B1+B2,=2*3", "2,7,=B1/0"]).toOption.map (fun g =>
      ((plain g {}).operand "A1" ∅).1) = some (.error (.divisionByZero "B1/0")) := by
    decide +kernel
  rcases h : Grid.ofLines [",A,B", "1,=B1+B2,=2*3", "2,7,=B1/0"] with e | g
  · rw [h] at hfault
    cases hfault
  · rw [h] at hfault
    have he : ((plain g {}).operand "A1" ∅).1 = .error (.divisionByZero "B1/0") :=
      Option.some.inj hfault
    exact ⟨g, rfl, he, exists_chain_of_operand he (by simp)⟩

end Calculator

end FormulaGrid
