/-
**Where faults come from.**

A fault arises where an operand is read, where two values are combined, or on the way into a
formula cell, and it is handed on unchanged from there.  Only the faults of the last kind speak of
the cells that are being evaluated.  So what is to be known of all faults of an evaluation is shown
where one goes into a cell, from what is known of the nesting there.

Main definitions:

* `Fault.ofNesting` — a fault of the way into a cell: a loop, or the lack of room;
* `Calculator.Entering` — what is to be shown where a cell is entered.

Main results:

* `Formula.cases_of_answer_error` — a fault of a formula is one of its operands or of its result;
* `Calculator.answer_fault`, `Calculator.cell_fault` — **a property of all faults, shown where a
  cell is entered**;
* `Calculator.limit_of_answer` — the limit that a fault names is the bound of the settings.
-/

import FormulaGrid.Proofs.Evaluation

set_option relaxedAutoImplicit false
set_option autoImplicit false

namespace FormulaGrid

/-- The fault speaks of the cells that are being evaluated. -/
def Fault.ofNesting : Fault → Bool
  | .loop _ | .tooDeep _ _ => true
  | _ => false

namespace Formula

theorem ofNesting_of_parse {text : String} {e : Fault} (h : parse text = .error e) :
    e.ofNesting = false := by
  unfold parse at h
  split at h
  · split at h
    · cases h; rfl
    · split at h <;> cases h <;> rfl
  · cases h; rfl

/-- Two values have no result for one of two reasons: the formula divides by zero, or its exact
result is out of range. -/
theorem divisionByZero_or_overflow_of_result {f : Formula} {a b : Value} {e : Fault}
    (h : f.result a b = .error e) :
    (f.op = .div ∧ b.toInt = 0 ∧ e = .divisionByZero f.text) ∨
      ∃ n, f.op.integerResult a.toInt b.toInt = some n ∧ Value.ofInt? n = none ∧
        e = .overflow f.text := by
  unfold result at h
  split at h
  · cases h
  next hresult =>
  split at h
  next hzero =>
    cases h
    exact .inl ⟨hzero.1, hzero.2, rfl⟩
  next hzero =>
    cases h
    cases hn : f.op.integerResult a.toInt b.toInt with
    | none =>
        -- on the integers only a division by zero has no result
        refine absurd ?_ hzero
        cases hop : f.op <;> simp [hop, Operation.integerResult] at hn ⊢
        exact hn
    | some n =>
        rw [Operation.valueResult, hn, Option.bind_some] at hresult
        exact .inr ⟨n, rfl, hresult, rfl⟩

theorem ofNesting_of_result {f : Formula} {a b : Value} {e : Fault}
    (h : f.result a b = .error e) : e.ofNesting = false := by
  rcases divisionByZero_or_overflow_of_result h with ⟨-, -, rfl⟩ | ⟨-, -, -, rfl⟩ <;> rfl

/-- A fault of a formula is that of its left operand; or the left operand has a value, and it is
that of the right operand or of the result. -/
theorem cases_of_answer_error {f : Formula} {operand : String → Memo → Answer} {memo : Memo}
    {e : Fault} (h : (f.answer operand memo).1 = .error e) :
    (operand f.left memo).1 = .error e ∨
      ∃ a, (operand f.left memo).1 = .ok a ∧
        ((operand f.right (operand f.left memo).2).1 = .error e ∨
          ∃ b, (operand f.right (operand f.left memo).2).1 = .ok b ∧ f.result a b = .error e) := by
  rcases hl : (operand f.left memo).1 with e' | a
  · rw [answer_of_left_error hl] at h
    exact .inl h
  · refine .inr ⟨a, rfl, ?_⟩
    rcases hr : (operand f.right (operand f.left memo).2).1 with e' | b
    · rw [answer_of_right_error hl hr] at h
      exact .inl h
    · rw [answer_of_ok hl hr] at h
      exact .inr ⟨b, rfl, h⟩

/-- What holds of the faults of its operands holds of the faults of a formula. -/
theorem answer_fault {P : Fault → Prop} (hplain : ∀ e, e.ofNesting = false → P e) {f : Formula}
    {operand : String → Memo → Answer}
    (h : ∀ name memo e, f.Mentions name → (operand name memo).1 = .error e → P e)
    {memo : Memo} {e : Fault} (he : (f.answer operand memo).1 = .error e) : P e := by
  rcases cases_of_answer_error he with hleft | ⟨a, -, hright | ⟨b, -, hresult⟩⟩
  · exact h _ _ _ (.inl rfl) hleft
  · exact h _ _ _ (.inr rfl) hright
  · exact hplain e (ofNesting_of_result hresult)

end Formula

/-- A name that is not found is unknown. -/
theorem Grid.eq_unknownCell_of_lookUp {g : Grid} {name : String} {e : Fault}
    (h : g.lookUp name = .error e) : e = .unknownCell name := by
  unfold lookUp find at h
  split at h
  · next hfind =>
    split at hfind
    · cases hfind
    · cases hfind
      cases h
      rfl
  · split at h
    · cases h
    · cases h
      rfl

namespace Calculator

variable {c : Calculator} {memo : Memo} {operand : String}

theorem ofNesting_of_read {e : Fault} (h : c.read memo operand = .error e) :
    e.ofNesting = false := by
  have hreads := c.read_reads memo operand
  rw [h] at hreads
  cases hreads with
  | noCell _ hlook =>
      obtain rfl := Grid.eq_unknownCell_of_lookUp hlook
      rfl
  | notFormula _ _ _ hparse => exact Formula.ofNesting_of_parse hparse
  | selfReference => rfl

/-- What makes `P` a property of all faults: with `J` known of the room, the nesting and the operand
at hand, `P` holds of the faults on the way into the cell of the operand, and `J` carries over to
the operands of its formula. -/
structure Entering (c : Calculator) (J : Nat → Nesting → String → Prop) (P : Fault → Prop) :
    Prop where
  plain : ∀ e, e.ofNesting = false → P e
  loop : ∀ {room n operand memo p f names}, J room n operand →
    c.read memo operand = .ok (.formula p f) → n.namesFrom? p = some names →
    P (.loop (names ++ [operand]))
  tooDeep : ∀ {n operand memo p f}, J 0 n operand → c.read memo operand = .ok (.formula p f) →
    n.namesFrom? p = none → P (.tooDeep operand c.settings.maxDepth)
  push : ∀ {room n operand memo p f name}, J (room + 1) n operand →
    c.read memo operand = .ok (.formula p f) → n.namesFrom? p = none → f.Mentions name →
    J room (n.push c.settings.loops p operand) name

variable {J : Nat → Nesting → String → Prop} {P : Fault → Prop}

/-- **A property of all faults, shown where a cell is entered.** -/
theorem answer_fault (h : c.Entering J P) {room : Nat} {n : Nesting} {operand : String}
    {memo : Memo} (hJ : J room n operand) {e : Fault}
    (he : (c.answer room n operand memo).1 = .error e) : P e := by
  revert hJ e
  induction room, n, operand, memo using c.answer_induction with
  | fault room n operand memo e' hread =>
      intro _ e he
      obtain rfl := Except.error.inj he
      exact h.plain e' (ofNesting_of_read hread)
  | value => exact fun _ _ he => by cases he
  | loop room n operand memo p f names hread hp =>
      intro hJ e he
      obtain rfl := Except.error.inj he
      exact h.loop hJ hread hp
  | noRoom n operand memo p f hread hp =>
      intro hJ e he
      obtain rfl := Except.error.inj he
      exact h.tooDeep hJ hread hp
  | nested room n operand memo p f hread hp ih =>
      intro hJ e he
      rw [keep_fst] at he
      refine Formula.answer_fault h.plain (fun name memo' e' hm he' => ?_) he
      exact ih name memo' (h.push hJ hread hp hm) he'

/-- The same for the formula of a cell: the cell is the outermost nested one, and it takes one
level of the room. -/
theorem cell_fault (h : c.Entering J P) {p : Position} {f : Formula}
    (hzero : c.settings.maxDepth = 0 → P (.tooDeep (c.grid.nameOf p) c.settings.maxDepth))
    (hroot : ∀ room name, c.settings.maxDepth = room + 1 → f.Mentions name →
      J room (Nesting.empty.push c.settings.loops p (c.grid.nameOf p)) name)
    {e : Fault} (he : (c.cell p f memo).1 = .error e) : P e := by
  rw [cell_eq_answer] at he
  cases hmax : c.settings.maxDepth with
  | zero =>
      rw [hmax] at he
      obtain rfl := Except.error.inj he
      rw [← hmax]
      exact hzero hmax
  | succ room =>
      rw [hmax] at he
      refine Formula.answer_fault h.plain (fun name memo' e' hm he' => ?_) he
      exact answer_fault h (hroot room name hmax hm) he'

/-- The limit that a fault names is the bound of the settings. -/
theorem limit_of_answer {room : Nat} {n : Nesting} {name : String} {limit : Nat}
    (h : (c.answer room n operand memo).1 = .error (.tooDeep name limit)) :
    limit = c.settings.maxDepth := by
  have hentering : c.Entering (fun _ _ _ => True)
      fun e => ∀ name' limit', e = .tooDeep name' limit' → limit' = c.settings.maxDepth := by
    constructor
    case plain =>
      rintro e he name' limit' rfl
      cases he
    case loop => rintro _ _ _ _ _ _ _ _ _ _ _ _ ⟨⟩
    case tooDeep =>
      rintro _ _ _ _ _ _ _ _ _ _ ⟨⟩
      rfl
    case push =>
      intros
      trivial
  exact answer_fault hentering trivial h name limit rfl

end Calculator

end FormulaGrid
