/-
**Evaluations put their nesting back.**

An evaluation goes into formula cells and comes back out of them, also when it ends in a fault.  So
the nesting it leaves behind is the one it was given, and what remains of it is a function: from
the nesting, the operand and the memo to a result and the memo afterwards.  This module writes that
function down as `Calculator.answer`, proves it equal to the evaluation, whatever the memo is kept
in, and packages the induction on the room for nested formulas that later modules use.

Main definitions:

* `Answer` — a result with the memo that an evaluation leaves;
* `Formula.answer`, `Calculator.nestedAnswer`, `Calculator.answer` — the answers of a formula,
  of the formula of a cell, and of an operand;
* `Answer.RanOut` — the evaluation met the bound on nested formulas.

Main results:

* `Calculator.evaluate_eq_answer` — **an evaluation is its answer in an unchanged nesting**;
* `Calculator.answer_induction` — a property of answers, proved case by case;
* `Calculator.operand_eq_answer`, `Calculator.formula_eq_answer`, `Calculator.cell_eq_answer` —
  the evaluations that start from outside.
-/

import FormulaGrid.Calculator

set_option relaxedAutoImplicit false
set_option autoImplicit false

namespace FormulaGrid

/-- What an evaluation hands back: a value or a fault, and the memo. -/
abbrev Answer (M : Type := Memo) := Except Fault Value × M

/-- A way to evaluate operands: in a nesting, from a memo. -/
abbrev Asking (M : Type := Memo) := Nesting → String → M → Answer M

namespace Answer

/-- The answer of an evaluation that leaves the nesting `n` behind. -/
def leaving {M : Type} (n : Nesting) : Answer M → EStateM.Result Fault (Work M) Value
  | (.ok v, memo) => .ok v ⟨n, memo⟩
  | (.error e, memo) => .error e ⟨n, memo⟩

/-- The evaluation met the bound on nested formulas. -/
def RanOut (o : Answer) : Prop := ∃ name limit, o.1 = .error (.tooDeep name limit)

end Answer

/-! ### Answers -/

/-- The answer of a formula, when `operand` gives the answers of its operands. -/
def Formula.answer {M : Type} (f : Formula) (operand : String → M → Answer M) (memo : M) :
    Answer M :=
  match operand f.left memo with
  | (.error e, memo) => (.error e, memo)
  | (.ok a, memo) =>
    match operand f.right memo with
    | (.error e, memo) => (.error e, memo)
    | (.ok b, memo) => (f.result a b, memo)

namespace Calculator

section Definitions

variable {M : Type} [MemoStore M]

/-- Adds the value of a cell to the memo, if there is a value and the memo is used. -/
def keep (c : Calculator) (p : Position) : Answer M → Answer M
  | (.ok v, memo) => (.ok v, if c.usesMemo then MemoStore.insert memo p v else memo)
  | (.error e, memo) => (.error e, memo)

@[simp] theorem keep_fst (c : Calculator) (p : Position) (o : Answer M) :
    (c.keep p o).1 = o.1 := by
  rcases o with ⟨e | v, memo⟩ <;> rfl

/-- The answer of the formula of a cell that was reached as `name`. -/
def nestedAnswer (c : Calculator) (deeper : Option (Asking M)) (n : Nesting) (p : Position)
    (name : String) (f : Formula) (memo : M) : Answer M :=
  match n.namesFrom? p with
  | some names => (.error (.loop (names ++ [name])), memo)
  | none =>
    match deeper with
    | none => (.error (.tooDeep name c.settings.maxDepth), memo)
    | some operand => f.answer (operand (n.push c.settings.loops p name)) memo

/-- The answer of an operand, where `deeper` gives the answers of the operands of formulas. -/
def stepAnswer (c : Calculator) (deeper : Option (Asking M)) : Asking M := fun n operand memo =>
  match c.read memo operand with
  | .error e => (.error e, memo)
  | .ok (.value v) => (.ok v, memo)
  | .ok (.formula p f) => c.keep p (c.nestedAnswer deeper n p operand f memo)

/-- The answer of an operand, with room for `room` nested formulas. -/
def answer (c : Calculator) : (room : Nat) → Asking M
  | 0 => c.stepAnswer none
  | room + 1 => c.stepAnswer (some (c.answer room))

/-- The answers of operands inside a formula that is nested where there is room for `room`
formulas, itself included. -/
def answerInside (c : Calculator) : (room : Nat) → Option (Asking M)
  | 0 => none
  | room + 1 => some (c.answer room)

theorem answer_eq_stepAnswer (c : Calculator) (room : Nat) :
    (c.answer room : Asking M) = c.stepAnswer (c.answerInside room) := by
  cases room <;> rfl

end Definitions

/-- The memo gains the value of the cell, or stays as it was. -/
theorem keep_snd (c : Calculator) (p : Position) (o : Answer) :
    (c.keep p o).2 = o.2 ∨
      ∃ v, o.1 = .ok v ∧ c.usesMemo = true ∧ (c.keep p o).2 = o.2.insert p v := by
  rcases o with ⟨e | v, memo⟩
  · exact .inl rfl
  · by_cases h : c.usesMemo = true
    · exact .inr ⟨v, rfl, h, by simp [keep, h]⟩
    · exact .inl (by simp [keep, h])

end Calculator

namespace Formula

variable {f : Formula} {operand : String → Memo → Answer} {memo : Memo}

/-- A fault of the left operand is the fault of the formula; the right one is not evaluated. -/
theorem answer_of_left_error {e : Fault} (h : (operand f.left memo).1 = .error e) :
    f.answer operand memo = (.error e, (operand f.left memo).2) := by
  rcases hl : operand f.left memo with ⟨r, memo₁⟩
  rw [hl] at h
  obtain rfl : r = .error e := h
  simp only [answer, hl]

theorem answer_of_right_error {a : Value} {e : Fault} (hleft : (operand f.left memo).1 = .ok a)
    (h : (operand f.right (operand f.left memo).2).1 = .error e) :
    f.answer operand memo = (.error e, (operand f.right (operand f.left memo).2).2) := by
  rcases hl : operand f.left memo with ⟨r, memo₁⟩
  rw [hl] at hleft h
  obtain rfl : r = .ok a := hleft
  rcases hr : operand f.right memo₁ with ⟨r, memo₂⟩
  rw [hr] at h
  obtain rfl : r = .error e := h
  simp only [answer, hl, hr]

theorem answer_of_ok {a b : Value} (hleft : (operand f.left memo).1 = .ok a)
    (hright : (operand f.right (operand f.left memo).2).1 = .ok b) :
    f.answer operand memo = (f.result a b, (operand f.right (operand f.left memo).2).2) := by
  rcases hl : operand f.left memo with ⟨r, memo₁⟩
  rw [hl] at hleft hright
  obtain rfl : r = .ok a := hleft
  rcases hr : operand f.right memo₁ with ⟨r, memo₂⟩
  rw [hr] at hright
  obtain rfl : r = .ok b := hright
  simp only [answer, hl, hr]

end Formula

/-! ### Evaluations and their answers -/

/-- A loop is seen exactly where the cell is being evaluated already. -/
theorem Nesting.namesFrom?_eq_none_iff {n : Nesting} {p : Position} :
    n.namesFrom? p = none ↔ p ∉ n.active := by
  simp [Nesting.namesFrom?]

@[simp] theorem Nesting.namesFrom?_empty (p : Position) : Nesting.empty.namesFrom? p = none := by
  simp [Nesting.namesFrom?, Nesting.empty]

section

variable {M : Type}

theorem Eval.get_bind {α : Type} (k : Work M → EvalOn M α) (w : Work M) :
    (get >>= k) w = k w w := rfl

theorem Formula.evaluate_eq_answer {operand : String → EvalOn M Value}
    {asked : String → M → Answer M} {n : Nesting}
    (h : ∀ name memo, operand name ⟨n, memo⟩ = (asked name memo).leaving n) (f : Formula)
    (memo : M) : f.evaluate operand ⟨n, memo⟩ = (f.answer asked memo).leaving n := by
  simp only [Formula.evaluate, Formula.answer, bind, EStateM.bind, h]
  rcases asked f.left memo with ⟨e | a, memo₁⟩
  · rfl
  · simp only [Answer.leaving, h]
    rcases asked f.right memo₁ with ⟨e | b, memo₂⟩
    · rfl
    · dsimp only
      cases f.result a b <;> rfl

namespace Calculator

/-- An evaluation in no nesting hands back its answer. -/
theorem run_of_eq_leaving {x : EvalOn M Value} {o : Answer M} {memo : M}
    (h : x ⟨.empty, memo⟩ = o.leaving .empty) : run x memo = o := by
  unfold run
  rw [show ({ memo := memo } : Work M) = ⟨.empty, memo⟩ from rfl, h]
  rcases o with ⟨e | v, memo'⟩ <;> rfl

variable [MemoStore M]

theorem record_eq (c : Calculator) (p : Position) (v : Value) (n : Nesting) (memo : M) :
    c.record p v ⟨n, memo⟩ =
      .ok () (if c.usesMemo then ⟨n, MemoStore.insert memo p v⟩ else ⟨n, memo⟩) := rfl

theorem nested_eq_answer {c : Calculator} {room : Nat}
    (h : ∀ r < room, ∀ (n : Nesting) (name : String) (memo : M),
      c.evaluate r name ⟨n, memo⟩ = (c.answer r n name memo).leaving n)
    (n : Nesting) (p : Position) (name : String) (f : Formula) (memo : M) :
    c.nested (c.inside room) p name f ⟨n, memo⟩ =
      (c.nestedAnswer (c.answerInside room) n p name f memo).leaving n := by
  simp only [nested, nestedAnswer, Eval.get_bind]
  cases hp : n.namesFrom? p with
  | some names => rfl
  | none =>
      cases room with
      | zero => rfl
      | succ room =>
          have hf := f.evaluate_eq_answer (n := n.push c.settings.loops p name)
            (h room (by omega) _) memo
          -- a cell that closes no loop was not in the set, so leaving takes out what entering put
          have hpop : (n.push c.settings.loops p name).pop = n :=
            Nesting.pop_push (Nesting.namesFrom?_eq_none_iff.1 hp) name
          simp only [inside, answerInside, Eval.within, hf]
          rcases f.answer (c.answer room (n.push c.settings.loops p name)) memo with
            ⟨e | v, memo'⟩ <;> simp only [Answer.leaving, hpop]

section Step

variable {c : Calculator} {deeper : Option (String → EvalOn M Value)} {n : Nesting} {memo : M}
  {name : String}

theorem step_of_read_error {e : Fault} (hread : c.read memo name = .error e) :
    c.step deeper name ⟨n, memo⟩ = .error e ⟨n, memo⟩ := by
  simp only [step, Eval.get_bind, hread]
  rfl

theorem step_of_read_value {v : Value} (hread : c.read memo name = .ok (.value v)) :
    c.step deeper name ⟨n, memo⟩ = .ok v ⟨n, memo⟩ := by
  simp only [step, Eval.get_bind, hread]
  rfl

/-- A step that reads a formula keeps what the formula of that cell comes to. -/
theorem step_of_read_formula {p : Position} {f : Formula}
    (hread : c.read memo name = .ok (.formula p f)) {o : Answer M} {n' : Nesting}
    (h : c.nested deeper p name f ⟨n, memo⟩ = o.leaving n') :
    c.step deeper name ⟨n, memo⟩ = (c.keep p o).leaving n' := by
  simp only [step, Eval.get_bind, hread]
  simp only [bind, EStateM.bind, h]
  rcases o with ⟨e | v, memo'⟩
  · rfl
  · cases hm : c.usesMemo <;> simp [Answer.leaving, keep, record_eq, pure, EStateM.pure, hm]

end Step

/-- **An evaluation is its answer in an unchanged nesting.** -/
theorem evaluate_eq_answer (c : Calculator) (room : Nat) (n : Nesting) (operand : String)
    (memo : M) :
    c.evaluate room operand ⟨n, memo⟩ = (c.answer room n operand memo).leaving n := by
  induction room using Nat.strongRecOn generalizing n operand memo with
  | _ room ih =>
      rw [evaluate_eq_step, answer_eq_stepAnswer, stepAnswer]
      rcases hread : c.read memo operand with e | v | ⟨p, f⟩
      · exact step_of_read_error hread
      · exact step_of_read_value hread
      · exact step_of_read_formula hread (nested_eq_answer ih n p operand f memo)

/-! ### Evaluations that start from outside -/

/-- The value of an operand is its answer in no nesting. -/
theorem operand_eq_answer (c : Calculator) (name : String) (memo : M) :
    c.operand name memo = c.answer c.settings.maxDepth .empty name memo :=
  run_of_eq_leaving (c.evaluate_eq_answer _ _ _ _)

/-- The value of a formula that stands in no cell. -/
theorem formula_eq_answer (c : Calculator) (f : Formula) (memo : M) :
    c.formula f memo = f.answer (c.answer c.settings.maxDepth .empty) memo :=
  run_of_eq_leaving (f.evaluate_eq_answer (c.evaluate_eq_answer _ _) memo)

/-- The value of the formula of a cell: without room it is too deep, and otherwise its operands
are evaluated in the nesting of that one cell. -/
theorem cell_eq_answer (c : Calculator) (p : Position) (f : Formula) (memo : M) :
    c.cell p f memo = match c.answerInside c.settings.maxDepth with
      | none => (.error (.tooDeep (c.grid.nameOf p) c.settings.maxDepth), memo)
      | some operand =>
        f.answer (operand (Nesting.empty.push c.settings.loops p (c.grid.nameOf p))) memo := by
  have h : c.cell p f memo =
      c.nestedAnswer (c.answerInside c.settings.maxDepth) .empty p (c.grid.nameOf p) f memo :=
    run_of_eq_leaving (nested_eq_answer (fun r _ => c.evaluate_eq_answer r) _ _ _ _ _)
  rw [h]
  simp only [nestedAnswer, Nesting.namesFrom?_empty]

/-! ### Induction on the room -/

section Cases

variable {c : Calculator} {memo : M} {operand : String}

theorem answer_of_read_error {e : Fault} (h : c.read memo operand = .error e) (room : Nat)
    (n : Nesting) : c.answer room n operand memo = (.error e, memo) := by
  rw [answer_eq_stepAnswer, stepAnswer, h]

theorem answer_of_read_value {v : Value} (h : c.read memo operand = .ok (.value v)) (room : Nat)
    (n : Nesting) : c.answer room n operand memo = (.ok v, memo) := by
  rw [answer_eq_stepAnswer, stepAnswer, h]

variable {p : Position} {f : Formula}

theorem answer_of_loop (h : c.read memo operand = .ok (.formula p f)) {n : Nesting}
    {names : List String} (hp : n.namesFrom? p = some names) (room : Nat) :
    c.answer room n operand memo = (.error (.loop (names ++ [operand])), memo) := by
  rw [answer_eq_stepAnswer, stepAnswer, h]
  simp only [nestedAnswer, hp, keep]

theorem answer_zero_of_formula (h : c.read memo operand = .ok (.formula p f)) {n : Nesting}
    (hp : n.namesFrom? p = none) :
    c.answer 0 n operand memo = (.error (.tooDeep operand c.settings.maxDepth), memo) := by
  rw [answer, stepAnswer, h]
  simp only [nestedAnswer, hp, keep]

theorem answer_succ_of_formula (h : c.read memo operand = .ok (.formula p f)) {n : Nesting}
    (hp : n.namesFrom? p = none) (room : Nat) :
    c.answer (room + 1) n operand memo =
      c.keep p (f.answer (c.answer room (n.push c.settings.loops p operand)) memo) := by
  rw [answer, stepAnswer, h]
  simp only [nestedAnswer, hp]

end Cases

end Calculator

end

/-- **A property of answers, case by case**: what is read is a fault or a value; or it is the
formula of a cell, which closes a loop, finds no room, or is evaluated one level deeper. -/
theorem Calculator.answer_induction (c : Calculator)
    {motive : Nat → Nesting → String → Memo → Answer → Prop}
    (fault : ∀ room n operand memo e, c.read memo operand = .error e →
      motive room n operand memo (.error e, memo))
    (value : ∀ room n operand memo v, c.read memo operand = .ok (.value v) →
      motive room n operand memo (.ok v, memo))
    (loop : ∀ room n operand memo p f names, c.read memo operand = .ok (.formula p f) →
      n.namesFrom? p = some names →
      motive room n operand memo (.error (.loop (names ++ [operand])), memo))
    (noRoom : ∀ n operand memo p f, c.read memo operand = .ok (.formula p f) →
      n.namesFrom? p = none →
      motive 0 n operand memo (.error (.tooDeep operand c.settings.maxDepth), memo))
    (nested : ∀ room n operand memo p f, c.read memo operand = .ok (.formula p f) →
      n.namesFrom? p = none →
      (∀ name memo, motive room (n.push c.settings.loops p operand) name memo
        (c.answer room (n.push c.settings.loops p operand) name memo)) →
      motive (room + 1) n operand memo
        (c.keep p (f.answer (c.answer room (n.push c.settings.loops p operand)) memo)))
    (room : Nat) (n : Nesting) (operand : String) (memo : Memo) :
    motive room n operand memo (c.answer room n operand memo) := by
  induction room using Nat.strongRecOn generalizing n operand memo with
  | _ room ih =>
      rcases hr : c.read memo operand with e | v | ⟨p, f⟩
      · rw [answer_of_read_error hr]
        exact fault _ _ _ _ _ hr
      · rw [answer_of_read_value hr]
        exact value _ _ _ _ _ hr
      · cases hp : n.namesFrom? p with
        | some names =>
            rw [answer_of_loop hr hp]
            exact loop _ _ _ _ _ _ _ hr hp
        | none =>
            cases room with
            | zero =>
                rw [answer_zero_of_formula hr hp]
                exact noRoom _ _ _ _ _ hr hp
            | succ room =>
                rw [answer_succ_of_formula hr hp]
                exact nested _ _ _ _ _ _ hr hp (ih room (by omega) _)

end FormulaGrid
