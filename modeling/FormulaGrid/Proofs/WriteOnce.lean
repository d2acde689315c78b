/-
**A memo is written once for each cell.**

An evaluation adds values to the memo on its way, and it has added some also where it ends in a
fault.  It asks nothing of a memo but that values can be looked up and put in, so here it is carried
out on a memo that writes down each value that is put into it.  Each of them belongs to a cell whose
formula has been evaluated, and which had no value in the memo at that time, whatever else the memo
held.  For this the cell must not have been finished inside its own evaluation, and that is what
`Calculator.lasts_of_answer` says.

Main definitions:

* `LoggedMemo` — a memo with the list of the values that were put into it;
* `Memo.Gains` — a memo that others become by additions, each for a cell that has no value yet;
* `Answer.Logs` — an answer on a memo with a list, beside the answer on the memo alone.

Main results:

* `Calculator.logs_of_answer` — **an evaluation adds values for formula cells that have none**;
* `Calculator.ask_writes_once` — **whatever a memo holds, it is written once for each cell, and a
  request that is repeated has the same answer**.
-/

import FormulaGrid.Proofs.History
import FormulaGrid.Proofs.Repetition

set_option relaxedAutoImplicit false
set_option autoImplicit false

namespace FormulaGrid

/-! ### Additions to a memo -/

/-- The values `added` turn `memo` into `memo'`: they are put in one after the other, each for one
of `cells` that has no value at that time. -/
inductive Memo.Gains (cells : Position → Prop) :
    (memo : Memo) → (added : List (Position × Value)) → (memo' : Memo) → Prop
  | nil (memo : Memo) : Gains cells memo [] memo
  | cons {memo memo' : Memo} {p : Position} {v : Value} {added : List (Position × Value)}
      (hp : cells p) (hnew : memo[p]? = none) (hrest : Gains cells (memo.insert p v) added memo') :
      Gains cells memo ((p, v) :: added) memo'

namespace Memo.Gains

variable {cells : Position → Prop} {memo memo' memo'' : Memo} {p : Position}
  {added added' : List (Position × Value)}

theorem append (h : Gains cells memo added memo') (h' : Gains cells memo' added' memo'') :
    Gains cells memo (added ++ added') memo'' := by
  induction h with
  | nil => exact h'
  | cons hp hnew _ ih => exact .cons hp hnew (ih h')

/-- No value is changed or removed. -/
theorem extends_of (h : Gains cells memo added memo') : Memo.Extends memo memo' := by
  induction h with
  | nil memo => exact .refl memo
  | cons _ hnew _ ih => exact (Extends.insert hnew _).trans ih

/-- A cell that gets a value is one of `cells`, and had no value before. -/
theorem of_mem (h : Gains cells memo added memo') (hp : p ∈ added.map Prod.fst) :
    cells p ∧ memo[p]? = none := by
  induction h with
  | nil => simp at hp
  | @cons memo memo' q v added hq hnew hrest ih =>
      rw [List.map_cons, List.mem_cons] at hp
      rcases hp with rfl | hp
      · exact ⟨hq, hnew⟩
      · obtain ⟨hcell, hnone⟩ := ih hp
        refine ⟨hcell, Option.eq_none_iff_forall_ne_some.2 fun u hu => ?_⟩
        rw [(Extends.insert hnew v) p u hu] at hnone
        cases hnone

/-- **No cell gets two values.** -/
theorem nodup (h : Gains cells memo added memo') : (added.map Prod.fst).Nodup := by
  induction h with
  | nil => exact List.nodup_nil
  | @cons memo memo' p v added _ hnew hrest ih =>
      rw [List.map_cons, List.nodup_cons]
      refine ⟨fun hp => ?_, ih⟩
      obtain ⟨-, hnone⟩ := hrest.of_mem hp
      rw [Std.ExtTreeMap.getElem?_insert_self] at hnone
      cases hnone

/-- What is in the memo afterwards was there before or was added. -/
theorem getElem?_iff (h : Gains cells memo added memo') (q : Position) (u : Value) :
    memo'[q]? = some u ↔ memo[q]? = some u ∨ (q, u) ∈ added := by
  induction h with
  | nil => simp
  | @cons memo memo' p v added _ hnew hrest ih =>
      rw [ih, Std.ExtTreeMap.getElem?_insert, List.mem_cons, Prod.mk.injEq]
      split
      · next heq =>
        rw [Std.LawfulEqCmp.compare_eq_iff_eq] at heq
        subst heq
        simp [hnew, eq_comm]
      · next hne =>
        rw [Std.LawfulEqCmp.compare_eq_iff_eq] at hne
        simp [Ne.symm hne]

end Memo.Gains

/-! ### Memos that write down what is put into them -/

/-- A memo with all values that have been put into it, in the order in which they came. -/
structure LoggedMemo where
  memo : Memo
  added : List (Position × Value)

instance : MemoStore LoggedMemo where
  get? l p := l.memo[p]?
  insert l p v := ⟨l.memo.insert p v, l.added ++ [(p, v)]⟩

/-- The answer `o'` on `memo` with the list `log` is the answer `o` on `memo` alone, and the list
has become longer by the values that have turned `memo` into the memo of `o`. -/
def Answer.Logs (cells : Position → Prop) (memo : Memo) (log : List (Position × Value))
    (o : Answer) (o' : Answer LoggedMemo) : Prop :=
  ∃ added, memo.Gains cells added o.2 ∧ o' = (o.1, ⟨o.2, log ++ added⟩)

theorem Answer.Logs.same (cells : Position → Prop) (memo : Memo) (log : List (Position × Value))
    (r : Except Fault Value) : Logs cells memo log (r, memo) (r, ⟨memo, log⟩) :=
  ⟨[], .nil memo, by rw [List.append_nil]⟩

/-! ### What is added -/

/-- A data cell with a formula: its text is no integer, and it is read as a formula. -/
def Grid.IsFormulaCell (g : Grid) (p : Position) : Prop :=
  p ∈ g.dataPositions ∧ ∃ text f, g.get? p = some text ∧ Value.read? text = none ∧
    Formula.parse text = .ok f

/-- The additions of the operands are the additions of the formula. -/
theorem Formula.logs_answer {cells : Position → Prop} {f : Formula}
    {operand : String → Memo → Answer} {operand' : String → LoggedMemo → Answer LoggedMemo}
    {memo : Memo} {log : List (Position × Value)}
    (hleft : Answer.Logs cells memo log (operand f.left memo) (operand' f.left ⟨memo, log⟩))
    (hright : ∀ a log, (operand f.left memo).1 = .ok a →
      Answer.Logs cells (operand f.left memo).2 log
        (operand f.right (operand f.left memo).2)
        (operand' f.right ⟨(operand f.left memo).2, log⟩)) :
    Answer.Logs cells memo log (f.answer operand memo) (f.answer operand' ⟨memo, log⟩) := by
  obtain ⟨added, hgains, hleft⟩ := hleft
  rcases hl : operand f.left memo with ⟨e | a, memo₁⟩
  all_goals rw [hl] at hgains hleft hright
  · simp only [Formula.answer, hl, hleft]
    exact ⟨added, hgains, rfl⟩
  · obtain ⟨added', hgains', hright⟩ := hright a (log ++ added) rfl
    rcases hr : operand f.right memo₁ with ⟨e | b, memo₂⟩
    all_goals
      rw [hr] at hgains' hright
      simp only [Formula.answer, hl, hr, hleft, hright]
      exact ⟨added ++ added', hgains.append hgains', by rw [List.append_assoc]⟩

namespace Calculator

variable {c : Calculator} {memo : Memo} {operand : String} {p : Position} {f : Formula}

/-- What is read does not depend on the list. -/
theorem read_logged (c : Calculator) (memo : Memo) (log : List (Position × Value))
    (operand : String) : c.read (LoggedMemo.mk memo log) operand = c.read memo operand := rfl

/-- A value that is kept is one more addition. -/
theorem logs_keep {cells : Position → Prop} {log : List (Position × Value)} {o : Answer}
    {o' : Answer LoggedMemo} (h : o.Logs cells memo log o') (hp : cells p)
    (hnew : o.2[p]? = none) : (c.keep p o).Logs cells memo log (c.keep p o') := by
  obtain ⟨added, hgains, rfl⟩ := h
  rcases o with ⟨e | v, memo'⟩
  · exact ⟨added, hgains, rfl⟩
  · cases huse : c.usesMemo with
    | false =>
        simp only [keep, huse, Bool.false_eq_true, if_false]
        exact ⟨added, hgains, rfl⟩
    | true =>
        simp only [keep, huse, if_true]
        refine ⟨added ++ [(p, v)], hgains.append (.cons hp hnew (.nil _)), ?_⟩
        rw [← List.append_assoc]
        rfl

/-- The operands of a formula are evaluated inside its cell. -/
theorem Inside.operands (huse : c.usesMemo = true) {ps : List Position}
    (h : c.Inside memo ps operand) (hread : c.read memo operand = .ok (.formula p f)) (room : Nat)
    (n : Nesting) :
    c.Inside memo (p :: ps) f.left ∧
      ∀ a, (c.answer room n f.left memo).1 = .ok a →
        c.Inside (c.answer room n f.left memo).2 (p :: ps) f.right := by
  have hin := h.push hread (.inl rfl)
  have hleft := lasts_of_answer huse room n f.left hin
  refine ⟨hin, fun a ha => ?_⟩
  have hps := hleft.unfinished
  rw [List.forall_mem_cons] at hps
  exact (h.mono hleft.grows hps.2).push (read_formula_again hread hps.1)
    (.inr ⟨rfl, a, hleft.value a ha⟩)

/-- **An evaluation adds values for formula cells that have none**, and when a value is added, the
cell has not been finished on the way. -/
theorem logs_of_answer (huse : c.usesMemo = true) {ps : List Position} (room : Nat) (n : Nesting)
    (log : List (Position × Value)) (h : c.Inside memo ps operand) :
    Answer.Logs c.grid.IsFormulaCell memo log (c.answer room n operand memo)
      (c.answer room n operand (LoggedMemo.mk memo log)) := by
  induction room, n, operand, memo using c.answer_induction generalizing ps log with
  | fault room n operand memo e hread =>
      rw [answer_of_read_error ((c.read_logged memo log operand).trans hread)]
      exact .same ..
  | value room n operand memo v hread =>
      rw [answer_of_read_value ((c.read_logged memo log operand).trans hread)]
      exact .same ..
  | loop room n operand memo p f names hread hp =>
      rw [answer_of_loop ((c.read_logged memo log operand).trans hread) hp]
      exact .same ..
  | noRoom n operand memo p f hread hp =>
      rw [answer_zero_of_formula ((c.read_logged memo log operand).trans hread) hp]
      exact .same ..
  | nested room n operand memo p f hread hp ih =>
      obtain ⟨hleft, hright⟩ := h.operands huse hread room (n.push c.settings.loops p operand)
      rw [answer_succ_of_formula ((c.read_logged memo log operand).trans hread) hp]
      apply logs_keep
      · exact Formula.logs_answer (ih f.left memo log hleft) fun a log ha =>
          ih f.right _ log (hright a ha)
      · obtain ⟨text, hcell, hparse⟩ := formula_of_read hread
        exact ⟨hcell.mem_dataPositions, text, f, hcell.get?,
          Formula.read?_eq_none_of_parse hparse, hparse⟩
      · -- the cell stays open until its formula has a value
        have hopen := (f.answer_again (lasts_of_answer huse room _ f.left hleft) fun a ha =>
          lasts_of_answer huse room _ f.right (hright a ha)).2.1
        exact hopen p (List.mem_cons_self ..)

theorem logs_of_ask (huse : c.usesMemo = true) (r : Request) (memo : Memo)
    (log : List (Position × Value)) :
    Answer.Logs c.grid.IsFormulaCell memo log (c.ask r memo)
      (c.ask r (LoggedMemo.mk memo log)) := by
  have hformula : ∀ (f : Formula) (room : Nat) (n : Nesting),
      Answer.Logs c.grid.IsFormulaCell memo log (f.answer (c.answer room n) memo)
        (f.answer (c.answer room n) (LoggedMemo.mk memo log)) := by
    intro f room n
    exact Formula.logs_answer (logs_of_answer huse room n log (.start f.left)) fun _ log _ =>
      logs_of_answer huse room n log (.start f.right)
  cases r with
  | operand name =>
      simp only [ask, operand_eq_answer]
      exact logs_of_answer huse _ _ log (.start name)
  | formula f =>
      simp only [ask, formula_eq_answer]
      exact hformula f _ _
  | formulaText text =>
      simp only [ask]
      cases hparse : Formula.parse text with
      | error e =>
          rw [formulaText_of_error hparse, formulaText_of_error hparse]
          exact .same ..
      | ok f =>
          rw [formulaText_of_ok hparse, formulaText_of_ok hparse, formula_eq_answer,
            formula_eq_answer]
          exact hformula f _ _
  | cell p f =>
      simp only [ask, cell_eq_answer]
      cases c.settings.maxDepth with
      | zero => exact .same ..
      | succ room => exact hformula f room _

/-- A request that is made again has the same answer. -/
theorem ask_again (c : Calculator) (r : Request) (memo : Memo) :
    c.ask r (c.ask r memo).2 = c.ask r memo := by
  cases r with
  | operand name => exact operand_again name memo
  | formula f => exact formula_again f memo
  | cell p f => exact cell_again p f memo
  | formulaText text =>
      rw [ask]
      cases hparse : Formula.parse text with
      | error e => simp only [formulaText_of_error hparse]
      | ok f => simp only [formulaText_of_ok hparse, formula_again]

/-- **A memo is written once for each cell, whatever it holds.**  A request that is answered on a
memo with a list of what is put into it has the same answer and leaves the same memo.  The list
shows that values are put in one after the other, each for a data cell whose text is a formula and
which has no value yet.  So no value that is there is changed or removed, no cell gets two, and the
same request, made again at once, has the same value or the same fault and leaves the memo as it
is. -/
theorem ask_writes_once (g : Grid) {s : Settings} (hmemoize : s.memoize = true) (r : Request)
    (memo : Memo) :
    let c := remembering g s
    let logged := c.ask r (LoggedMemo.mk memo [])
    let added := logged.2.added
    logged.1 = (c.ask r memo).1 ∧ logged.2.memo = (c.ask r memo).2 ∧
    memo.Gains g.IsFormulaCell added (c.ask r memo).2 ∧
    (∀ (p : Position) (v : Value), memo[p]? = some v → (c.ask r memo).2[p]? = some v) ∧
    (∀ (p : Position) (v : Value),
      (c.ask r memo).2[p]? = some v ↔ memo[p]? = some v ∨ (p, v) ∈ added) ∧
    (∀ p ∈ added.map Prod.fst, g.IsFormulaCell p ∧ memo[p]? = none) ∧
    (added.map Prod.fst).Nodup ∧
    c.ask r (c.ask r memo).2 = c.ask r memo := by
  intro c logged added
  obtain ⟨added', hgains, hlogged⟩ := logs_of_ask (c := c) hmemoize r memo []
  obtain rfl : added = added' := congrArg (fun o : Answer LoggedMemo => o.2.added) hlogged
  exact ⟨congrArg Prod.fst hlogged, congrArg (fun o : Answer LoggedMemo => o.2.memo) hlogged,
    hgains, hgains.extends_of, hgains.getElem?_iff, fun p => hgains.of_mem, hgains.nodup,
    c.ask_again r memo⟩

/-- The memo has a value for `A1` that no formula has, and it cuts the loop of `A1` and `C1`.  The
value of `D1` is added before the division by zero. -/
theorem ask_writes_once_before_fault :
    let memo : Memo := Std.ExtTreeMap.insert ∅ ⟨1, 1⟩ ⟨6, by decide, by decide⟩
    ∃ g, Grid.ofLines [",A,B,C,D,E", "1,=B1+C1,=D1*C1,=A1/E1,=1+2,0"] = .ok g ∧
      let c := remembering g { memoize := true }
      let logged := c.ask (.operand "B1") (LoggedMemo.mk memo [])
      (c.ask (.operand "B1") memo).1 = .error (.divisionByZero "A1/E1") ∧
      logged.1 = .error (.divisionByZero "A1/E1") ∧ logged.2.added.map Prod.fst = [⟨1, 4⟩] ∧
      c.ask (.operand "B1") (c.ask (.operand "B1") memo).2 = c.ask (.operand "B1") memo := by
  intro memo
  have hcheck : (Grid.ofLines [",A,B,C,D,E", "1,=B1+C1,=D1*C1,=A1/E1,=1+2,0"]).toOption.any
      (fun g =>
        let logged := (remembering g { memoize := true }).ask (.operand "B1")
          (LoggedMemo.mk memo [])
        decide (logged.1 = .error (.divisionByZero "A1/E1") ∧
          logged.2.added.map Prod.fst = [⟨1, 4⟩])) = true := by
    decide +kernel
  rcases h : Grid.ofLines [",A,B,C,D,E", "1,=B1+C1,=D1*C1,=A1/E1,=1+2,0"] with e | g
  · rw [h] at hcheck
    cases hcheck
  · simp only [h, Except.toOption, Option.any_some, decide_eq_true_eq] at hcheck
    obtain ⟨hsame, -, -, -, -, -, -, hagain⟩ :=
      ask_writes_once g (s := { memoize := true }) rfl (.operand "B1") memo
    exact ⟨g, rfl, hsame.symm.trans hcheck.1, hcheck.1, hcheck.2, hagain⟩

end Calculator

end FormulaGrid
