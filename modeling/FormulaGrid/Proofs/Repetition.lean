/-
**An evaluation that is asked for again has the same answer.**

A memo may hold anything: values of cells that have changed since, or values that no formula has.
Still it is filled in an orderly way.  A value that is there stays, and the value of a cell is added
once its formula is evaluated, when the cell is not in the memo.  So an evaluation that is asked
for again with the memo that it has left goes the same way as before: what it had a value for is
known now, and where it ended in a fault it ends in that fault again, since the cells on the way
there were not finished and are not in the memo.

What has to be shown is that a cell is not finished inside its own evaluation.  With worths for
values this is so because such a cell is worth nothing.  A memo that holds anything can cut a loop,
but then it is cut for the first round already: as long as the cells on the way round are not in
the memo, each round meets what the last one met, until the room runs out.

Main definitions:

* `Memo.Extends` — every value of one memo is in the other;
* `Calculator.Knows` — an operand has a value without the evaluation of a formula;
* `Calculator.Comes`, `Calculator.Inside` — the way from operand to operand, with what is known at
  the time, and the cells that lie on it;
* `Calculator.Lasts` — what remains of an answer.

Main results:

* `Calculator.not_ok_of_comes` — an operand whose evaluation comes back to it has no value;
* `Calculator.lasts_of_answer` — **a memo only grows, and answers last**;
* `Calculator.cell_again` — **the formula of a cell has the same answer again**.
-/

import FormulaGrid.Proofs.Evaluation
import Mathlib.Logic.Relation

set_option relaxedAutoImplicit false
set_option autoImplicit false

namespace FormulaGrid

open Relation (TransGen ReflTransGen)

/-! ### Memos that grow -/

/-- Every value of `memo` is in `memo'`. -/
def Memo.Extends (memo memo' : Memo) : Prop :=
  ∀ (p : Position) (v : Value), memo[p]? = some v → memo'[p]? = some v

namespace Memo.Extends

theorem refl (memo : Memo) : Memo.Extends memo memo := fun _ _ h => h

theorem trans {m m' m'' : Memo} (h : Memo.Extends m m') (h' : Memo.Extends m' m'') :
    Memo.Extends m m'' :=
  fun p v hv => h' p v (h p v hv)

/-- A value may be added for a cell that has none. -/
theorem insert {memo : Memo} {p : Position} (hp : memo[p]? = none) (v : Value) :
    Memo.Extends memo (memo.insert p v) := by
  intro q u hu
  rw [Std.ExtTreeMap.getElem?_insert]
  split
  next heq =>
    rw [Std.LawfulEqCmp.compare_eq_iff_eq] at heq
    obtain rfl := heq
    rw [hp] at hu
    cases hu
  · exact hu

end Memo.Extends

/-- The formula comes to the operand, if `K` tells which values are known: it is the left operand,
or it is the right one and the value of the left one is known. -/
def Formula.ComesTo (f : Formula) (K : String → Value → Prop) (operand : String) : Prop :=
  f.left = operand ∨ (f.right = operand ∧ ∃ v, K f.left v)

theorem Formula.ComesTo.mono {f : Formula} {K K' : String → Value → Prop} {operand : String}
    (h : f.ComesTo K operand) (hK : ∀ name v, K name v → K' name v) : f.ComesTo K' operand := by
  refine h.imp id fun ⟨hright, v, hv⟩ => ⟨hright, v, hK _ _ hv⟩

namespace Calculator

variable {c : Calculator} {memo memo' : Memo} {operand : String} {p : Position} {f : Formula}

/-! ### What is known -/

/-- The operand has a value without the evaluation of a formula. -/
def Knows (c : Calculator) (memo : Memo) (operand : String) (v : Value) : Prop :=
  c.read memo operand = .ok (.value v)

/-- What is known stays known. -/
theorem Knows.mono {v : Value} (h : c.Knows memo operand v) (hext : Memo.Extends memo memo') :
    c.Knows memo' operand v := by
  have hreads := c.read_reads memo operand
  rw [Knows] at h ⊢
  rw [h] at hreads
  cases hreads with
  | integer hv => simp only [read, hv]
  | cell hcell hv => simp only [read, hcell.1, hcell.2, hv]
  | remembered hcell htext hv =>
      obtain ⟨huse, hv⟩ := remembered?_eq_some_iff.1 hv
      have hv' := remembered?_eq_some_iff.2 ⟨huse, hext _ _ hv⟩
      simp only [read, hcell.1, hcell.2, htext, hv']

/-- A formula is read again as long as its cell is not in the memo. -/
theorem read_formula_again (h : c.read memo operand = .ok (.formula p f))
    (hp : memo'[p]? = none) : c.read memo' operand = .ok (.formula p f) := by
  obtain ⟨text, hcell, -, hparse, hm⟩ := read_eq_formula_iff.1 h
  have hmemo : c.remembered? memo' p = none := by
    rw [remembered?, MemoStore.get?_memo, hp]
    split <;> rfl
  exact read_eq_formula_iff.2 ⟨text, hcell, hmemo, hparse, hm⟩

/-- A cell whose value is in the memo is known under each of its names. -/
theorem knows_insert (huse : c.usesMemo = true) (h : c.read memo operand = .ok (.formula p f))
    (memo' : Memo) (v : Value) : c.Knows (memo'.insert p v) operand v := by
  obtain ⟨text, hcell, -, hparse, -⟩ := read_eq_formula_iff.1 h
  have hv : c.remembered? (memo'.insert p v) p = some v :=
    remembered?_eq_some_iff.2 ⟨huse, Std.ExtTreeMap.getElem?_insert_self⟩
  simp only [Knows, read, hcell.1, hcell.2, Formula.read?_eq_none_of_parse hparse, hv]

theorem not_mem_of_read_formula (huse : c.usesMemo = true)
    (h : c.read memo operand = .ok (.formula p f)) : memo[p]? = none := by
  obtain ⟨_, -, hmemo, -⟩ := read_eq_formula_iff.1 h
  rwa [remembered?, if_pos huse] at hmemo

/-! ### The way of an evaluation -/

/-- The evaluation of `a` comes to `b` at once, with the values that are known. -/
def Comes (c : Calculator) (memo : Memo) (a b : String) : Prop :=
  ∃ p f, c.read memo a = .ok (.formula p f) ∧ f.ComesTo (c.Knows memo) b

/-- **An operand whose evaluation comes back to it has no value**, and nothing is added to the memo
on the way round. -/
theorem not_ok_of_comes (room : Nat) (n : Nesting) (h : TransGen (c.Comes memo) operand operand) :
    ∃ e, c.answer room n operand memo = (.error e, memo) := by
  -- one level further in stands the next operand on the way round, which comes back to itself too
  induction room using Nat.strongRecOn generalizing n operand with
  | _ room ih =>
      obtain ⟨next, hnext, hback⟩ := TransGen.head'_iff.1 h
      obtain ⟨p, f, hread, hcomes⟩ := id hnext
      cases hp : n.namesFrom? p with
      | some names => exact ⟨_, answer_of_loop hread hp room⟩
      | none =>
          cases room with
          | zero => exact ⟨_, answer_zero_of_formula hread hp⟩
          | succ room =>
              obtain ⟨e, he⟩ :=
                ih room (by omega) (n.push c.settings.loops p operand) (TransGen.tail' hback hnext)
              refine ⟨e, ?_⟩
              rw [answer_succ_of_formula hread hp]
              rcases hcomes with rfl | ⟨rfl, v, hv⟩
              · simp only [Formula.answer, he, keep]
              · have hl := answer_of_read_value hv room (n.push c.settings.loops p operand)
                simp only [Formula.answer, hl, he, keep]

/-- The evaluation of the operand `via` that started somewhere is inside the formulas of some
cells, innermost first, with the values that are known. -/
inductive Inside (c : Calculator) (memo : Memo) : List Position → String → Prop
  | start (via : String) : Inside c memo [] via
  | push {ps : List Position} {via name : String} {p : Position} {f : Formula}
      (h : Inside c memo ps via) (hread : c.read memo via = .ok (.formula p f))
      (hcomes : f.ComesTo (c.Knows memo) name) : Inside c memo (p :: ps) name

section Inside

variable {ps : List Position} (h : c.Inside memo ps operand)

include h

/-- None of the cells is in the memo. -/
theorem Inside.not_mem (huse : c.usesMemo = true) : ∀ q ∈ ps, memo[q]? = none := by
  induction h with
  | start => simp
  | push _ hread _ ih =>
      rw [List.forall_mem_cons]
      exact ⟨not_mem_of_read_formula huse hread, ih⟩

/-- As long as none of the cells is in the memo, the evaluation is inside them. -/
theorem Inside.mono (hext : Memo.Extends memo memo') (hps : ∀ q ∈ ps, memo'[q]? = none) :
    c.Inside memo' ps operand := by
  induction h with
  | start via => exact .start via
  | push _ hread hcomes ih =>
      rw [List.forall_mem_cons] at hps
      refine .push (ih hps.2) (read_formula_again hread hps.1) ?_
      exact hcomes.mono fun _ _ hv => hv.mono hext

/-- From each of the cells the evaluation has come to the operand. -/
theorem Inside.exists_comes (hp : p ∈ ps) :
    ∃ via f, c.read memo via = .ok (.formula p f) ∧
      ∃ first, f.ComesTo (c.Knows memo) first ∧ ReflTransGen (c.Comes memo) first operand := by
  induction h with
  | start => cases hp
  | @push _ via name _ f _ hread hcomes ih =>
      rcases List.mem_cons.1 hp with rfl | hp
      · exact ⟨via, f, hread, name, hcomes, .refl⟩
      · obtain ⟨via', f', hread', first, hfirst, hway⟩ := ih hp
        exact ⟨via', f', hread', first, hfirst, hway.tail ⟨_, f, hread, hcomes⟩⟩

/-- An evaluation that enters a cell which it is inside comes back to where it is. -/
theorem Inside.comes_back (hread : c.read memo operand = .ok (.formula p f)) (hp : p ∈ ps) :
    TransGen (c.Comes memo) operand operand := by
  obtain ⟨via, f', hread', first, hfirst, hway⟩ := h.exists_comes hp
  obtain ⟨text, hcell, hparse⟩ := formula_of_read hread
  obtain ⟨text', hcell', hparse'⟩ := formula_of_read hread'
  -- the cell has one formula, by whatever name it is reached
  obtain rfl := Option.some.inj (hcell.get?.symm.trans hcell'.get?)
  obtain rfl := Except.ok.inj (hparse.symm.trans hparse')
  exact TransGen.head' ⟨p, f, hread, hfirst⟩ hway

end Inside

/-! ### Answers last -/

/-- What remains of the answer of an operand, for an evaluation inside the cells `ps`. -/
structure Lasts (c : Calculator) (ps : List Position) (room : Nat) (n : Nesting)
    (operand : String) (memo : Memo) (o : Answer) : Prop where
  /-- The memo only grows. -/
  grows : Memo.Extends memo o.2
  /-- None of the cells is finished. -/
  unfinished : ∀ q ∈ ps, o.2[q]? = none
  /-- A value is known from now on. -/
  value : ∀ v, o.1 = .ok v → c.Knows o.2 operand v
  /-- A fault comes up again. -/
  fault : ∀ e, o.1 = .error e → c.answer room n operand o.2 = o

end Calculator

/-- What remains of the answers of the operands remains of the answer of the formula. -/
theorem Formula.answer_again {c : Calculator} {ps : List Position} {room : Nat} {n : Nesting}
    {f : Formula} {memo : Memo}
    (hleft : c.Lasts ps room n f.left memo (c.answer room n f.left memo))
    (hright : ∀ a, (c.answer room n f.left memo).1 = .ok a →
      c.Lasts ps room n f.right (c.answer room n f.left memo).2
        (c.answer room n f.right (c.answer room n f.left memo).2)) :
    Memo.Extends memo (f.answer (c.answer room n) memo).2 ∧
      (∀ q ∈ ps, (f.answer (c.answer room n) memo).2[q]? = none) ∧
      f.answer (c.answer room n) (f.answer (c.answer room n) memo).2 =
        f.answer (c.answer room n) memo := by
  rcases hl : c.answer room n f.left memo with ⟨e | a, memo₁⟩
  · rw [hl] at hleft
    have hagain := hleft.fault e rfl
    simp only [Formula.answer, hl, hagain]
    exact ⟨hleft.grows, hleft.unfinished, trivial⟩
  · rw [hl] at hleft hright
    have hright := hright a rfl
    rcases hr : c.answer room n f.right memo₁ with ⟨e | b, memo₂⟩
    all_goals
      rw [hr] at hright
      have hknown : c.Knows memo₂ f.left a := (hleft.value a rfl).mono hright.grows
      have hl' := Calculator.answer_of_read_value hknown room n
    · have hr' := hright.fault e rfl
      simp only [Formula.answer, hl, hr, hl', hr']
      exact ⟨hleft.grows.trans hright.grows, hright.unfinished, trivial⟩
    · have hr' := Calculator.answer_of_read_value (hright.value b rfl) room n
      simp only [Formula.answer, hl, hr, hl', hr']
      exact ⟨hleft.grows.trans hright.grows, hright.unfinished, trivial⟩

namespace Calculator

variable {c : Calculator} {memo : Memo}

/-- What is read without an evaluation lasts. -/
theorem Lasts.of_eq {ps : List Position} {room : Nat} {n : Nesting} {operand : String}
    {r : Except Fault Value} (h : c.answer room n operand memo = (r, memo))
    (hps : ∀ q ∈ ps, memo[q]? = none) (hvalue : ∀ v, r = .ok v → c.Knows memo operand v) :
    c.Lasts ps room n operand memo (r, memo) where
  grows := .refl memo
  unfinished := hps
  value := hvalue
  fault _ _ := h

/-- **A memo only grows, and answers last**: the cells that an evaluation is inside are not
finished by it, a value that it has found is known from then on, and a fault comes up again. -/
theorem lasts_of_answer (huse : c.usesMemo = true) {ps : List Position} (room : Nat) (n : Nesting)
    (operand : String) (h : c.Inside memo ps operand) :
    c.Lasts ps room n operand memo (c.answer room n operand memo) := by
  induction room, n, operand, memo using c.answer_induction generalizing ps with
  | fault room n operand memo e hread =>
      exact .of_eq (answer_of_read_error hread room n) (h.not_mem huse) (by simp)
  | value room n operand memo v hread =>
      refine .of_eq (answer_of_read_value hread room n) (h.not_mem huse) fun u hu => ?_
      obtain rfl := Except.ok.inj hu
      exact hread
  | loop room n operand memo p f names hread hp =>
      exact .of_eq (answer_of_loop hread hp room) (h.not_mem huse) (by simp)
  | noRoom n operand memo p f hread hp =>
      exact .of_eq (answer_zero_of_formula hread hp) (h.not_mem huse) (by simp)
  | nested room n operand memo p f hread hp ih =>
      -- the cell that is entered stays open until its formula has a value
      have hleft := ih f.left memo (h.push hread (.inl rfl))
      have hin := h.mono hleft.grows fun q hq => hleft.unfinished q (List.mem_cons_of_mem p hq)
      have hread' := read_formula_again hread (hleft.unfinished p (List.mem_cons_self ..))
      obtain ⟨hgrows, hopen, hagain⟩ := f.answer_again hleft fun a ha =>
        ih f.right _ (hin.push hread' (.inr ⟨rfl, a, hleft.value a ha⟩))
      rw [List.forall_mem_cons] at hopen
      have hstart := answer_succ_of_formula hread hp room
      rcases hf : f.answer (c.answer room (n.push c.settings.loops p operand)) memo with
        ⟨e | v, memo'⟩
      all_goals rw [hf] at hgrows hopen hagain hstart
      · refine ⟨hgrows, hopen.2, by simp [keep], fun _ _ => ?_⟩
        have hread'' := read_formula_again hread hopen.1
        rw [keep, answer_succ_of_formula hread'' hp, hagain, keep]
      · -- a cell that the evaluation is inside already would have led back here
        have hp' : p ∉ ps := by
          intro hp'
          obtain ⟨e, he⟩ := not_ok_of_comes (room + 1) n (h.comes_back hread hp')
          rw [he, keep] at hstart
          cases hstart
        simp only [keep, huse, if_true, MemoStore.insert_memo]
        refine ⟨hgrows.trans (.insert hopen.1 v), fun q hq => ?_, fun u hu => ?_, by simp⟩
        · rw [Std.ExtTreeMap.getElem?_insert, if_neg]
          · exact hopen.2 q hq
          · rw [Std.LawfulEqCmp.compare_eq_iff_eq]
            rintro rfl
            exact hp' hq
        · obtain rfl := Except.ok.inj hu
          exact knows_insert huse hread memo' v

/-! ### Evaluations that start from outside -/

/-- **An operand that is asked for again has the same answer.** -/
theorem operand_again (name : String) (memo : Memo) :
    c.operand name (c.operand name memo).2 = c.operand name memo := by
  simp only [operand_eq_answer]
  cases huse : c.usesMemo with
  | false => rw [answer_snd huse]
  | true =>
      have hstart : c.Inside memo [] name := .start name
      have h := lasts_of_answer huse c.settings.maxDepth .empty name hstart
      rcases ho : c.answer c.settings.maxDepth .empty name memo with ⟨e | v, memo'⟩
      all_goals rw [ho] at h
      · exact h.fault e rfl
      · exact answer_of_read_value (h.value v rfl) _ _

/-- What is asked for the operands of a formula can be asked for again. -/
theorem answer_formula_again (room : Nat) (n : Nesting) (f : Formula) (memo : Memo) :
    f.answer (c.answer room n) (f.answer (c.answer room n) memo).2 =
      f.answer (c.answer room n) memo := by
  cases huse : c.usesMemo with
  | false =>
      have hkept : (f.answer (c.answer room n) memo).2 = memo :=
        f.answer_keeps (I := (· = memo)) (fun name _ h => h ▸ answer_snd huse room n name) rfl
      rw [hkept]
  | true =>
      exact (f.answer_again (lasts_of_answer huse room n f.left (.start _)) fun _ _ =>
        lasts_of_answer huse room n f.right (.start _)).2.2

/-- **A formula that is asked for again has the same answer.** -/
theorem formula_again (f : Formula) (memo : Memo) :
    c.formula f (c.formula f memo).2 = c.formula f memo := by
  simp only [formula_eq_answer, answer_formula_again]

/-- **The formula of a cell has the same answer again.** -/
theorem cell_again (p : Position) (f : Formula) (memo : Memo) :
    c.cell p f (c.cell p f memo).2 = c.cell p f memo := by
  simp only [cell_eq_answer]
  cases c.settings.maxDepth with
  | zero => rfl
  | succ room => exact answer_formula_again room _ f memo

end Calculator

end FormulaGrid
