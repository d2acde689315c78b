/-
**A memo of worths changes no answer.**

Two calculators evaluate one grid with one bound and one loop policy; the first has no memo, the
second has a memo of worths.  Where the second takes a value from its memo the first goes on to
evaluate the formula of the cell.  Since that cell is worth something, the first can only find the
same value or run out of room: no loop and no fault lies on its way.  Everywhere else the two take
the same steps.

Main definitions:

* `Answer.Follows` — an answer agrees with another one, unless the other ran out of room.

Main results:

* `Calculator.answer_follows` — **with a memo of worths an operand has the answer that it has
  without**, unless the bound is met without;
* `Calculator.formula_follows`, `Calculator.cell_follows` — the same for formulas.
-/

import FormulaGrid.Proofs.Evaluation

set_option relaxedAutoImplicit false
set_option autoImplicit false

namespace FormulaGrid

/-- The answer `o` ran out of room, or `o'` has its result and their memos are related. -/
def Answer.Follows (J : Memo → Memo → Prop) (o o' : Answer) : Prop :=
  o.RanOut ∨ (o'.1 = o.1 ∧ J o.2 o'.2)

/-- If the answers of the operands agree, so do the answers of the formula. -/
theorem Formula.answer_follows {J : Memo → Memo → Prop} {f : Formula}
    {asked asked' : String → Memo → Answer}
    (h : ∀ name m m', f.Mentions name → J m m' → Answer.Follows J (asked name m) (asked' name m'))
    {m m' : Memo} (hJ : J m m') : Answer.Follows J (f.answer asked m) (f.answer asked' m') := by
  have hleft := h f.left m m' (.inl rfl) hJ
  rcases hl : (asked f.left m).1 with e | a
  · rw [answer_of_left_error hl]
    rcases hleft with ⟨name, limit, hout⟩ | ⟨hres, hJ₁⟩
    · exact .inl ⟨name, limit, hl.symm.trans hout⟩
    · rw [answer_of_left_error (hres.trans hl)]
      exact .inr ⟨rfl, hJ₁⟩
  · rcases hleft with ⟨name, limit, hout⟩ | ⟨hres, hJ₁⟩
    · cases hl.symm.trans hout
    have hright := h f.right _ _ (.inr rfl) hJ₁
    have hl' := hres.trans hl
    rcases hr : (asked f.right (asked f.left m).2).1 with e | b
    · rw [answer_of_right_error hl hr]
      rcases hright with ⟨name, limit, hout⟩ | ⟨hres, hJ₂⟩
      · exact .inl ⟨name, limit, hr.symm.trans hout⟩
      · rw [answer_of_right_error hl' (hres.trans hr)]
        exact .inr ⟨rfl, hJ₂⟩
    · rcases hright with ⟨name, limit, hout⟩ | ⟨hres, hJ₂⟩
      · cases hr.symm.trans hout
      rw [answer_of_ok hl hr, answer_of_ok hl' (hres.trans hr)]
      exact .inr ⟨rfl, hJ₂⟩

namespace Calculator

/-- What is read with a memo is what is read without one, or a value from the memo. -/
theorem read_eq_or_remembered {c d : Calculator} (hgrid : d.grid = c.grid)
    (hplain : c.usesMemo = false) (m m' : Memo) (operand : String) :
    d.read m' operand = c.read m operand ∨
      ∃ p text v, c.grid.Refers operand p text ∧ d.remembered? m' p = some v ∧
        d.read m' operand = .ok (.value v) := by
  have hnone : ∀ p, c.remembered? m p = none := fun p => by simp [remembered?, hplain]
  unfold read
  rw [hgrid]
  cases hname : Value.read? operand with
  | some v => exact .inl rfl
  | none =>
      rcases hlook : c.grid.lookUp operand with e | ⟨p, text⟩
      · exact .inl rfl
      · cases htext : Value.read? text with
        | some v => exact .inl (by simp only [htext])
        | none =>
            cases hmemo : d.remembered? m' p with
            | some v =>
                exact .inr ⟨p, text, v, ⟨hname, hlook⟩, hmemo, by simp only [htext, hmemo]⟩
            | none => exact .inl (by simp only [htext, hmemo, hnone])

section Follows

variable {c d : Calculator} (hgrid : d.grid = c.grid)
  (hloops : d.settings.loops = c.settings.loops) (hplain : c.usesMemo = false)

include hgrid hloops hplain

/-- **With a memo of worths an operand has the answer that it has without one**, unless the bound
is met without one. -/
theorem answer_follows (room : Nat) {n : Nesting} {operand : String} (m : Memo) {m' : Memo}
    (ht : d.Trusts m') (hn : n.Awaits c.grid operand) :
    Answer.Follows (fun _ m' => d.Trusts m') (c.answer room n operand m)
      (d.answer room n operand m') := by
  have hafter := (worth_of_answer (c := d) room n operand ht).1
  suffices hres : (c.answer room n operand m).RanOut ∨
      (d.answer room n operand m').1 = (c.answer room n operand m).1 by
    exact hres.imp id fun hres => ⟨hres, hafter⟩
  clear hafter
  induction room using Nat.strongRecOn generalizing n operand m m' with
  | _ room ih =>
      rcases read_eq_or_remembered hgrid hplain m m' operand with hread | hmemo
      · rcases hr : c.read m operand with e | v | ⟨p, f⟩
        · rw [answer_of_read_error hr, answer_of_read_error (hread.trans hr)]
          exact .inr rfl
        · rw [answer_of_read_value hr, answer_of_read_value (hread.trans hr)]
          exact .inr rfl
        · have hr' := hread.trans hr
          cases hp : n.namesFrom? p with
          | some names =>
              rw [answer_of_loop hr hp, answer_of_loop hr' hp]
              exact .inr rfl
          | none =>
              cases room with
              | zero =>
                  rw [answer_zero_of_formula hr hp]
                  exact .inl ⟨_, _, rfl⟩
              | succ room =>
                  obtain ⟨text, hcell, hparse⟩ := formula_of_read hr
                  have hf : Answer.Follows (fun _ m' => d.Trusts m')
                      (f.answer (c.answer room (n.push c.settings.loops p operand)) m)
                      (f.answer (d.answer room (n.push c.settings.loops p operand)) m') := by
                    refine Formula.answer_follows (J := fun _ m' => d.Trusts m') ?_ ht
                    intro name m m' hm ht
                    have hres := ih room (by omega) m ht (hn.push hcell hparse hm c.settings.loops)
                    exact hres.imp id fun hres => ⟨hres, (worth_of_answer room _ name ht).1⟩
                  rw [answer_succ_of_formula hr hp, answer_succ_of_formula hr' hp, hloops]
                  unfold Answer.RanOut
                  rw [keep_fst, keep_fst]
                  exact hf.imp id And.left
      · -- the value is in the memo, and without it the cell is evaluated
        obtain ⟨p, text, v, hcell, hv, hread⟩ := hmemo
        obtain ⟨huse, hv⟩ := remembered?_eq_some_iff.1 hv
        have hworth : c.grid.Worth operand v := by
          rw [hcell.worth_iff, ← hgrid]
          exact (ht huse p v hv).2
        rw [answer_of_read_value hread]
        rcases answer_complete room (trusts_of_plain hplain m) hn v hworth with hres | ⟨hout, -⟩
        · exact .inr hres.symm
        · exact .inl hout

variable (hdepth : d.settings.maxDepth = c.settings.maxDepth)

include hdepth

theorem operand_follows (name : String) (m : Memo) {m' : Memo} (ht : d.Trusts m') :
    Answer.Follows (fun _ m' => d.Trusts m') (c.operand name m) (d.operand name m') := by
  rw [operand_eq_answer, operand_eq_answer, hdepth]
  exact answer_follows hgrid hloops hplain _ m ht (Nesting.awaits_empty _ name)

theorem formula_follows (f : Formula) (m : Memo) {m' : Memo} (ht : d.Trusts m') :
    Answer.Follows (fun _ m' => d.Trusts m') (c.formula f m) (d.formula f m') := by
  rw [formula_eq_answer, formula_eq_answer, hdepth]
  refine Formula.answer_follows (J := fun _ m' => d.Trusts m') ?_ ht
  intro name m m' _ ht
  exact answer_follows hgrid hloops hplain _ m ht (Nesting.awaits_empty _ name)

/-- **The formula of a cell has with a memo of worths the answer that it has without one.**  The
formula has to be the one that the cell holds: another one could lead back to the cell, and only
without the memo would that loop be seen. -/
theorem cell_follows {p : Position} {text : String} {f : Formula}
    (hget : c.grid.get? p = some text) (hparse : Formula.parse text = .ok f) (m : Memo)
    {m' : Memo} (ht : d.Trusts m') :
    Answer.Follows (fun _ m' => d.Trusts m') (c.cell p f m) (d.cell p f m') := by
  rw [cell_eq_answer, cell_eq_answer, hdepth, hgrid, hloops]
  cases c.settings.maxDepth with
  | zero => exact .inl ⟨_, _, rfl⟩
  | succ room =>
      refine Formula.answer_follows (J := fun _ m' => d.Trusts m') ?_ ht
      intro name m m' hm ht
      exact answer_follows hgrid hloops hplain room m ht
        (Nesting.awaits_push_empty hget hparse hm _ _)

end Follows

end Calculator

end FormulaGrid
