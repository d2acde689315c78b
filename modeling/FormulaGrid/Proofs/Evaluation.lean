/-
**An evaluation finds what an operand is worth.**

Evaluating an operand with room for so many nested formulas gives a value exactly if the operand
has that worth by a derivation of no greater height.  One direction builds the derivation from the
evaluation.  The other has to show that no check gets in the way: a formula that mentions the text
by which it was reached, or a cell that is being evaluated already, would have to await its own
worth, and then it has none.

Main definitions:

* `Nesting.Awaits` — every cell that is being evaluated awaits the operand at hand;
* `Grid.Backs`, `Calculator.Trusts` — the values in a memo are worths of data cells of the grid;
* `Calculator.Reads` — the ways in which an operand is read;
* `Answer.Complete` — the answer is a worth wherever there is one and the room suffices.

Main results:

* `Calculator.answer_sound` — what the rules of a relation make of one step, evaluations keep;
* `Calculator.worth_of_answer`, `Calculator.worthIn_of_answer` — a value is a worth;
* `Calculator.answer_complete` — a worth is found, if the room suffices;
* `Calculator.plain_eq_ok_iff` — **values without a memo are the worths of bounded height**.
-/

import FormulaGrid.Proofs.Answer
import FormulaGrid.Proofs.Worth

set_option relaxedAutoImplicit false
set_option autoImplicit false

namespace FormulaGrid

/-! ### Nestings that await an operand -/

namespace Nesting

/-- Every cell that is being evaluated, as far as loops are looked for, awaits the operand. -/
def Awaits (n : Nesting) (g : Grid) (operand : String) : Prop :=
  ∀ p ∈ n.active, g.Awaits p operand

theorem awaits_empty (g : Grid) (operand : String) : empty.Awaits g operand := by
  intro p hp
  simp [empty] at hp

theorem eq_or_mem_of_mem_push {policy : LoopPolicy} {n : Nesting} {p q : Position}
    {name : String} (h : q ∈ (n.push policy p name).active) : q = p ∨ q ∈ n.active := by
  simp only [push] at h
  split at h
  · rw [Std.ExtTreeSet.mem_insert, Std.LawfulEqCmp.compare_eq_iff_eq] at h
    exact h.imp Eq.symm id
  · exact .inr h

variable {g : Grid} {n : Nesting} {p : Position} {operand text : String} {f : Formula}

/-- Inside the formula of a cell, the nesting awaits each operand of that formula. -/
theorem Awaits.push (h : n.Awaits g operand) (hcell : g.Refers operand p text)
    (hparse : Formula.parse text = .ok f) {name : String} (hm : f.Mentions name)
    (policy : LoopPolicy) : (n.push policy p operand).Awaits g name := by
  have hp : g.Awaits p name := Grid.awaits_of_mentions hcell.get? hparse hm
  intro q hq
  -- a cell further out awaits the name of `p`, and so what `p` awaits
  rcases eq_or_mem_of_mem_push hq with rfl | hq
  · exact hp
  · exact (h q hq).trans hcell hp

theorem awaits_push_empty (hget : g.get? p = some text) (hparse : Formula.parse text = .ok f)
    {name : String} (hm : f.Mentions name) (policy : LoopPolicy) (via : String) :
    (empty.push policy p via).Awaits g name := by
  intro q hq
  rcases eq_or_mem_of_mem_push hq with rfl | hq
  · exact Grid.awaits_of_mentions hget hparse hm
  · simp [empty] at hq

/-- A cell that is worth something closes no loop. -/
theorem Awaits.namesFrom?_eq_none (h : n.Awaits g operand) (hcell : g.Refers operand p text)
    {v : Value} (hw : g.Worth operand v) : n.namesFrom? p = none := by
  rw [namesFrom?_eq_none_iff]
  intro hp
  exact (h p hp).not_worth hcell v hw

end Nesting

/-! ### What is read -/

/-- Every value in the memo is the worth of a data cell of the grid. -/
def Grid.Backs (g : Grid) (memo : Memo) : Prop :=
  ∀ (p : Position) (v : Value), memo[p]? = some v → p ∈ g.dataPositions ∧ g.CellWorth p v

theorem Grid.backs_empty (g : Grid) : g.Backs ∅ := by
  intro p v h
  simp at h

theorem Grid.Backs.insert {g : Grid} {memo : Memo} (h : g.Backs memo) {p : Position} {v : Value}
    (hp : p ∈ g.dataPositions) (hv : g.CellWorth p v) : g.Backs (memo.insert p v) := by
  intro q u hq
  rw [Std.ExtTreeMap.getElem?_insert] at hq
  split at hq
  · next heq =>
    rw [Std.LawfulEqCmp.compare_eq_iff_eq] at heq
    obtain rfl := heq
    obtain rfl := Option.some.inj hq
    exact ⟨hp, hv⟩
  · exact h q u hq

namespace Calculator

/-- If the memo is used, its values are worths of data cells. -/
def Trusts (c : Calculator) (memo : Memo) : Prop := c.usesMemo = true → c.grid.Backs memo

variable {c : Calculator} {memo : Memo} {operand : String}

/-- Where no memo is used there is nothing to be trusted. -/
theorem trusts_of_plain (hplain : c.usesMemo = false) (memo : Memo) : c.Trusts memo := by
  intro huse
  rw [hplain] at huse
  cases huse

theorem remembered?_eq_some_iff {p : Position} {v : Value} :
    c.remembered? memo p = some v ↔ c.usesMemo = true ∧ memo[p]? = some v := by
  unfold remembered?
  split
  · next h => simp [h]
  · next h => simp [h]

/-- The ways in which an operand is read. -/
inductive Reads (c : Calculator) (memo : Memo) (operand : String) : Except Fault Reading → Prop
  | integer {v : Value} (h : Value.read? operand = some v) : Reads c memo operand (.ok (.value v))
  | noCell {e : Fault} (h : Value.read? operand = none)
      (hlook : c.grid.lookUp operand = .error e) : Reads c memo operand (.error e)
  | cell {p : Position} {text : String} {v : Value} (hcell : c.grid.Refers operand p text)
      (h : Value.read? text = some v) : Reads c memo operand (.ok (.value v))
  | remembered {p : Position} {text : String} {v : Value} (hcell : c.grid.Refers operand p text)
      (htext : Value.read? text = none) (h : c.remembered? memo p = some v) :
      Reads c memo operand (.ok (.value v))
  | notFormula {p : Position} {text : String} {e : Fault} (hcell : c.grid.Refers operand p text)
      (htext : Value.read? text = none) (hmemo : c.remembered? memo p = none)
      (hparse : Formula.parse text = .error e) : Reads c memo operand (.error e)
  | selfReference {p : Position} {text : String} {f : Formula}
      (hcell : c.grid.Refers operand p text) (hmemo : c.remembered? memo p = none)
      (hparse : Formula.parse text = .ok f) (hm : f.Mentions operand) :
      Reads c memo operand (.error (.selfReference operand text))
  | formula {p : Position} {text : String} {f : Formula} (hcell : c.grid.Refers operand p text)
      (hmemo : c.remembered? memo p = none) (hparse : Formula.parse text = .ok f)
      (hm : ¬ f.Mentions operand) : Reads c memo operand (.ok (.formula p f))

theorem read_reads (c : Calculator) (memo : Memo) (operand : String) :
    c.Reads memo operand (c.read memo operand) := by
  unfold read
  cases hname : Value.read? operand with
  | some v => exact .integer hname
  | none =>
      rcases hlook : c.grid.lookUp operand with e | ⟨p, text⟩
      · exact .noCell hname hlook
      have hcell : c.grid.Refers operand p text := ⟨hname, hlook⟩
      dsimp only
      cases htext : Value.read? text with
      | some v => exact .cell hcell htext
      | none =>
          dsimp only
          cases hmemo : c.remembered? memo p with
          | some v => exact .remembered hcell htext hmemo
          | none =>
              dsimp only
              cases hparse : Formula.parse text with
              | error e => exact .notFormula hcell htext hmemo hparse
              | ok f =>
                  dsimp only
                  by_cases hm : f.Mentions operand
                  · rw [if_pos hm]
                    exact .selfReference hcell hmemo hparse hm
                  · rw [if_neg hm]
                    exact .formula hcell hmemo hparse hm

/-- The formula of a cell is read if the memo has no value for the cell, and the formula does not
mention the name by which it was reached. -/
theorem read_eq_formula_iff {p : Position} {f : Formula} :
    c.read memo operand = .ok (.formula p f) ↔
      ∃ text, c.grid.Refers operand p text ∧ c.remembered? memo p = none ∧
        Formula.parse text = .ok f ∧ ¬ f.Mentions operand := by
  constructor
  · intro h
    have hreads := c.read_reads memo operand
    rw [h] at hreads
    cases hreads with
    | formula hcell hmemo hparse hm => exact ⟨_, hcell, hmemo, hparse, hm⟩
  · rintro ⟨text, ⟨hname, hlook⟩, hmemo, hparse, hm⟩
    have htext := Formula.read?_eq_none_of_parse hparse
    simp only [read, hname, hlook, htext, hmemo, hparse, if_neg hm]

/-- A formula that is read stands in the cell of that name. -/
theorem formula_of_read {p : Position} {f : Formula}
    (h : c.read memo operand = .ok (.formula p f)) :
    ∃ text, c.grid.Refers operand p text ∧ Formula.parse text = .ok f := by
  obtain ⟨text, hcell, -, hparse, -⟩ := read_eq_formula_iff.1 h
  exact ⟨text, hcell, hparse⟩

/-- **Where reading already fails there is no worth**: nothing has that name, or its text is no
formula, or it awaits itself. -/
theorem not_worth_of_read_error {e : Fault} (h : c.read memo operand = .error e) (v : Value) :
    ¬ c.grid.Worth operand v := by
  have hreads := c.read_reads memo operand
  rw [h] at hreads
  cases hreads with
  | noCell hname hlook =>
      intro hw
      cases hw with
      | integer hv => cases hname.symm.trans hv
      | cell hcell _ | formula hcell _ _ _ _ => cases hlook.symm.trans hcell.2
  | notFormula hcell htext _ hparse =>
      rw [hcell.worth_iff]
      intro hw
      rcases hw.read_or_parse hcell.get? with hv | ⟨f, hparse'⟩
      · cases htext.symm.trans hv
      · cases hparse.symm.trans hparse'
  | selfReference hcell _ hparse hm =>
      exact (Grid.awaits_of_mentions hcell.get? hparse hm).not_worth hcell v

theorem worth_of_read_value (ht : c.Trusts memo) {v : Value}
    (h : c.read memo operand = .ok (.value v)) : c.grid.Worth operand v := by
  have hreads := c.read_reads memo operand
  rw [h] at hreads
  cases hreads with
  | integer hv => exact .integer hv
  | cell hcell hv => exact .cell hcell hv
  | remembered hcell _ hv =>
      obtain ⟨huse, hv⟩ := remembered?_eq_some_iff.1 hv
      exact hcell.worth_iff.2 (ht huse _ v hv).2

theorem worthIn_of_read_value (hplain : c.usesMemo = false) {v : Value}
    (h : c.read memo operand = .ok (.value v)) (n : Nat) : c.grid.WorthIn n operand v := by
  have hreads := c.read_reads memo operand
  rw [h] at hreads
  cases hreads with
  | integer hv => exact .integer hv
  | cell hcell hv => exact .cell hcell hv
  | remembered _ _ hv => simp [remembered?, hplain] at hv

/-! ### Values are worths -/

end Calculator

/-- If operands keep `I` of the memo and have values in `R`, then so does the formula. -/
theorem Formula.answer_sound {I : Memo → Prop} {R : String → Value → Prop}
    {operand : String → Memo → Answer}
    (h : ∀ name memo, I memo →
      I (operand name memo).2 ∧ ∀ v, (operand name memo).1 = .ok v → R name v)
    (f : Formula) {memo : Memo} (hI : I memo) :
    I (f.answer operand memo).2 ∧ ∀ v, (f.answer operand memo).1 = .ok v → f.WorthBy R v := by
  obtain ⟨hafter, hleft⟩ := h f.left memo hI
  obtain ⟨hafter', hright⟩ := h f.right _ hafter
  rcases hl : (operand f.left memo).1 with e | a
  · rw [answer_of_left_error hl]
    exact ⟨hafter, by simp⟩
  · rcases hr : (operand f.right (operand f.left memo).2).1 with e | b
    · rw [answer_of_right_error hl hr]
      exact ⟨hafter', by simp⟩
    · rw [answer_of_ok hl hr]
      refine ⟨hafter', fun v hv => ⟨a, b, hleft a hl, hright b hr, ?_⟩⟩
      exact Formula.result_eq_ok_iff.1 hv

theorem Formula.answer_keeps {I : Memo → Prop} {operand : String → Memo → Answer}
    (h : ∀ name memo, I memo → I (operand name memo).2) (f : Formula) {memo : Memo}
    (hI : I memo) : I (f.answer operand memo).2 := by
  have hsound : ∀ name memo, I memo →
      I (operand name memo).2 ∧ ∀ v, (operand name memo).1 = .ok v → True :=
    fun name memo hI => ⟨h name memo hI, fun _ _ => trivial⟩
  exact (f.answer_sound (R := fun _ _ => True) hsound hI).1

namespace Calculator

/-- **What the rules of a relation make of one step, evaluations keep.**  `I` is what is known of
the memo, and `R` what is known of values by the room there was. -/
theorem answer_sound {c : Calculator} {I : Memo → Prop} {R : Nat → String → Value → Prop}
    (hvalue : ∀ room memo operand v, I memo → c.read memo operand = .ok (.value v) →
      R room operand v)
    (hformula : ∀ room memo operand p f v, I memo → c.read memo operand = .ok (.formula p f) →
      f.WorthBy (R room) v → R (room + 1) operand v)
    (hkeep : ∀ memo room memo' operand p f v, c.read memo operand = .ok (.formula p f) →
      c.usesMemo = true → f.WorthBy (R room) v → I memo' → I (memo'.insert p v))
    (room : Nat) (n : Nesting) (operand : String) (memo : Memo) (hI : I memo) :
    I (c.answer room n operand memo).2 ∧
      ∀ v, (c.answer room n operand memo).1 = .ok v → R room operand v := by
  revert hI
  induction room, n, operand, memo using c.answer_induction with
  | fault | loop | noRoom => exact fun hI => ⟨hI, by simp⟩
  | value room n operand memo v hread =>
      intro hI
      refine ⟨hI, fun u hu => ?_⟩
      obtain rfl := Except.ok.inj hu
      exact hvalue room memo operand v hI hread
  | nested room n operand memo p f hread hp ih =>
      intro hI
      obtain ⟨hafter, hworth⟩ := f.answer_sound (R := R room) ih hI
      constructor
      · rcases c.keep_snd p (f.answer (c.answer room (n.push c.settings.loops p operand)) memo) with
          heq | ⟨v, hv, huse, heq⟩
        · rw [heq]
          exact hafter
        · rw [heq]
          exact hkeep memo room _ operand p f v hread huse (hworth v hv) hafter
      · intro v hv
        rw [keep_fst] at hv
        exact hformula room memo operand p f v hI hread (hworth v hv)

variable {c : Calculator} {memo : Memo}

/-- With a memo of worths a value is a worth, and the memo stays one of worths. -/
theorem worth_of_answer (room : Nat) (n : Nesting) (operand : String) (ht : c.Trusts memo) :
    c.Trusts (c.answer room n operand memo).2 ∧
      ∀ v, (c.answer room n operand memo).1 = .ok v → c.grid.Worth operand v := by
  refine answer_sound (I := c.Trusts) (R := fun _ => c.grid.Worth) ?_ ?_ ?_ room n operand memo ht
  · intro _ memo operand v ht hread
    exact worth_of_read_value ht hread
  · intro _ memo operand p f v _ hread hv
    obtain ⟨text, hcell, hparse⟩ := formula_of_read hread
    rw [hcell.worth_iff, Grid.cellWorth_of_formula hcell.get? hparse]
    exact hv
  · intro memo _ memo' operand p f v hread huse hv ht _
    obtain ⟨text, hcell, hparse⟩ := formula_of_read hread
    exact (ht huse).insert hcell.mem_dataPositions (.formula hcell.get? hparse hv)

/-- Without a memo a value is a worth whose derivation fits the room. -/
theorem worthIn_of_answer (hplain : c.usesMemo = false) {room : Nat} {n : Nesting}
    {operand : String} {v : Value} (h : (c.answer room n operand memo).1 = .ok v) :
    c.grid.WorthIn room operand v := by
  refine (answer_sound (I := fun _ => True) (R := c.grid.WorthIn) ?_ ?_ ?_ room n operand memo
    trivial).2 v h
  · intro room memo operand v _ hread
    exact worthIn_of_read_value hplain hread room
  · intro room memo operand p f v _ hread hv
    obtain ⟨text, hcell, hparse⟩ := formula_of_read hread
    obtain ⟨a, b, ha, hb, hv⟩ := hv
    exact .formula hcell hparse ha hb hv
  · intros
    trivial

/-- Without a memo the one that is passed on is left alone. -/
theorem answer_snd (hplain : c.usesMemo = false) (room : Nat) (n : Nesting) (operand : String) :
    (c.answer room n operand memo).2 = memo := by
  refine (answer_sound (I := (· = memo)) (R := fun _ _ _ => True) ?_ ?_ ?_ room n operand memo
    rfl).1
  · intros
    trivial
  · intros
    trivial
  · intro _ _ _ _ _ _ _ _ huse
    rw [hplain] at huse
    cases huse

/-- A memo of worths stays one, whether it is used or not. -/
theorem backs_of_answer (room : Nat) (n : Nesting) (operand : String)
    (hb : c.grid.Backs memo) : c.grid.Backs (c.answer room n operand memo).2 := by
  cases huse : c.usesMemo with
  | true => exact (worth_of_answer room n operand fun _ => hb).1 huse
  | false => rwa [answer_snd huse]

end Calculator

/-! ### Worths are found -/

/-- Where `R` gives a value, the answer is that value; or the room ran out, and then the bounded
relation `S` gives none. -/
def Answer.Complete (o : Answer) (R S : Value → Prop) : Prop :=
  ∀ v, R v → o.1 = .ok v ∨ (o.RanOut ∧ ∀ u, ¬ S u)

theorem Answer.Complete.eq_ok {o : Answer} {R S : Value → Prop} (h : o.Complete R S) {v : Value}
    (hR : R v) (hS : S v) : o.1 = .ok v :=
  (h v hR).resolve_right fun hout => hout.2 v hS

/-- If the worths of both operands are found, so is that of the formula. -/
theorem Formula.answer_complete {I : Memo → Prop} {R S : String → Value → Prop}
    {operand : String → Memo → Answer} {f : Formula} {memo : Memo}
    (hsound : ∀ name memo, I memo → I (operand name memo).2)
    (h : ∀ name memo, f.Mentions name → I memo → (operand name memo).Complete (R name) (S name))
    (hI : I memo) : (f.answer operand memo).Complete (f.WorthBy R) (f.WorthBy S) := by
  rintro v ⟨a, b, ha, hb, hv⟩
  rcases h f.left memo (.inl rfl) hI a ha with hl | ⟨⟨name, limit, hout⟩, hno⟩
  · rcases h f.right _ (.inr rfl) (hsound f.left memo hI) b hb with hr | ⟨⟨name, limit, hout⟩, hno⟩
    · rw [answer_of_ok hl hr]
      exact .inl (Formula.result_eq_ok_iff.2 hv)
    · rw [answer_of_right_error hl hout]
      refine .inr ⟨⟨name, limit, rfl⟩, ?_⟩
      rintro u ⟨a', b', -, hb', -⟩
      exact hno b' hb'
  · rw [answer_of_left_error hout]
    refine .inr ⟨⟨name, limit, rfl⟩, ?_⟩
    rintro u ⟨a', b', ha', -⟩
    exact hno a' ha'

namespace Calculator

variable {c : Calculator} {memo : Memo}

/-- **A worth is found, if the room suffices**: neither the check for a mentioned name nor the
search for loops stands in its way. -/
theorem answer_complete (room : Nat) {n : Nesting} {operand : String} (ht : c.Trusts memo)
    (hn : n.Awaits c.grid operand) :
    (c.answer room n operand memo).Complete (c.grid.Worth operand)
      (c.grid.WorthIn room operand) := by
  revert ht hn
  induction room, n, operand, memo using c.answer_induction with
  | fault room n operand memo e hread =>
      intro _ _ v hv
      exact absurd hv (not_worth_of_read_error hread v)
  | value room n operand memo u hread =>
      intro ht _ v hv
      obtain rfl := hv.unique (worth_of_read_value ht hread)
      exact .inl rfl
  | loop room n operand memo p f names hread hp =>
      -- the cell is entered already, so it awaits its own name
      intro _ hn v hv
      obtain ⟨text, hcell, -⟩ := formula_of_read hread
      rw [hn.namesFrom?_eq_none hcell hv] at hp
      cases hp
  | noRoom n operand memo p f hread hp =>
      intro _ _ v _
      obtain ⟨text, hcell, hparse⟩ := formula_of_read hread
      refine .inr ⟨⟨_, _, rfl⟩, fun u hu => ?_⟩
      rw [hcell.worthIn_iff, Grid.cellWorthIn_of_formula hcell.get? hparse] at hu
      obtain ⟨m, hm, -⟩ := hu
      omega
  | nested room n operand memo p f hread hp ih =>
      intro ht hn v hv
      obtain ⟨text, hcell, hparse⟩ := formula_of_read hread
      rw [hcell.worth_iff, Grid.cellWorth_of_formula hcell.get? hparse] at hv
      have hf := Formula.answer_complete (f := f)
        (fun name memo ht => (worth_of_answer room _ name ht).1)
        (fun name memo hm ht => ih name memo ht (hn.push hcell hparse hm _)) ht v hv
      -- a formula that ran out of room has no worth in what room was left
      rcases hf with hf | ⟨⟨name, limit, hout⟩, hno⟩
      · exact .inl (by rw [keep_fst, hf])
      · refine .inr ⟨⟨name, limit, by rw [keep_fst, hout]⟩, fun u hu => ?_⟩
        rw [hcell.worthIn_iff, Grid.cellWorthIn_of_formula hcell.get? hparse] at hu
        obtain ⟨m, hm, hu⟩ := hu
        obtain rfl : room = m := by omega
        exact hno u hu

/-! ### Evaluations that start from outside -/

theorem formulaText_of_error {M : Type} [MemoStore M] {memo : M} {text : String} {e : Fault}
    (h : Formula.parse text = .error e) : c.formulaText text memo = (.error e, memo) := by
  rw [formulaText, h]

theorem formulaText_of_ok {M : Type} [MemoStore M] {memo : M} {text : String} {f : Formula}
    (h : Formula.parse text = .ok f) : c.formulaText text memo = c.formula f memo := by
  rw [formulaText, h]

theorem worth_of_operand (name : String) (ht : c.Trusts memo) :
    c.Trusts (c.operand name memo).2 ∧
      ∀ v, (c.operand name memo).1 = .ok v → c.grid.Worth name v := by
  rw [operand_eq_answer]
  exact worth_of_answer _ _ name ht

theorem worth_of_formula (f : Formula) (ht : c.Trusts memo) :
    c.Trusts (c.formula f memo).2 ∧
      ∀ v, (c.formula f memo).1 = .ok v → f.WorthBy c.grid.Worth v := by
  rw [formula_eq_answer]
  exact f.answer_sound (fun name _ ht => worth_of_answer _ _ name ht) ht

theorem formula_complete (f : Formula) (ht : c.Trusts memo) :
    Answer.Complete (c.formula f memo) (f.WorthBy c.grid.Worth)
      (f.WorthBy (c.grid.WorthIn c.settings.maxDepth)) := by
  rw [formula_eq_answer]
  exact Formula.answer_complete (I := c.Trusts) (fun name _ ht => (worth_of_answer _ _ name ht).1)
    (fun name _ _ ht => answer_complete _ ht (Nesting.awaits_empty _ name)) ht

/-- The value of any formula as the formula of a cell is what the formula is worth. -/
theorem worth_of_cell (p : Position) (f : Formula) (ht : c.Trusts memo) :
    c.Trusts (c.cell p f memo).2 ∧
      ∀ v, (c.cell p f memo).1 = .ok v → f.WorthBy c.grid.Worth v := by
  rw [cell_eq_answer]
  cases c.settings.maxDepth with
  | zero => exact ⟨ht, by simp [answerInside]⟩
  | succ room => exact f.answer_sound (fun name _ ht => worth_of_answer _ _ name ht) ht

theorem backs_of_operand (name : String) (hb : c.grid.Backs memo) :
    c.grid.Backs (c.operand name memo).2 := by
  rw [operand_eq_answer]
  exact backs_of_answer _ _ name hb

theorem backs_of_formula (f : Formula) (hb : c.grid.Backs memo) :
    c.grid.Backs (c.formula f memo).2 := by
  rw [formula_eq_answer]
  exact f.answer_keeps (I := c.grid.Backs) (fun name _ hb => backs_of_answer _ _ name hb) hb

theorem backs_of_cell (p : Position) (f : Formula) (hb : c.grid.Backs memo) :
    c.grid.Backs (c.cell p f memo).2 := by
  rw [cell_eq_answer]
  cases c.settings.maxDepth with
  | zero => exact hb
  | succ room =>
      exact f.answer_keeps (I := c.grid.Backs) (fun name _ hb => backs_of_answer _ _ name hb) hb

/-- The worth of a cell is found by the evaluation of its own formula, which takes one level of
the room. -/
theorem cell_complete {p : Position} {text : String} {f : Formula}
    (hget : c.grid.get? p = some text) (hparse : Formula.parse text = .ok f)
    (ht : c.Trusts memo) :
    Answer.Complete (c.cell p f memo) (c.grid.CellWorth p)
      (c.grid.CellWorthIn c.settings.maxDepth p) := by
  intro v hv
  rw [Grid.cellWorth_of_formula hget hparse] at hv
  simp only [Grid.cellWorthIn_of_formula hget hparse]
  rw [cell_eq_answer]
  cases c.settings.maxDepth with
  | zero => exact .inr ⟨⟨_, _, rfl⟩, by simp⟩
  | succ room =>
      have hf := Formula.answer_complete (f := f) (I := c.Trusts) (S := c.grid.WorthIn room)
        (fun name memo ht => (worth_of_answer room _ name ht).1)
        (fun name memo hm ht => answer_complete room ht
          (Nesting.awaits_push_empty hget hparse hm c.settings.loops (c.grid.nameOf p))) ht v hv
      refine hf.imp id fun hout => ⟨hout.1, ?_⟩
      rintro u ⟨m, hm, hu⟩
      obtain rfl : room = m := by omega
      exact hout.2 u hu

/-- Without a memo the value of a formula cell is its worth, by a derivation that fits the bound. -/
theorem cellWorthIn_of_cell (hplain : c.usesMemo = false) {p : Position} {text : String}
    {f : Formula} (hget : c.grid.get? p = some text) (hparse : Formula.parse text = .ok f)
    {v : Value} (hv : (c.cell p f memo).1 = .ok v) :
    c.grid.CellWorthIn c.settings.maxDepth p v := by
  rw [cell_eq_answer] at hv
  rw [Grid.cellWorthIn_of_formula hget hparse]
  cases hmax : c.settings.maxDepth with
  | zero =>
      rw [hmax] at hv
      cases hv
  | succ room =>
      rw [hmax] at hv
      refine ⟨room, rfl, ?_⟩
      exact (f.answer_sound (I := fun _ => True) (R := c.grid.WorthIn room)
        (fun name _ _ => ⟨trivial, fun _ => worthIn_of_answer hplain⟩) trivial).2 v hv

/-- **Values without a memo are the worths of bounded height**, for operands, for formula texts and
for formulas.  So no check and no search for loops rejects what has a derivation within the
bound. -/
theorem plain_eq_ok_iff (g : Grid) (s : Settings) (memo : Memo) (v : Value) :
    (∀ name, ((plain g s).operand name memo).1 = .ok v ↔ g.WorthIn s.maxDepth name v) ∧
    (∀ text, ((plain g s).formulaText text memo).1 = .ok v ↔
      ∃ f, Formula.parse text = .ok f ∧ f.WorthBy (g.WorthIn s.maxDepth) v) ∧
    (∀ f : Formula, ((plain g s).formula f memo).1 = .ok v ↔
      f.WorthBy (g.WorthIn s.maxDepth) v) := by
  have ht : (plain g s).Trusts memo := by
    intro h
    cases h
  have hformula : ∀ f : Formula, ((plain g s).formula f memo).1 = .ok v ↔
      f.WorthBy (g.WorthIn s.maxDepth) v := by
    intro f
    constructor
    · rw [formula_eq_answer]
      exact (f.answer_sound (I := fun _ => True) (R := g.WorthIn s.maxDepth)
        (fun name _ _ => ⟨trivial, fun _ => worthIn_of_answer (c := plain g s) rfl⟩) trivial).2 v
    · intro h
      exact (formula_complete f ht).eq_ok (h.mono fun _ _ => Grid.WorthIn.worth) h
  refine ⟨fun name => ?_, fun text => ?_, hformula⟩
  · rw [operand_eq_answer]
    constructor
    · exact worthIn_of_answer rfl
    · intro h
      exact (answer_complete _ ht (Nesting.awaits_empty g name)).eq_ok h.worth h
  · cases hparse : Formula.parse text with
    | error e => simp [formulaText_of_error hparse]
    | ok f => simpa [formulaText_of_ok hparse] using hformula f

end Calculator

end FormulaGrid
