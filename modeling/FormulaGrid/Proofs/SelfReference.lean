/-
**Where a formula that names its own cell is found out.**

Reading the name of such a cell finds the reference at once, whatever the formula's other operand
is.  A pass does not read the name of the cell at which it stands; it enters the formula and comes
to the name only as one of the two operands, the left one first.  So the pass never gets over such a
cell, and it reports the reference unless the name stands on the right and the left operand has a
fault of its own.

Main definitions:

* `Grid.NamesItself` — a cell with a formula that mentions the cell's own name;
* `Worksheet.faultInside` — the fault that an operand has inside the formula of a cell.

Main results:

* `Calculator.read_of_namesItself` — **reading the name finds the reference**;
* `Worksheet.cell_of_namesItself` — **the fault of the left operand comes before it**;
* `Worksheet.evaluateAll_namesItself` — **what a pass reports that reaches such a cell**.
-/

import FormulaGrid.Proofs.History
import FormulaGrid.Proofs.Stopping

set_option relaxedAutoImplicit false
set_option autoImplicit false

namespace FormulaGrid

/-! ### Cells that name themselves -/

/-- The cell holds a formula that mentions the name of the cell, and the name leads to the cell. -/
structure Grid.NamesItself (g : Grid) (p : Position) (text : String) (f : Formula) : Prop where
  get? : g.get? p = some text
  parse : Formula.parse text = .ok f
  mentions : f.Mentions (g.nameOf p)
  read? : Value.read? (g.nameOf p) = none
  find : g.find (g.nameOf p) = .ok p

namespace Grid.NamesItself

variable {g g' : Grid} {p : Position} {text : String} {f : Formula}

theorem refers (h : g.NamesItself p text f) : g.Refers (g.nameOf p) p text :=
  ⟨h.read?, lookUp_eq_ok_iff.2 ⟨h.find, h.get?⟩⟩

/-- Such a cell awaits itself. -/
theorem not_cellWorth (h : g.NamesItself p text f) (v : Value) : ¬ g.CellWorth p v := by
  rw [← h.refers.worth_iff]
  exact (awaits_of_mentions h.get? h.parse h.mentions).not_worth h.refers v

/-- Such a cell stays one until the pass comes to it. -/
theorem of_settled (h : g.NamesItself p text f) {done : List Position} (hg : g.Settled done g')
    (hdone : ∀ q ∈ done, q ∈ g.dataPositions) (hp : p ∉ done) : g'.NamesItself p text f := by
  have hname : g'.nameOf p = g.nameOf p := hg.nameOf hdone p
  exact
    { get? := (hg.other p fun hdone => hp hdone.1).trans h.get?
      parse := h.parse
      mentions := hname ▸ h.mentions
      read? := hname ▸ h.read?
      find := by rw [hname, hg.find, h.find] }

end Grid.NamesItself

/-- If an operand of a formula has a fault in any case, the formula has that fault, or that of its
left operand if this one has another. -/
theorem Formula.answer_of_mentions {I : Memo → Prop} {operand : String → Memo → Answer}
    {f : Formula} {memo : Memo} {name : String} {e : Fault} (hm : f.Mentions name)
    (hkeep : ∀ name memo, I memo → I (operand name memo).2)
    (hfault : ∀ memo, I memo → (operand name memo).1 = .error e) (hI : I memo) :
    (∃ e', (operand f.left memo).1 = .error e' ∧ (f.answer operand memo).1 = .error e') ∨
      (∃ v, (operand f.left memo).1 = .ok v) ∧ (f.answer operand memo).1 = .error e := by
  rcases hl : (operand f.left memo).1 with e' | v
  · rw [answer_of_left_error hl]
    exact .inl ⟨e', rfl, rfl⟩
  · have hright : f.right = name := by
      refine hm.resolve_left fun hleft => ?_
      rw [hleft, hfault memo hI] at hl
      cases hl
    have hr : (operand f.right (operand f.left memo).2).1 = .error e := by
      rw [hright]
      exact hfault _ (hkeep f.left memo hI)
    rw [answer_of_right_error hl hr]
    exact .inr ⟨⟨v, rfl⟩, rfl⟩

namespace Calculator

variable {c : Calculator} {memo : Memo} {p : Position} {text : String} {f : Formula}

/-- **Reading the name of such a cell finds the reference**, whatever the other operand is.  The
memo has no value for the cell. -/
theorem read_of_namesItself (h : c.grid.NamesItself p text f) (ht : c.Trusts memo) :
    c.read memo (c.grid.nameOf p) = .error (.selfReference (c.grid.nameOf p) text) := by
  have hmemo : c.remembered? memo p = none := by
    refine Option.eq_none_iff_forall_ne_some.2 fun v hv => ?_
    obtain ⟨huse, hv⟩ := remembered?_eq_some_iff.1 hv
    exact h.not_cellWorth v (ht huse p v hv).2
  have htext : Value.read? text = none := Formula.read?_eq_none_of_parse h.parse
  simp only [read, h.refers.1, h.refers.2, htext, hmemo, h.parse, if_pos h.mentions]

theorem operand_of_namesItself (h : c.grid.NamesItself p text f) (ht : c.Trusts memo) :
    c.operand (c.grid.nameOf p) memo =
      (.error (.selfReference (c.grid.nameOf p) text), memo) := by
  rw [operand_eq_answer]
  exact answer_of_read_error (read_of_namesItself h ht) _ _

/-- The fault that an operand has inside the formula of the cell `p`. -/
def faultInside (c : Calculator) (p : Position) (operand : String) (memo : Memo) : Option Fault :=
  match (c.answer (c.settings.maxDepth - 1)
      (Nesting.empty.push c.settings.loops p (c.grid.nameOf p)) operand memo).1 with
  | .error e => some e
  | .ok _ => none

theorem faultInside_of_namesItself (h : c.grid.NamesItself p text f) (ht : c.Trusts memo) :
    c.faultInside p (c.grid.nameOf p) memo = some (.selfReference (c.grid.nameOf p) text) := by
  rw [faultInside, answer_of_read_error (read_of_namesItself h ht)]

/-- What an operand is worth within the bound, it is worth inside a formula that mentions it. -/
theorem faultInside_of_worthIn (hget : c.grid.get? p = some text)
    (hparse : Formula.parse text = .ok f) {operand : String} (hm : f.Mentions operand)
    (ht : c.Trusts memo) {v : Value} (hv : c.grid.WorthIn (c.settings.maxDepth - 1) operand v) :
    c.faultInside p operand memo = none := by
  have hn := Nesting.awaits_push_empty hget hparse hm c.settings.loops (c.grid.nameOf p)
  rw [faultInside, (answer_complete _ ht hn).eq_ok hv.worth hv]

/-- **The formula of such a cell has a fault: that of its left operand, if this one has a fault
there, and else the reference.** -/
theorem cell_of_namesItself (h : c.grid.NamesItself p text f) (ht : c.Trusts memo)
    (hdepth : 1 ≤ c.settings.maxDepth) :
    (c.cell p f memo).1 =
      .error ((c.faultInside p f.left memo).getD (.selfReference (c.grid.nameOf p) text)) := by
  rw [cell_eq_answer, faultInside]
  cases hmax : c.settings.maxDepth with
  | zero => omega
  | succ room =>
      simp only [answerInside, Nat.add_sub_cancel]
      generalize Nesting.empty.push c.settings.loops p (c.grid.nameOf p) = n
      have hkeep : ∀ name memo, c.Trusts memo → c.Trusts (c.answer room n name memo).2 :=
        fun name memo ht => (worth_of_answer room n name ht).1
      have hfault : ∀ memo, c.Trusts memo → (c.answer room n (c.grid.nameOf p) memo).1 =
          .error (.selfReference (c.grid.nameOf p) text) :=
        fun memo ht => by rw [answer_of_read_error (read_of_namesItself h ht)]
      rcases Formula.answer_of_mentions h.mentions hkeep hfault ht with ⟨e, hl, hf⟩ | ⟨⟨v, hl⟩, hf⟩
      all_goals
        rw [hf, hl]
        rfl

end Calculator

/-! ### What a pass reports -/

namespace Worksheet

variable {g : Grid} {s : Settings} {w : Worksheet} {p : Position} {t : Tally} {text : String}
  {f : Formula}

/-- A pass reaches its first cell. -/
theorem reaches_first (s : Settings) (h : g.cellsBefore p = []) :
    evaluateCells (g.cellsBefore p) {} (new g s) = (.ok {}, new g s) := by
  rw [h]
  rfl

/-- A pass that reaches a cell with a fault stops there. -/
theorem evaluateAll_of_fault (hp : p ∈ g.dataPositions)
    (hreach : evaluateCells (g.cellsBefore p) {} (new g s) = (.ok t, w)) {e : Fault}
    (hget : w.grid.get? p = some text) (hparse : Formula.parse text = .ok f)
    (hcell : ((Calculator.remembering w.grid s).cell p f w.memo).1 = .error e) :
    (new g s).evaluateAll.1 = .error (.inCell (w.grid.nameOf p) e) := by
  have hsettings : w.settings = s := settings_of_run hreach
  rw [← hsettings] at hcell
  obtain ⟨qs, rs, hps⟩ := List.append_of_mem hp
  rw [Grid.cellsBefore_eq hps] at hreach
  have hstops := (Deals.fault (t := t) hget hparse (Prod.ext hcell rfl)).evaluateCell_eq
  show (evaluateCells g.dataPositions {} (new g s)).1 = _
  rw [hps, evaluateCells_append_of_ok hreach, evaluateCells_cons_of_error hstops]

/-- **What a pass reports that reaches a cell which names itself.**  It never gets over the cell.
If the left operand has a fault inside the formula, it reports that fault, and else the reference,
as reading the name of the cell does.  So it reports the reference if the name is itself the left
operand, or if the left operand is worth something within the bound. -/
theorem evaluateAll_namesItself (hdepth : 1 ≤ s.maxDepth) (hself : g.NamesItself p text f)
    (hreach : evaluateCells (g.cellsBefore p) {} (new g s) = (.ok t, w)) :
    (∀ cached, ((new g s).calculator cached).operand (g.nameOf p) ∅ =
      (.error (.selfReference (g.nameOf p) text), ∅)) ∧
    (new g s).evaluateAll.1 = .error (.inCell (g.nameOf p)
      (((Calculator.remembering w.grid s).faultInside p f.left w.memo).getD
        (.selfReference (g.nameOf p) text))) ∧
    (f.left = g.nameOf p ∨ (∃ v, g.WorthIn (s.maxDepth - 1) f.left v) →
      (new g s).evaluateAll.1 =
        .error (.inCell (g.nameOf p) (.selfReference (g.nameOf p) text))) := by
  have hcells : ∀ q ∈ g.cellsBefore p, q ∈ g.dataPositions :=
    fun q hq => (Grid.mem_cellsBefore.1 hq).1
  have hnot : p ∉ g.cellsBefore p := fun hp => (Grid.mem_cellsBefore.1 hp).2.ne rfl
  have hsettles : w.Settles g (g.cellsBefore p) := (settles_new g s).of_run hreach
  have hsettled := hsettles.settled
  have hname : w.grid.nameOf p = g.nameOf p := hsettled.nameOf hcells p
  have hself' := hself.of_settled hsettled hcells hnot
  have ht : (Calculator.remembering w.grid s).Trusts w.memo := fun _ => hsettles.backs
  have hcell : ((Calculator.remembering w.grid s).cell p f w.memo).1 =
      .error (((Calculator.remembering w.grid s).faultInside p f.left w.memo).getD
        (.selfReference (g.nameOf p) text)) :=
    hname ▸ Calculator.cell_of_namesItself hself' ht hdepth
  have hpass := evaluateAll_of_fault hself.refers.mem_dataPositions hreach hself'.get? hself'.parse
    hcell
  rw [hname] at hpass
  refine ⟨fun cached => ?_, hpass, fun hleft => ?_⟩
  · cases cached <;> exact Calculator.operand_of_namesItself hself fun _ => g.backs_empty
  · rw [hpass]
    rcases hleft with hleft | ⟨v, hv⟩
    · have hfault : (Calculator.remembering w.grid s).faultInside p (g.nameOf p) w.memo =
          some (.selfReference (g.nameOf p) text) :=
        hname ▸ Calculator.faultInside_of_namesItself hself' ht
      rw [hleft, hfault, Option.getD_some]
    · rw [Calculator.faultInside_of_worthIn hself'.get? hself'.parse (.inl rfl) ht
        (hsettled.worthIn hv), Option.getD_none]

/-- `A1` stands on the right in its own formula, and the formula cell `B1` on the left is worth
six. -/
theorem evaluateAll_namesItself_right :
    ∃ g p f, Grid.ofLines [",A,B", "1,=B1*A1,=2*3"] = .ok g ∧ g.nameOf p = "A1" ∧
      g.NamesItself p "=B1*A1" f ∧ f.left = "B1" ∧
      (new g { maxDepth := 2 }).evaluateAll.1 =
        .error (.inCell "A1" (.selfReference "A1" "=B1*A1")) := by
  have hfacts : (Grid.ofLines [",A,B", "1,=B1*A1,=2*3"]).toOption.map (fun g => decide
      (g.cellsBefore ⟨1, 1⟩ = [] ∧ g.get? ⟨1, 1⟩ = some "=B1*A1" ∧ g.nameOf ⟨1, 1⟩ = "A1" ∧
        g.find "A1" = .ok ⟨1, 1⟩ ∧ ((Calculator.plain g { maxDepth := 1 }).operand "B1" ∅).1 =
          .ok ⟨6, by decide, by decide⟩)) = some true := by
    decide +kernel
  rcases h : Grid.ofLines [",A,B", "1,=B1*A1,=2*3"] with e | g
  · rw [h] at hfacts
    cases hfacts
  · rw [h] at hfacts
    obtain ⟨hbefore, hget, hname, hfind, hleft⟩ := of_decide_eq_true (Option.some.inj hfacts)
    have hself : g.NamesItself ⟨1, 1⟩ "=B1*A1" ⟨"B1", .mul, "A1"⟩ :=
      { get? := hget
        parse := by decide
        mentions := .inr hname.symm
        read? := by rw [hname]; decide
        find := by rw [hname, hfind] }
    have hreach := reaches_first { maxDepth := 2 } hbefore
    have hworth := ((Calculator.plain_eq_ok_iff g { maxDepth := 1 } ∅ _).1 "B1").1 hleft
    have hpass := (evaluateAll_namesItself (by decide) hself hreach).2.2 (.inr ⟨_, hworth⟩)
    rw [hname] at hpass
    exact ⟨g, ⟨1, 1⟩, _, rfl, hname, hself, rfl, hpass⟩

/-- A left operand that names no cell hides the reference on its right. -/
theorem not_forall_evaluateAll_namesItself :
    ¬ ∀ (lines : List String) (g : Grid) (s : Settings) (p : Position) (text : String)
        (f : Formula) (t : Tally) (w : Worksheet),
      Grid.ofLines lines = .ok g → 1 ≤ s.maxDepth → p ∈ g.dataPositions → g.NamesItself p text f →
      evaluateCells (g.cellsBefore p) {} (new g s) = (.ok t, w) →
      (new g s).evaluateAll.1 =
        .error (.inCell (g.nameOf p) (.selfReference (g.nameOf p) text)) := by
  intro hall
  have hfacts : (Grid.ofLines [",A", "1,=Z9+A1"]).toOption.map (fun g => decide
      (g.cellsBefore ⟨1, 1⟩ = [] ∧ g.get? ⟨1, 1⟩ = some "=Z9+A1" ∧ g.nameOf ⟨1, 1⟩ = "A1" ∧
        g.find "A1" = .ok ⟨1, 1⟩ ∧
        (new g {}).evaluateAll.1 = .error (.inCell "A1" (.unknownCell "Z9")))) = some true := by
    decide +kernel
  rcases h : Grid.ofLines [",A", "1,=Z9+A1"] with e | g
  · rw [h] at hfacts
    cases hfacts
  · rw [h] at hfacts
    obtain ⟨hbefore, hget, hname, hfind, hpass⟩ := of_decide_eq_true (Option.some.inj hfacts)
    have hself : g.NamesItself ⟨1, 1⟩ "=Z9+A1" ⟨"Z9", .add, "A1"⟩ :=
      { get? := hget
        parse := by decide
        mentions := .inr hname.symm
        read? := by rw [hname]; decide
        find := by rw [hname, hfind] }
    have hreport := hall _ g {} ⟨1, 1⟩ _ _ _ _ h (by decide) hself.refers.mem_dataPositions hself
      (reaches_first {} hbefore)
    rw [hpass] at hreport
    obtain ⟨-, hfault⟩ := PassError.inCell.inj (Except.error.inj hreport)
    cases hfault

end Worksheet

end FormulaGrid
