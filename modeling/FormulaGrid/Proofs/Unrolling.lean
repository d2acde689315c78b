/-
**A loop that is not looked for runs into the bound.**

Two calculators evaluate one grid under one bound and with one memo; the first looks for every
loop, and the second only for formulas that mention their own name.  Up to the first loop the two
take the same steps.  There the first stops, while the second goes round.  What it meets on the way
round it has met before: the operands that lie to the left of the way are worth something, so they
end in a value or for want of room, and the way itself comes back to the operand at which it began.
So on every round the only end is the bound.

Main definitions:

* `Grid.Leads` — the evaluation of one operand comes to another operand;
* `Grid.Reaches`, `Nesting.Reaches` — the same for the formula of a cell, and for all the cells
  that are being evaluated;
* `Answer.Unrolls` — an answer is the other one, unless that is a loop and this one out of room.

Main results:

* `Calculator.ranOut_of_leads` — **an operand that leads back to itself runs out of room**;
* `Calculator.answer_unrolls`, `Calculator.operand_unrolls`, `Calculator.cell_unrolls` — **the loop
  policies differ in how a loop is reported, and in nothing else**.
-/

import FormulaGrid.Proofs.Faults
import Mathlib.Logic.Relation

set_option relaxedAutoImplicit false
set_option autoImplicit false

namespace FormulaGrid

open Relation (TransGen ReflTransGen)

/-! ### What an evaluation comes to -/

/-- The evaluation of the formula comes to the operand: it is the left one, or it is the right one
and the left one is worth something. -/
def Formula.Asks (f : Formula) (g : Grid) (operand : String) : Prop :=
  f.left = operand ∨ (f.right = operand ∧ ∃ v, g.Worth f.left v)

theorem Formula.Asks.mentions {f : Formula} {g : Grid} {operand : String} (h : f.Asks g operand) :
    f.Mentions operand :=
  h.imp id And.left

namespace Grid

/-- The evaluation of the operand `a` comes to the operand `b`: `a` is the name of a formula cell
whose formula does not mention `a`, and the formula comes to `b`. -/
def Leads (g : Grid) (a b : String) : Prop :=
  ∃ p text f, g.Refers a p text ∧ Formula.parse text = .ok f ∧ ¬ f.Mentions a ∧ f.Asks g b

/-- The evaluation of the formula of the cell comes to the operand, at whatever depth. -/
def Reaches (g : Grid) (p : Position) (operand : String) : Prop :=
  ∃ text f first, g.get? p = some text ∧ Formula.parse text = .ok f ∧ f.Asks g first ∧
    ReflTransGen g.Leads first operand

variable {g : Grid} {p : Position} {a b operand text : String} {f : Formula}

/-- What an operand leads to, its cell awaits. -/
theorem awaits_of_leads (h : TransGen g.Leads a b) (hcell : g.Refers a p text) :
    g.Awaits p b := by
  have hstep : ∀ {a b p text}, g.Leads a b → g.Refers a p text → g.Awaits p b := by
    rintro a b p text ⟨q, t, f, hcell', hparse, -, hask⟩ hcell
    obtain ⟨rfl, rfl⟩ := hcell.unique hcell'
    exact awaits_of_mentions hcell.get? hparse hask.mentions
  induction h with
  | single hab => exact hstep hab hcell
  | tail _ hbc ih =>
      obtain ⟨q, t, f, hcell', -⟩ := id hbc
      exact ih.trans hcell' (hstep hbc hcell')

/-- An operand that leads back to itself is worth nothing. -/
theorem not_worth_of_leads (h : TransGen g.Leads operand operand)
    (hcell : g.Refers operand p text) (v : Value) : ¬ g.Worth operand v :=
  (awaits_of_leads h hcell).not_worth hcell v

/-- A cell that comes to its own name makes that name lead back to itself. -/
theorem Reaches.leads (h : g.Reaches p operand) (hcell : g.Refers operand p text)
    (hparse : Formula.parse text = .ok f) (hm : ¬ f.Mentions operand) :
    TransGen g.Leads operand operand := by
  obtain ⟨t, f', first, hget, hparse', hask, hreach⟩ := h
  obtain rfl := Option.some.inj (hcell.get?.symm.trans hget)
  obtain rfl := Except.ok.inj (hparse.symm.trans hparse')
  exact TransGen.head' ⟨p, text, f, hcell, hparse, hm, hask⟩ hreach

end Grid

namespace Nesting

/-- Every cell that is being evaluated, as far as loops are looked for, comes to the operand. -/
def Reaches (n : Nesting) (g : Grid) (operand : String) : Prop :=
  ∀ p ∈ n.active, g.Reaches p operand

variable {g : Grid} {n : Nesting} {p : Position} {operand name text : String} {f : Formula}

theorem reaches_empty (g : Grid) (operand : String) : empty.Reaches g operand := by
  intro p hp
  simp [empty] at hp

/-- Inside the formula of a cell, the nesting comes to the operands that the formula asks for. -/
theorem Reaches.push (h : n.Reaches g operand) (hcell : g.Refers operand p text)
    (hparse : Formula.parse text = .ok f) (hm : ¬ f.Mentions operand) (hask : f.Asks g name)
    (policy : LoopPolicy) : (n.push policy p operand).Reaches g name := by
  intro q hq
  rcases eq_or_mem_of_mem_push hq with rfl | hq
  · exact ⟨text, f, name, hcell.get?, hparse, hask, .refl⟩
  · obtain ⟨t, f', first, hget, hparse', hask', hreach⟩ := h q hq
    exact ⟨t, f', first, hget, hparse', hask', hreach.tail ⟨p, text, f, hcell, hparse, hm, hask⟩⟩

theorem reaches_push_empty (hget : g.get? p = some text) (hparse : Formula.parse text = .ok f)
    (hask : f.Asks g name) (policy : LoopPolicy) (via : String) :
    (empty.push policy p via).Reaches g name := by
  intro q hq
  rcases eq_or_mem_of_mem_push hq with rfl | hq
  · exact ⟨text, f, name, hget, hparse, hask, .refl⟩
  · simp [empty] at hq

/-- Where only formulas that mention their own name are looked for, no loop is seen. -/
theorem Sound.namesFrom?_eq_none (h : n.Sound .selfOnly) (p : Position) :
    n.namesFrom? p = none := by
  have hactive : n.active = ∅ := h
  simp [namesFrom?, hactive]

theorem Sound.push_selfOnly (h : n.Sound .selfOnly) (p : Position) (name : String) :
    (n.push .selfOnly p name).Sound .selfOnly :=
  h.push (namesFrom?_eq_none_iff.1 (h.namesFrom?_eq_none p)) name

theorem Sound.awaits (h : n.Sound .selfOnly) (g : Grid) (operand : String) :
    n.Awaits g operand := by
  have hactive : n.active = ∅ := h
  intro p hp
  simp [hactive] at hp

end Nesting

/-! ### Going round -/

/-- If the operand that the formula asks for runs out of room, and the left operand ends in a value
or for want of room wherever it is worth something, then the formula runs out of room. -/
theorem Formula.ranOut_of_asks {g : Grid} {f : Formula} {name : String} (hask : f.Asks g name)
    {I : Memo → Prop} {operand : String → Memo → Answer} {memo : Memo} (hI : I memo)
    (hafter : I (operand f.left memo).2)
    (hleft : ∀ v, g.Worth f.left v →
      (operand f.left memo).1 = .ok v ∨ (operand f.left memo).RanOut)
    (hname : ∀ memo, I memo → (operand name memo).RanOut) : (f.answer operand memo).RanOut := by
  have hstop : (operand f.left memo).RanOut → (f.answer operand memo).RanOut := by
    rintro ⟨via, limit, hout⟩
    exact ⟨via, limit, by rw [answer_of_left_error hout]⟩
  rcases hask with rfl | ⟨rfl, v, hv⟩
  · exact hstop (hname memo hI)
  · rcases hleft v hv with hl | hout
    · obtain ⟨via, limit, hr⟩ := hname _ hafter
      exact ⟨via, limit, by rw [answer_of_right_error hl hr]⟩
    · exact hstop hout

namespace Calculator

variable {c : Calculator} {memo : Memo} {operand : String}

/-- **An operand that leads back to itself runs out of room**, where only formulas that mention
their own name are looked for. -/
theorem ranOut_of_leads (hself : c.settings.loops = .selfOnly) (room : Nat) {n : Nesting}
    (hn : n.Sound .selfOnly) (ht : c.Trusts memo) (h : TransGen c.grid.Leads operand operand) :
    (c.answer room n operand memo).RanOut := by
  -- one level further in stands the next operand on the way round, which leads back to itself too
  induction room using Nat.strongRecOn generalizing n operand memo with
  | _ room ih =>
      obtain ⟨next, hnext, hback⟩ := TransGen.head'_iff.1 h
      obtain ⟨p, text, f, hcell, hparse, hm, hask⟩ := id hnext
      have hmemo : c.remembered? memo p = none := by
        refine Option.eq_none_iff_forall_ne_some.2 fun v hv => ?_
        obtain ⟨huse, hv⟩ := remembered?_eq_some_iff.1 hv
        exact Grid.not_worth_of_leads h hcell v (hcell.worth_iff.2 (ht huse p v hv).2)
      have hread : c.read memo operand = .ok (.formula p f) :=
        read_eq_formula_iff.2 ⟨text, hcell, hmemo, hparse, hm⟩
      have hp := hn.namesFrom?_eq_none p
      cases room with
      | zero =>
          rw [answer_zero_of_formula hread hp]
          exact ⟨_, _, rfl⟩
      | succ room =>
          have hn' : (n.push c.settings.loops p operand).Sound .selfOnly := by
            rw [hself]
            exact hn.push_selfOnly p operand
          have hf : (f.answer (c.answer room (n.push c.settings.loops p operand)) memo).RanOut := by
            refine Formula.ranOut_of_asks hask (I := c.Trusts) ht ?_ (fun v hv => ?_)
              fun memo ht => ih room (by omega) hn' ht (TransGen.tail' hback hnext)
            · exact (worth_of_answer room _ f.left ht).1
            · exact (answer_complete room ht (hn'.awaits c.grid f.left) v hv).imp id And.left
          rw [answer_succ_of_formula hread hp]
          unfold Answer.RanOut
          rwa [keep_fst]

end Calculator

/-! ### Two loop policies -/

/-- The answers that the two loop policies give: the second is the first, unless the first reports
a loop; then the second meets the bound `limit`. -/
inductive Answer.Unrolls (limit : Nat) : Answer → Answer → Prop
  | same {o : Answer} (h : ∀ names, o.1 ≠ .error (.loop names)) : Unrolls limit o o
  | loop {names : List String} {name : String} {memo memo' : Memo} :
      Unrolls limit (.error (.loop names), memo) (.error (.tooDeep name limit), memo')

/-- If the answers of the operands differ in the report of loops alone, so do the answers of the
formula. -/
theorem Formula.answer_unrolls {limit : Nat} {f : Formula} {asked asked' : String → Memo → Answer}
    {memo : Memo} (hleft : Answer.Unrolls limit (asked f.left memo) (asked' f.left memo))
    (hright : ∀ a, (asked f.left memo).1 = .ok a →
      Answer.Unrolls limit (asked f.right (asked f.left memo).2)
        (asked' f.right (asked f.left memo).2)) :
    Answer.Unrolls limit (f.answer asked memo) (f.answer asked' memo) := by
  unfold answer
  generalize asked f.left memo = o, asked' f.left memo = o' at hleft hright
  cases hleft with
  | loop => exact .loop
  | same hne =>
      rcases o with ⟨e | a, memo₁⟩
      · exact .same hne
      · have hright := hright a rfl
        dsimp only at hright ⊢
        generalize asked f.right memo₁ = o, asked' f.right memo₁ = o' at hright
        cases hright with
        | loop => exact .loop
        | same hne =>
            rcases o with ⟨e | b, memo₂⟩
            · exact .same hne
            · refine .same fun names hres => ?_
              cases ofNesting_of_result hres

namespace Calculator

/-- The calculator with another loop policy. -/
def withLoops (c : Calculator) (policy : LoopPolicy) : Calculator :=
  { c with settings := { c.settings with loops := policy } }

theorem keep_unrolls {c : Calculator} {limit : Nat} {o o' : Answer}
    (h : Answer.Unrolls limit o o') (p : Position) :
    Answer.Unrolls limit ((c.withLoops .full).keep p o) ((c.withLoops .selfOnly).keep p o') := by
  cases h with
  | loop => exact .loop
  | same hne => exact .same fun names => by rw [keep_fst]; exact hne names

variable {c : Calculator} {memo : Memo}

/-- **The loop policies differ in how a loop is reported, and in nothing else.** -/
theorem answer_unrolls (room : Nat) {n n' : Nesting} {operand : String}
    (ht : c.Trusts memo) (hn : n.Reaches c.grid operand) (hn' : n'.Sound .selfOnly) :
    Answer.Unrolls c.settings.maxDepth ((c.withLoops .full).answer room n operand memo)
      ((c.withLoops .selfOnly).answer room n' operand memo) := by
  -- what is read does not depend on the loop policy
  have hread' : ∀ {memo operand r}, (c.withLoops .full).read memo operand = r →
      (c.withLoops .selfOnly).read memo operand = r := id
  revert ht hn n'
  induction room, n, operand, memo using (c.withLoops .full).answer_induction with
  | fault room n operand memo e hread =>
      intro n' _ _ _
      rw [answer_of_read_error (hread' hread)]
      refine .same fun names he => ?_
      obtain rfl := Except.error.inj he
      cases ofNesting_of_read hread
  | value room n operand memo v hread =>
      intro n' _ _ _
      rw [answer_of_read_value (hread' hread)]
      exact .same (by simp)
  | loop room n operand memo p f names hread hp =>
      -- the second calculator goes round from here
      intro n' ht hn hn'
      obtain ⟨text, hcell, -, hparse, hm⟩ := read_eq_formula_iff.1 hread
      have hactive : p ∈ n.active := by
        by_contra hnot
        rw [Nesting.namesFrom?_eq_none_iff.2 hnot] at hp
        cases hp
      have hround := (hn p hactive).leads hcell hparse hm
      have hout := ranOut_of_leads (c := c.withLoops .selfOnly) rfl room hn' ht hround
      rcases ho : (c.withLoops .selfOnly).answer room n' operand memo with ⟨r, memo'⟩
      rw [ho] at hout
      obtain ⟨name, limit, rfl⟩ : ∃ name limit, r = .error (.tooDeep name limit) := hout
      obtain rfl : limit = c.settings.maxDepth :=
        limit_of_answer (c := c.withLoops .selfOnly) (congrArg Prod.fst ho)
      exact .loop
  | noRoom n operand memo p f hread hp =>
      intro n' _ _ hn'
      rw [answer_zero_of_formula (hread' hread) (hn'.namesFrom?_eq_none p)]
      exact .same (by simp)
  | nested room n operand memo p f hread hp ih =>
      intro n' ht hn hn'
      obtain ⟨text, hcell, -, hparse, hm⟩ := read_eq_formula_iff.1 hread
      have hpush : ∀ name, f.Asks c.grid name →
          (n.push .full p operand).Reaches c.grid name :=
        fun name hask => hn.push hcell hparse hm hask .full
      rw [answer_succ_of_formula (hread' hread) (hn'.namesFrom?_eq_none p)]
      refine keep_unrolls (Formula.answer_unrolls ?_ fun a ha => ?_) p
      · exact ih _ _ ht (hpush f.left (.inl rfl)) (hn'.push_selfOnly p operand)
      · obtain ⟨hafter, hleft⟩ := worth_of_answer (c := c.withLoops .full) room
          (n.push .full p operand) f.left ht
        exact ih _ _ hafter (hpush f.right (.inr ⟨rfl, a, hleft a ha⟩))
          (hn'.push_selfOnly p operand)

/-- The two loop policies for an operand that is evaluated from outside. -/
theorem operand_unrolls (name : String) (ht : c.Trusts memo) :
    Answer.Unrolls c.settings.maxDepth ((c.withLoops .full).operand name memo)
      ((c.withLoops .selfOnly).operand name memo) := by
  rw [operand_eq_answer, operand_eq_answer]
  exact answer_unrolls _ ht (Nesting.reaches_empty _ name) (Nesting.sound_empty .selfOnly)

/-- The two loop policies for the formula that a cell holds. -/
theorem cell_unrolls {p : Position} {text : String} {f : Formula}
    (hget : c.grid.get? p = some text) (hparse : Formula.parse text = .ok f) (ht : c.Trusts memo) :
    Answer.Unrolls c.settings.maxDepth ((c.withLoops .full).cell p f memo)
      ((c.withLoops .selfOnly).cell p f memo) := by
  have hmax : ∀ policy, (c.withLoops policy).settings.maxDepth = c.settings.maxDepth :=
    fun _ => rfl
  have hunrolls : ∀ room name memo, f.Asks c.grid name → c.Trusts memo →
      Answer.Unrolls c.settings.maxDepth
        ((c.withLoops .full).answer room (.push .full p (c.grid.nameOf p) .empty) name memo)
        ((c.withLoops .selfOnly).answer room (.push .selfOnly p (c.grid.nameOf p) .empty) name
          memo) := fun room name memo hask ht =>
    answer_unrolls room ht (Nesting.reaches_push_empty hget hparse hask .full _)
      ((Nesting.sound_empty .selfOnly).push_selfOnly p _)
  rw [cell_eq_answer, cell_eq_answer, hmax, hmax]
  cases hdepth : c.settings.maxDepth with
  | zero => exact .same fun names h => by cases h
  | succ room =>
      rw [hdepth] at hunrolls
      refine Formula.answer_unrolls (hunrolls room f.left memo (.inl rfl) ht) fun a ha => ?_
      obtain ⟨hafter, hleft⟩ := worth_of_answer (c := c.withLoops .full) room
        (.push .full p (c.grid.nameOf p) .empty) f.left ht
      exact hunrolls room f.right _ (.inr ⟨rfl, a, hleft a ha⟩) hafter

end Calculator

end FormulaGrid
