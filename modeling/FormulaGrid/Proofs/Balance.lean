/-
**Every way into a cell is followed by the way out.**

The evaluations of operands and formulas are told once more here, as rules that pass the nesting on
from one step to the next.  Nothing in them bounds the recursion but the nesting itself, whose
length is compared with the bound where a cell is entered.  The rules also note each nesting that
comes up, and how many formula cells are nested inside a call.  That a call has a course by these
rules says that it comes to an end, and all that is to be known of the nestings on the way follows
from what entering and leaving one cell does.

That the nestings of a course are those of the evaluation is not seen from how the two end.  So the
evaluation is also carried out under watch: each time an operand is to be evaluated, the nesting is
looked at first, and in any nesting that is not one of the course something else is done.  That
changes nothing.

Main definitions:

* `Nesting.enter` — going into a cell, which a loop or the lack of room can refuse;
* `Nesting.Good` — a nesting within the bound, with a set of positions that agrees with its list;
* `Call`, `Course`, `Calculator.Takes` — the rules of evaluation;
* `Course.Balanced` — what is known of the nestings on the way and in the end;
* `Calculator.watched` — the evaluation under watch.

Main results:

* `Nesting.Good.enter` — **entering a cell keeps a nesting good, and leaving undoes it**;
* `Calculator.Takes.balanced` — **in each course all nestings are good, and the last is the first**;
* `Calculator.exists_takes`, `Calculator.Takes.unique` — each call has one course;
* `Calculator.Takes.watched_eq` — **the evaluation ends as the course does, and it goes through no
  other nestings**;
* `Calculator.evaluate_balanced` — **evaluations are balanced**.
-/

import FormulaGrid.Proofs.LoopPath

set_option relaxedAutoImplicit false
set_option autoImplicit false

namespace FormulaGrid

/-! ### Entering a cell -/

namespace Nesting

/-- Goes into a formula cell.  Where loops are looked for, a cell that is being evaluated already
is refused; and so is every cell once the bound is reached.  A loop is reported before the lack of
room. -/
def enter (s : Settings) (p : Position) (name : String) (n : Nesting) : Except Fault Nesting :=
  if s.loops = .full ∧ p ∈ n.active then
    .error (.loop ((n.links.toList.dropWhile (·.1 ≠ p)).map (·.2) ++ [name]))
  else if s.maxDepth ≤ n.depth then .error (.tooDeep name s.maxDepth)
  else .ok (n.push s.loops p name)

/-- The nesting keeps within the bound, and its set of positions agrees with its list: where loops
are looked for it holds the positions of the list, each of which stands there once, and otherwise
it is empty. -/
structure Good (s : Settings) (n : Nesting) : Prop where
  depth_le : n.depth ≤ s.maxDepth
  sound : n.Sound s.loops

variable {s : Settings} {n n' : Nesting} {p : Position} {name : String}

theorem good_empty (s : Settings) : empty.Good s where
  depth_le := Nat.zero_le s.maxDepth
  sound := sound_empty s.loops

theorem enter_eq_ok_iff : n.enter s p name = .ok n' ↔
    ¬ (s.loops = .full ∧ p ∈ n.active) ∧ n.depth < s.maxDepth ∧ n.push s.loops p name = n' := by
  unfold enter
  split
  · next hloop => simp [hloop]
  · next hloop =>
    split
    · next hfull => simp [Nat.not_lt.2 hfull]
    · next hfull => simp [hloop, Nat.lt_of_not_le hfull]

namespace Good

/-- A good nesting has positions in its set only where loops are looked for. -/
theorem full_of_mem (h : n.Good s) (hp : p ∈ n.active) : s.loops = .full := by
  have hsound := h.sound
  cases hloops : s.loops with
  | full => rfl
  | selfOnly =>
      rw [hloops] at hsound
      have hactive : n.active = ∅ := hsound
      simp [hactive] at hp

/-- A good nesting is entered as in an evaluation, which has as much room as is left up to the
bound. -/
theorem enter_eq (h : n.Good s) (p : Position) (name : String) :
    n.enter s p name = match n.namesFrom? p with
      | some names => .error (.loop (names ++ [name]))
      | none =>
        if s.maxDepth ≤ n.depth then .error (.tooDeep name s.maxDepth)
        else .ok (n.push s.loops p name) := by
  by_cases hp : p ∈ n.active
  · simp only [Nesting.enter, namesFrom?, h.full_of_mem hp, hp, and_self, if_true]
  · simp only [Nesting.enter, namesFrom?, hp, and_false, if_false]

/-- **Entering a cell keeps a nesting good, and leaving undoes it.** -/
theorem enter (h : n.Good s) (henter : n.enter s p name = .ok n') :
    n'.Good s ∧ n'.pop = n ∧ n'.depth = n.depth + 1 ∧
      n'.links.toList = n.links.toList ++ [(p, name)] := by
  obtain ⟨hloop, hdepth, rfl⟩ := enter_eq_ok_iff.1 henter
  have hp : p ∉ n.active := fun hp => hloop ⟨h.full_of_mem hp, hp⟩
  have hgood : (n.push s.loops p name).Good s :=
    { depth_le := by rw [depth_push]; exact hdepth
      sound := h.sound.push hp name }
  exact ⟨hgood, pop_push hp name, depth_push .., toList_links_push ..⟩

end Good

end Nesting

/-! ### Calls and their courses -/

/-- What is handed back can be told from what is left behind. -/
theorem Answer.leaving_inj {n n' : Nesting} {o o' : Answer} (h : o.leaving n = o'.leaving n') :
    o = o' := by
  rcases o with ⟨e | v, memo⟩ <;> rcases o' with ⟨e' | v', memo'⟩ <;> cases h <;> rfl

/-- What is evaluated in a nesting. -/
inductive Call
  | operand (name : String)
  | formula (f : Formula)

/-- The evaluation of a call, when operands are evaluated by `operand`. -/
def Call.evaluate (operand : String → Eval Value) : Call → Eval Value
  | .operand name => operand name
  | .formula f => f.evaluate operand

/-- How a call proceeds and ends. -/
structure Course where
  /-- The nestings that come up on the way, one for each time that a cell is entered or left. -/
  nestings : List Nesting
  /-- How many formula cells are nested inside the call. -/
  height : Nat
  answer : Answer
  /-- The nesting that the call leaves behind. -/
  nesting : Nesting

/-- The course of a call.  A formula goes on with its right operand in the nesting that the left one
has left behind, and the cell of a formula is left however the formula has ended. -/
inductive Calculator.Takes (c : Calculator) : Call → Nesting → Memo → Course → Prop
  | fault {name : String} {n : Nesting} {memo : Memo} {e : Fault}
      (hread : c.read memo name = .error e) :
      Takes c (.operand name) n memo ⟨[], 0, (.error e, memo), n⟩
  | value {name : String} {n : Nesting} {memo : Memo} {v : Value}
      (hread : c.read memo name = .ok (.value v)) :
      Takes c (.operand name) n memo ⟨[], 0, (.ok v, memo), n⟩
  | refused {name : String} {n : Nesting} {memo : Memo} {p : Position} {f : Formula} {e : Fault}
      (hread : c.read memo name = .ok (.formula p f))
      (henter : n.enter c.settings p name = .error e) :
      Takes c (.operand name) n memo ⟨[], 0, (.error e, memo), n⟩
  | entered {name : String} {n n₁ n₂ : Nesting} {memo : Memo} {p : Position} {f : Formula}
      {ns : List Nesting} {h : Nat} {o : Answer} (hread : c.read memo name = .ok (.formula p f))
      (henter : n.enter c.settings p name = .ok n₁)
      (hinside : Takes c (.formula f) n₁ memo ⟨ns, h, o, n₂⟩) :
      Takes c (.operand name) n memo ⟨n₁ :: (ns ++ [n₂.pop]), h + 1, c.keep p o, n₂.pop⟩
  | leftFault {f : Formula} {n n₁ : Nesting} {memo memo₁ : Memo} {ns : List Nesting} {h : Nat}
      {e : Fault} (hleft : Takes c (.operand f.left) n memo ⟨ns, h, (.error e, memo₁), n₁⟩) :
      Takes c (.formula f) n memo ⟨ns, h, (.error e, memo₁), n₁⟩
  | rightFault {f : Formula} {n n₁ n₂ : Nesting} {memo memo₁ memo₂ : Memo}
      {ns ns' : List Nesting} {h h' : Nat} {a : Value} {e : Fault}
      (hleft : Takes c (.operand f.left) n memo ⟨ns, h, (.ok a, memo₁), n₁⟩)
      (hright : Takes c (.operand f.right) n₁ memo₁ ⟨ns', h', (.error e, memo₂), n₂⟩) :
      Takes c (.formula f) n memo ⟨ns ++ ns', max h h', (.error e, memo₂), n₂⟩
  | result {f : Formula} {n n₁ n₂ : Nesting} {memo memo₁ memo₂ : Memo} {ns ns' : List Nesting}
      {h h' : Nat} {a b : Value}
      (hleft : Takes c (.operand f.left) n memo ⟨ns, h, (.ok a, memo₁), n₁⟩)
      (hright : Takes c (.operand f.right) n₁ memo₁ ⟨ns', h', (.ok b, memo₂), n₂⟩) :
      Takes c (.formula f) n memo ⟨ns ++ ns', max h h', (f.result a b, memo₂), n₂⟩

/-! ### Balanced courses -/

/-- What holds of a course from the good nesting `n`. -/
structure Course.Balanced (s : Settings) (n : Nesting) (k : Course) : Prop where
  /-- In the end the nesting is the one that was given, its list and its set of positions alike. -/
  nesting_eq : k.nesting = n
  /-- All nestings on the way are good. -/
  good : ∀ m ∈ k.nestings, m.Good s
  /-- On the way the cells of `n` stay where they are, and those inside the call come after them. -/
  inside : ∀ m ∈ k.nestings, ∃ inner, m.links.toList = n.links.toList ++ inner ∧
    inner.length ≤ k.height
  /-- No more formulas are nested inside the call than the bound leaves room for. -/
  height_le : k.height ≤ s.maxDepth - n.depth

namespace Course.Balanced

variable {s : Settings} {n n₁ n₂ : Nesting} {ns ns' : List Nesting} {h h' : Nat} {o o' : Answer}

/-- Where no cell is entered there is nothing to balance. -/
theorem nil (s : Settings) (n : Nesting) (o : Answer) : Balanced s n ⟨[], 0, o, n⟩ where
  nesting_eq := rfl
  good m hm := by simp at hm
  inside m hm := by simp at hm
  height_le := Nat.zero_le _

/-- A balanced course inside a cell, between entering and leaving it. -/
theorem within {p : Position} {name : String} (hn : n.Good s)
    (henter : n.enter s p name = .ok n₁) (hk : Balanced s n₁ ⟨ns, h, o, n₂⟩) (o' : Answer) :
    Balanced s n ⟨n₁ :: (ns ++ [n₂.pop]), h + 1, o', n₂.pop⟩ := by
  obtain ⟨hgood, hpop, hdepth, hlinks⟩ := hn.enter henter
  obtain rfl : n₂ = n₁ := hk.nesting_eq
  rw [hpop]
  constructor
  case nesting_eq => rfl
  case good =>
    intro m hm
    rcases List.mem_cons.1 hm with rfl | hm
    · exact hgood
    · rcases List.mem_append.1 hm with hm | hm
      · exact hk.good m hm
      · exact List.mem_singleton.1 hm ▸ hn
  case inside =>
    intro m hm
    rcases List.mem_cons.1 hm with rfl | hm
    · exact ⟨[(p, name)], hlinks, Nat.succ_le_succ (Nat.zero_le h)⟩
    · rcases List.mem_append.1 hm with hm | hm
      · obtain ⟨inner, heq, hlen⟩ := hk.inside m hm
        refine ⟨(p, name) :: inner, ?_, Nat.succ_le_succ hlen⟩
        rw [heq, hlinks, List.append_assoc, List.singleton_append]
      · exact ⟨[], by rw [List.mem_singleton.1 hm, List.append_nil], Nat.zero_le _⟩
  case height_le =>
    have hle : h ≤ s.maxDepth - n₂.depth := hk.height_le
    have hroom := hgood.depth_le
    show h + 1 ≤ s.maxDepth - n.depth
    omega

/-- One balanced course after another. -/
theorem append (hk : Balanced s n ⟨ns, h, o, n₁⟩) (hk' : Balanced s n₁ ⟨ns', h', o', n₂⟩)
    (o'' : Answer) : Balanced s n ⟨ns ++ ns', max h h', o'', n₂⟩ := by
  obtain rfl : n₁ = n := hk.nesting_eq
  constructor
  case nesting_eq => exact hk'.nesting_eq
  case good =>
    intro m hm
    exact (List.mem_append.1 hm).elim (hk.good m) (hk'.good m)
  case inside =>
    intro m hm
    rcases List.mem_append.1 hm with hm | hm
    · obtain ⟨inner, heq, hlen⟩ := hk.inside m hm
      exact ⟨inner, heq, hlen.trans (Nat.le_max_left h h')⟩
    · obtain ⟨inner, heq, hlen⟩ := hk'.inside m hm
      exact ⟨inner, heq, hlen.trans (Nat.le_max_right h h')⟩
  case height_le => exact Nat.max_le.2 ⟨hk.height_le, hk'.height_le⟩

end Course.Balanced

namespace Calculator

variable {c : Calculator} {call : Call} {n : Nesting} {memo : Memo} {k k' : Course}

/-- **In each course from a good nesting all nestings are good, and the last is the first**, whether
the call ends in a value or in a fault. -/
theorem Takes.balanced (hk : c.Takes call n memo k) (hn : n.Good c.settings) :
    k.Balanced c.settings n := by
  induction hk with
  | fault | value | refused => exact .nil _ _ _
  | entered _ henter _ ih => exact (ih (hn.enter henter).1).within hn henter _
  | leftFault _ ih => exact ih hn
  | rightFault _ _ ihl ihr | result _ _ ihl ihr =>
      -- the right operand is evaluated in the nesting that the left one leaves, which is `n`
      obtain rfl := (ihl hn).nesting_eq
      exact (ihl hn).append (ihr hn) _

/-- A call has at most one course. -/
theorem Takes.unique (hk : c.Takes call n memo k) (hk' : c.Takes call n memo k') : k' = k := by
  induction hk generalizing k' with
  | fault hread =>
      cases hk' with
      | fault hread' =>
          cases hread.symm.trans hread'
          rfl
      | value hread' | refused hread' _ | entered hread' _ _ => cases hread.symm.trans hread'
  | value hread =>
      cases hk' with
      | value hread' =>
          cases hread.symm.trans hread'
          rfl
      | fault hread' | refused hread' _ | entered hread' _ _ => cases hread.symm.trans hread'
  | refused hread henter =>
      cases hk' with
      | fault hread' | value hread' => cases hread.symm.trans hread'
      | refused hread' henter' =>
          cases hread.symm.trans hread'
          cases henter.symm.trans henter'
          rfl
      | entered hread' henter' _ =>
          cases hread.symm.trans hread'
          cases henter.symm.trans henter'
  | entered hread henter _ ih =>
      cases hk' with
      | fault hread' | value hread' => cases hread.symm.trans hread'
      | refused hread' henter' =>
          cases hread.symm.trans hread'
          cases henter.symm.trans henter'
      | entered hread' henter' hinside' =>
          cases hread.symm.trans hread'
          cases henter.symm.trans henter'
          cases ih hinside'
          rfl
  | leftFault _ ih =>
      cases hk' with
      | leftFault hleft' =>
          cases ih hleft'
          rfl
      | rightFault hleft' _ | result hleft' _ => cases ih hleft'
  | rightFault _ _ ihl ihr =>
      cases hk' with
      | leftFault hleft' => cases ihl hleft'
      | rightFault hleft' hright' =>
          cases ihl hleft'
          cases ihr hright'
          rfl
      | result hleft' hright' =>
          cases ihl hleft'
          cases ihr hright'
  | result _ _ ihl ihr =>
      cases hk' with
      | leftFault hleft' => cases ihl hleft'
      | rightFault hleft' hright' =>
          cases ihl hleft'
          cases ihr hright'
      | result hleft' hright' =>
          cases ihl hleft'
          cases ihr hright'
          rfl

/-! ### Each call has a course -/

/-- If operands have courses in a good nesting, then so do formulas: the right operand is evaluated
in the nesting of the left one. -/
theorem exists_takes_formula (hn : n.Good c.settings)
    (h : ∀ name memo, ∃ k, c.Takes (.operand name) n memo k) (f : Formula) (memo : Memo) :
    ∃ k, c.Takes (.formula f) n memo k := by
  obtain ⟨⟨ns, height, ⟨e | a, memo₁⟩, n₁⟩, hleft⟩ := h f.left memo
  · exact ⟨_, .leftFault hleft⟩
  · obtain rfl : n₁ = n := (hleft.balanced hn).nesting_eq
    obtain ⟨⟨ns', height', ⟨e | b, memo₂⟩, n₂⟩, hright⟩ := h f.right memo₁
    · exact ⟨_, .rightFault hleft hright⟩
    · exact ⟨_, .result hleft hright⟩

/-- **Each operand has a course in a good nesting.** -/
theorem exists_takes_operand (hn : n.Good c.settings) (name : String) (memo : Memo) :
    ∃ k, c.Takes (.operand name) n memo k := by
  -- what the bound leaves shrinks with each cell that is entered
  induction hroom : c.settings.maxDepth - n.depth using Nat.strongRecOn
    generalizing n name memo with
  | _ room ih =>
      rcases hread : c.read memo name with e | v | ⟨p, f⟩
      · exact ⟨_, .fault hread⟩
      · exact ⟨_, .value hread⟩
      · rcases henter : n.enter c.settings p name with e | n₁
        · exact ⟨_, .refused hread henter⟩
        · obtain ⟨hgood, -, hdepth, -⟩ := hn.enter henter
          have hless : c.settings.maxDepth - n₁.depth < room := by
            have hle := hgood.depth_le
            omega
          obtain ⟨⟨ns, h, o, n₂⟩, hinside⟩ := exists_takes_formula hgood
            (fun name memo => ih _ hless hgood name memo rfl) f memo
          exact ⟨_, .entered hread henter hinside⟩

theorem exists_takes (hn : n.Good c.settings) (call : Call) (memo : Memo) :
    ∃ k, c.Takes call n memo k := by
  cases call with
  | operand name => exact exists_takes_operand hn name memo
  | formula f => exact exists_takes_formula hn (exists_takes_operand hn) f memo

/-! ### The nestings of an evaluation -/

/-- Evaluates an operand if the nesting passes a check, and else does something else. -/
def watch (check : Nesting → Bool) (other operand : String → Eval Value) : String → Eval Value :=
  fun name w => if check w.nesting then operand name w else other name w

/-- The evaluation of operands under watch: the nesting is checked each time that an operand is to
be evaluated, also inside formulas. -/
def watched (c : Calculator) (check : Nesting → Bool) (other : String → Eval Value) :
    (room : Nat) → String → Eval Value
  | 0 => watch check other (c.step none)
  | room + 1 => watch check other (c.step (some (c.watched check other room)))

/-- What evaluates operands one level further in, if there is room for that. -/
def below (operand : Nat → String → Eval Value) : (room : Nat) → Option (String → Eval Value)
  | 0 => none
  | room + 1 => some (operand room)

variable {check : Nesting → Bool} {other : String → Eval Value}

theorem watched_of_check {room : Nat} (hcheck : check n = true) (name : String) (memo : Memo) :
    c.watched check other room name ⟨n, memo⟩ =
      c.step (below (c.watched check other) room) name ⟨n, memo⟩ := by
  cases room <;> exact if_pos hcheck

/-- An evaluation in which every nesting passes is the evaluation. -/
theorem watched_true (c : Calculator) (other : String → Eval Value) (room : Nat) :
    c.watched (fun _ => true) other room = c.evaluate room := by
  induction room with
  | zero => rfl
  | succ room ih =>
      rw [watched, ih]
      rfl

section Nested

variable {p : Position} {name : String} {f : Formula} {operand : Nat → String → Eval Value}

/-- A cell that the nesting refuses is not evaluated. -/
theorem nested_of_refused (hn : n.Good c.settings) {e : Fault}
    (henter : n.enter c.settings p name = .error e) :
    c.nested (below operand (c.settings.maxDepth - n.depth)) p name f ⟨n, memo⟩ =
      .error e ⟨n, memo⟩ := by
  rw [hn.enter_eq] at henter
  simp only [nested, Eval.get_bind]
  cases hp : n.namesFrom? p with
  | some names =>
      rw [hp] at henter
      cases henter
      rfl
  | none =>
      simp only [hp] at henter
      split at henter
      · next hfull =>
        cases henter
        rw [Nat.sub_eq_zero_of_le hfull]
        rfl
      · cases henter

/-- A cell that the nesting lets in is evaluated there, and left again. -/
theorem nested_of_entered (hn : n.Good c.settings) {n₁ n₂ : Nesting}
    (henter : n.enter c.settings p name = .ok n₁) {o : Answer}
    (hinside : f.evaluate (operand (c.settings.maxDepth - n₁.depth)) ⟨n₁, memo⟩ = o.leaving n₂) :
    c.nested (below operand (c.settings.maxDepth - n.depth)) p name f ⟨n, memo⟩ =
      o.leaving n₂.pop := by
  obtain ⟨hloop, hdepth, rfl⟩ := Nesting.enter_eq_ok_iff.1 henter
  have hp : n.namesFrom? p = none :=
    Nesting.namesFrom?_eq_none_iff.2 fun hp => hloop ⟨hn.full_of_mem hp, hp⟩
  have hroom : c.settings.maxDepth - n.depth =
      c.settings.maxDepth - (n.push c.settings.loops p name).depth + 1 := by
    rw [Nesting.depth_push]
    omega
  rw [hroom]
  simp only [nested, Eval.get_bind, hp, below, Eval.within, hinside]
  rcases o with ⟨e | v, memo'⟩ <;> rfl

end Nested

/-- **A course tells the nestings in which operands are evaluated.**  The evaluation ends as the
course does, and that is so even if it does anything else in all other nestings. -/
theorem Takes.watched_eq (hk : c.Takes call n memo k) (hn : n.Good c.settings)
    (hcheck : check n = true) (hchecks : ∀ m ∈ k.nestings, check m = true) :
    call.evaluate (c.watched check other (c.settings.maxDepth - n.depth)) ⟨n, memo⟩ =
      k.answer.leaving k.nesting := by
  induction hk with
  | fault hread =>
      rw [Call.evaluate, watched_of_check hcheck]
      exact step_of_read_error hread
  | value hread =>
      rw [Call.evaluate, watched_of_check hcheck]
      exact step_of_read_value hread
  | refused hread henter =>
      rw [Call.evaluate, watched_of_check hcheck]
      exact step_of_read_formula (o := (.error _, _)) hread (nested_of_refused hn henter)
  | entered hread henter hinside ih =>
      rw [List.forall_mem_cons, List.forall_mem_append] at hchecks
      rw [Call.evaluate, watched_of_check hcheck]
      have hinside := ih (hn.enter henter).1 hchecks.1 hchecks.2.1
      exact step_of_read_formula hread (nested_of_entered hn henter hinside)
  | leftFault hleft ih =>
      have hl := ih hn hcheck hchecks
      simp only [Call.evaluate] at hl ⊢
      simp only [Formula.evaluate, bind, EStateM.bind, hl]
      rfl
  | rightFault hleft hright ihl ihr =>
      rw [List.forall_mem_append] at hchecks
      obtain rfl := (hleft.balanced hn).nesting_eq
      have hl := ihl hn hcheck hchecks.1
      have hr := ihr hn hcheck hchecks.2
      simp only [Call.evaluate] at hl hr ⊢
      simp only [Formula.evaluate, bind, EStateM.bind, hl, hr, Answer.leaving]
  | @result f _ _ _ _ _ _ _ _ _ _ a b hleft hright ihl ihr =>
      rw [List.forall_mem_append] at hchecks
      obtain rfl := (hleft.balanced hn).nesting_eq
      have hl := ihl hn hcheck hchecks.1
      have hr := ihr hn hcheck hchecks.2
      simp only [Call.evaluate] at hl hr ⊢
      simp only [Formula.evaluate, bind, EStateM.bind, hl, hr, Answer.leaving]
      cases f.result a b <;> rfl

/-- **Evaluations are balanced.**  Let an operand or a formula be evaluated in a good nesting, in
any grid, under any settings and with whatever the memo holds.  By the rules above the evaluation
comes to an end, in exactly one way, and it goes through the nestings of this course only: it makes
no difference what would be done in others.  Each of them is good, at most as many formulas are
nested inside as the bound leaves room for, and whether there is a value or a fault in the end, from
whatever depth it comes, the nesting is the one that was given. -/
theorem evaluate_balanced (c : Calculator) {n : Nesting} (hn : n.Good c.settings) (call : Call)
    (memo : Memo) :
    let room := c.settings.maxDepth - n.depth
    ∃ k : Course, c.Takes call n memo k ∧ (∀ k', c.Takes call n memo k' → k' = k) ∧
      call.evaluate (c.evaluate room) ⟨n, memo⟩ = k.answer.leaving n ∧
      (∀ check other, check n = true → (∀ m ∈ k.nestings, check m = true) →
        call.evaluate (c.watched check other room) ⟨n, memo⟩ =
          call.evaluate (c.evaluate room) ⟨n, memo⟩) ∧
      k.Balanced c.settings n := by
  intro room
  obtain ⟨k, hk⟩ := exists_takes hn call memo
  have hbalanced := hk.balanced hn
  have hwatched : ∀ check other, check n = true → (∀ m ∈ k.nestings, check m = true) →
      call.evaluate (c.watched check other room) ⟨n, memo⟩ = k.answer.leaving n := by
    intro check other hcheck hchecks
    refine (hk.watched_eq hn hcheck hchecks).trans ?_
    rw [hbalanced.nesting_eq]
  have heval : call.evaluate (c.evaluate room) ⟨n, memo⟩ = k.answer.leaving n := by
    rw [← c.watched_true (c.evaluate room) room]
    exact hwatched _ _ rfl fun _ _ => rfl
  refine ⟨k, hk, fun k' => hk.unique, heval, fun check other hcheck hchecks => ?_, hbalanced⟩
  exact (hwatched check other hcheck hchecks).trans heval.symm

/-- Inside `A1` the name `B1` is evaluated.  `D1` is entered twice on the way, which closes no loop;
the way back to `A1`, two cells further in, closes one. -/
theorem evaluate_balanced_round :
    let s : Settings := { maxDepth := 4, loops := .full }
    let n := Nesting.empty.push .full ⟨1, 1⟩ "A1"
    ∃ g, Grid.ofLines [",A,B,C,D", "1,=B1+1,=D1+C1,=D1*A1,=1+2"] = .ok g ∧ n.Good s ∧
      ∃ k, (plain g s).Takes (.operand "B1") n ∅ k ∧
        k.answer.1 = .error (.loop ["A1", "B1", "C1", "A1"]) ∧ k.Balanced s n := by
  intro s n
  have hcheck : (Grid.ofLines [",A,B,C,D", "1,=B1+1,=D1+C1,=D1*A1,=1+2"]).toOption.map
      (fun g => ((plain g s).answer 3 n "B1" ∅).1) =
        some (.error (.loop ["A1", "B1", "C1", "A1"])) := by
    decide +kernel
  have henter : Nesting.empty.enter s ⟨1, 1⟩ "A1" = .ok n := by
    rw [(Nesting.good_empty s).enter_eq, Nesting.namesFrom?_empty]
    rfl
  have hn : n.Good s := ((Nesting.good_empty s).enter henter).1
  rcases hload : Grid.ofLines [",A,B,C,D", "1,=B1+1,=D1+C1,=D1*A1,=1+2"] with e | g
  · rw [hload] at hcheck
    cases hcheck
  · rw [hload] at hcheck
    obtain ⟨k, hk, -, heval, -, hbalanced⟩ := evaluate_balanced (plain g s) hn (.operand "B1") ∅
    rw [Call.evaluate, evaluate_eq_answer] at heval
    have hanswer := Answer.leaving_inj heval
    refine ⟨g, rfl, hn, k, hk, ?_, hbalanced⟩
    rw [← hanswer]
    exact Option.some.inj hcheck

end Calculator

end FormulaGrid
