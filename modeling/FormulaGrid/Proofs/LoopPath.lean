/-
**A loop that is reported is a loop of the grid, and where every loop is looked for, enough room is
never short.**

Under the full search the nesting is a path through the grid: each cell on it was reached by a name
that stands for it and that the formula of the cell before it mentions.  The cell at which a pass
begins was not reached by a name, but it is entered under the name that it has.  A loop is cut out
of this path at the cell that is reached again, and since a cell has one name only, the loop ends
with the text with which it begins.  And since the cells of the path are different formula cells,
the room runs out only if it is smaller than their number.

Main definitions:

* `Grid.Links`, `Grid.IsLoop` — a list of names that goes once round a loop of formulas;
* `Nesting.Linked` — a nesting that is a path to the operand at hand.

Main results:

* `Nesting.Linked.push` — a path goes on into the formula of a cell;
* `Nesting.Linked.isLoop` — **where a path comes back to itself, it holds a loop**;
* `Nesting.Linked.depth_lt` — a path is shorter than the number of formula cells;
* `Worksheet.evaluateAll_loop_path` — **what is reported as a loop is one, and the bound is not
  met if it allows for all formulas**.
-/

import FormulaGrid.Proofs.Faults
import FormulaGrid.Proofs.History
import FormulaGrid.Proofs.Names
import Mathlib.Data.List.Chain
import Mathlib.Data.List.TakeWhile

set_option relaxedAutoImplicit false
set_option autoImplicit false

namespace FormulaGrid

/-! ### Loops -/

namespace Grid

/-- The formula of the cell mentions the name. -/
def Mentions (g : Grid) (p : Position) (name : String) : Prop :=
  ∃ text f, g.get? p = some text ∧ Formula.parse text = .ok f ∧ f.Mentions name

/-- The name `a` stands for a cell whose formula mentions the name `b`. -/
def Links (g : Grid) (a b : String) : Prop := ∃ p, g.find a = .ok p ∧ g.Mentions p b

/-- The names go once round a loop of at least two cells: from each name to a name that its
formula mentions, through different cells, and back to the first name. -/
structure IsLoop (g : Grid) (names : List String) : Prop where
  length : 3 ≤ names.length
  closed : names.head? = names.getLast?
  cells : ∃ ps : List Position, names.dropLast.map g.find = ps.map .ok ∧ ps.Nodup
  links : names.IsChain g.Links

/-- The way goes from one cell to the next: the formula of the first mentions the name by which
the second was reached. -/
def Follows (g : Grid) (a b : Position × String) : Prop :=
  g.Mentions a.1 b.2 ∧ g.find b.2 = .ok b.1

/-- A way that comes back to the cell and the name at which it begins goes round a loop. -/
theorem isLoop_of_isChain {g : Grid} {p : Position} {name : String}
    {rest : List (Position × String)} (hfind : g.find name = .ok p)
    (hself : ¬ g.Mentions p name)
    (hchain : ((p, name) :: (rest ++ [(p, name)])).IsChain g.Follows)
    (hnodup : (((p, name) :: rest).map Prod.fst).Nodup) :
    g.IsLoop (((p, name) :: rest).map Prod.snd ++ [name]) := by
  have hnames : ((p, name) :: rest).map Prod.snd ++ [name] =
      ((p, name) :: (rest ++ [(p, name)])).map Prod.snd := by simp
  have hreached : ∀ a ∈ (p, name) :: (rest ++ [(p, name)]), g.find a.2 = .ok a.1 := by
    refine List.forall_mem_cons.2 ⟨hfind, ?_⟩
    apply hchain.cons_induction (fun a => g.find a.2 = .ok a.1)
    · exact fun _ _ hab _ => hab.2
    · exact hfind
  constructor
  case length =>
    cases rest with
    | nil => exact absurd hchain.rel.1 hself
    | cons a rest => simp
  case closed => rw [List.getLast?_concat, List.map_cons, List.cons_append, List.head?_cons]
  case cells =>
    refine ⟨((p, name) :: rest).map Prod.fst, ?_, hnodup⟩
    rw [List.dropLast_concat, List.map_map, List.map_map]
    refine List.map_congr_left fun a ha => hreached a ?_
    rw [← List.cons_append]
    exact List.mem_append_left _ ha
  case links =>
    rw [hnames, List.isChain_map]
    exact hchain.imp_of_mem_imp fun a b ha _ hab => ⟨a.1, hreached a ha, hab.1⟩

end Grid

/-! ### Nestings as paths -/

namespace Nesting

/-- The nesting is a path through formula cells of the grid, each under its name, that goes on to
the operand if that is a name. -/
structure Linked (n : Nesting) (g : Grid) (operand : String) : Prop where
  sound : n.Sound .full
  formulas : ∀ p ∈ n.positions, p ∈ g.formulaPositions
  named : ∀ link ∈ n.links.toList, g.nameOf? link.1 = some link.2
  chain : ∀ p, g.find operand = .ok p → (n.links.toList ++ [(p, operand)]).IsChain g.Follows

theorem linked_empty (g : Grid) (operand : String) : empty.Linked g operand where
  sound := sound_empty .full
  formulas p hp := by simp [positions, empty] at hp
  named link hlink := by simp [empty] at hlink
  chain p _ := by simp [empty]

variable {n : Nesting} {g : Grid} {operand : String}

@[simp] theorem toList_links_push (policy : LoopPolicy) (p : Position) (name : String) :
    (n.push policy p name).links.toList = n.links.toList ++ [(p, name)] := by
  simp [push]

@[simp] theorem positions_push (policy : LoopPolicy) (p : Position) (name : String) :
    (n.push policy p name).positions = n.positions ++ [p] := by
  simp [positions]

/-- A path goes on into the formula of a cell, under the name that the cell has. -/
theorem Linked.push (h : n.Linked g operand) {p : Position} {via name : String}
    (hp : n.namesFrom? p = none) (hformula : p ∈ g.formulaPositions)
    (hname : g.nameOf? p = some via) (hm : g.Mentions p name)
    (hchain : (n.links.toList ++ [(p, via)]).IsChain g.Follows) :
    (n.push .full p via).Linked g name where
  sound := h.sound.push (namesFrom?_eq_none_iff.1 hp) via
  formulas q hq := by
    rw [positions_push, List.mem_append, List.mem_singleton] at hq
    rcases hq with hq | rfl
    · exact h.formulas q hq
    · exact hformula
  named link hlink := by
    rw [toList_links_push, List.mem_append, List.mem_singleton] at hlink
    rcases hlink with hlink | rfl
    · exact h.named link hlink
    · exact hname
  chain q hq := by
    rw [toList_links_push, List.append_assoc, List.singleton_append,
      List.isChain_append_cons_cons]
    exact ⟨hchain, ⟨hm, hq⟩, List.IsChain.singleton _⟩

/-- **Where a path comes back to itself, it holds a loop.** -/
theorem Linked.isLoop (h : n.Linked g operand) {p : Position} (hfind : g.find operand = .ok p)
    (hname : g.nameOf? p = some operand) (hself : ¬ g.Mentions p operand) {names : List String}
    (hnames : n.namesFrom? p = some names) : g.IsLoop (names ++ [operand]) := by
  obtain ⟨hp, hcut⟩ : p ∈ n.active ∧
      (n.links.toList.dropWhile (·.1 ≠ p)).map Prod.snd = names := by
    simpa [namesFrom?] using hnames
  have hsuffix := List.dropWhile_suffix (l := n.links.toList) (·.1 ≠ p)
  have hfirst := List.head_dropWhile_not (·.1 ≠ p) (l := n.links.toList)
  rcases hlinks : n.links.toList.dropWhile (·.1 ≠ p) with _ | ⟨⟨q, via⟩, rest⟩
  · -- the cell is on the path
    obtain ⟨link, hlink, hpos⟩ := List.mem_map.1 ((h.sound.2 p).1 hp)
    simpa [hpos] using List.dropWhile_eq_nil_iff.1 hlinks link hlink
  · simp only [hlinks] at hsuffix hfirst hcut
    obtain rfl : q = p := of_not_not (of_decide_eq_false (hfirst (List.cons_ne_nil _ _)))
    -- it was entered under its name, and that is the operand
    have hvia := h.named (q, via) (hsuffix.subset (List.mem_cons_self ..))
    obtain rfl : operand = via := Option.some.inj (hname.symm.trans hvia)
    rw [← hcut]
    refine Grid.isLoop_of_isChain hfind hself ?_ ?_
    · obtain ⟨before, hsplit⟩ := hsuffix
      have hchain := h.chain q hfind
      rw [← hsplit, List.append_assoc] at hchain
      exact hchain.right_of_append
    · exact h.sound.1.sublist (hsuffix.sublist.map Prod.fst)

/-- A path that does not come back to itself is shorter than the number of formula cells. -/
theorem Linked.depth_lt (h : n.Linked g operand) {p : Position} (hformula : p ∈ g.formulaPositions)
    (hp : n.namesFrom? p = none) : n.depth < g.formulaPositions.length := by
  have hfresh : p ∉ n.positions := fun hmem =>
    namesFrom?_eq_none_iff.1 hp ((h.sound.2 p).2 hmem)
  have hnodup : (p :: n.positions).Nodup := List.nodup_cons.2 ⟨hfresh, h.sound.1⟩
  have hsubset : p :: n.positions ⊆ g.formulaPositions := by
    intro q hq
    rcases List.mem_cons.1 hq with rfl | hq
    · exact hformula
    · exact h.formulas q hq
  have hle := (List.subperm_of_subset hnodup hsubset).length_le
  rw [List.length_cons, positions, List.length_map, Array.length_toList] at hle
  exact hle

end Nesting

/-! ### Evaluations -/

/-- A fault that reports a loop reports one of the grid, and one that reports the bound `limit`
shows that there are more formula cells. -/
def Fault.Warranted (g : Grid) (limit : Nat) (e : Fault) : Prop :=
  (∀ names, e = .loop names → g.IsLoop names) ∧
    ∀ name limit', e = .tooDeep name limit' → limit < g.formulaPositions.length

theorem Fault.warranted_of_ofNesting {g : Grid} {limit : Nat} {e : Fault}
    (h : e.ofNesting = false) : e.Warranted g limit := by
  constructor
  · rintro names rfl
    cases h
  · rintro name limit' rfl
    cases h

namespace Calculator

/-- What is known where an operand is evaluated: the nesting is a path to it, and its depth and the
room that is left make up the bound. -/
structure OnPath (c : Calculator) (room : Nat) (n : Nesting) (operand : String) : Prop where
  linked : n.Linked c.grid operand
  room_eq : n.depth + room = c.settings.maxDepth

section Path

variable {c : Calculator} (hfull : c.settings.loops = .full) (hg : c.grid.WellFormed)

include hg

theorem mem_formulaPositions_of_read {memo : Memo} {operand : String} {p : Position} {f : Formula}
    (hread : c.read memo operand = .ok (.formula p f)) :
    c.grid.find operand = .ok p ∧ p ∈ c.grid.formulaPositions ∧
      c.grid.nameOf? p = some operand ∧ ¬ c.grid.Mentions p operand ∧
      ∀ name, f.Mentions name → c.grid.Mentions p name := by
  obtain ⟨text, hcell, -, hparse, hself⟩ := read_eq_formula_iff.1 hread
  have hfind := (Grid.lookUp_eq_ok_iff.1 hcell.2).1
  refine ⟨hfind, Grid.mem_formulaPositions_of_parse hcell.mem_dataPositions hcell.get? hparse,
    hg.nameOf?_of_find hfind, ?_, fun name hm => ⟨text, f, hcell.get?, hparse, hm⟩⟩
  rintro ⟨text', f', hget, hparse', hm⟩
  obtain rfl := Option.some.inj (hcell.get?.symm.trans hget)
  obtain rfl := Except.ok.inj (hparse.symm.trans hparse')
  exact hself hm

theorem OnPath.loop {room : Nat} {n : Nesting} {operand : String} (h : c.OnPath room n operand)
    {memo : Memo} {p : Position} {f : Formula} {names : List String}
    (hread : c.read memo operand = .ok (.formula p f)) (hp : n.namesFrom? p = some names) :
    (Fault.loop (names ++ [operand])).Warranted c.grid c.settings.maxDepth := by
  obtain ⟨hfind, -, hname, hself, -⟩ := mem_formulaPositions_of_read hg hread
  constructor
  · rintro _ ⟨⟩
    exact h.linked.isLoop hfind hname hself hp
  · rintro _ _ ⟨⟩

theorem OnPath.tooDeep {n : Nesting} {operand : String} (h : c.OnPath 0 n operand)
    {memo : Memo} {p : Position} {f : Formula}
    (hread : c.read memo operand = .ok (.formula p f)) (hp : n.namesFrom? p = none) :
    (Fault.tooDeep operand c.settings.maxDepth).Warranted c.grid c.settings.maxDepth := by
  obtain ⟨-, hformula, -⟩ := mem_formulaPositions_of_read hg hread
  have hlt := h.linked.depth_lt hformula hp
  have hroom := h.room_eq
  constructor
  · rintro _ ⟨⟩
  · rintro _ _ -
    omega

include hfull

theorem OnPath.push {room : Nat} {n : Nesting} {operand : String}
    (h : c.OnPath (room + 1) n operand) {memo : Memo} {p : Position} {f : Formula} {name : String}
    (hread : c.read memo operand = .ok (.formula p f)) (hp : n.namesFrom? p = none)
    (hm : f.Mentions name) : c.OnPath room (n.push c.settings.loops p operand) name := by
  obtain ⟨hfind, hformula, hname, -, hmentions⟩ := mem_formulaPositions_of_read hg hread
  have hroom := h.room_eq
  constructor
  case linked =>
    rw [hfull]
    exact h.linked.push hp hformula hname (hmentions name hm) (h.linked.chain p hfind)
  case room_eq =>
    rw [Nesting.depth_push]
    omega

/-- On a path, every fault of the way into a cell is warranted. -/
theorem entering_onPath : c.Entering c.OnPath (Fault.Warranted c.grid c.settings.maxDepth) where
  plain _ := Fault.warranted_of_ofNesting
  loop h hread hp := h.loop hg hread hp
  tooDeep h hread hp := h.tooDeep hg hread hp
  push h hread hp hm := h.push hfull hg hread hp hm

/-- Every fault of an operand is warranted, whatever the memo holds. -/
theorem warranted_of_operand {name : String} {memo : Memo} {e : Fault}
    (he : (c.operand name memo).1 = .error e) : e.Warranted c.grid c.settings.maxDepth := by
  rw [operand_eq_answer] at he
  exact answer_fault (entering_onPath hfull hg)
    ⟨Nesting.linked_empty c.grid name, Nat.zero_add _⟩ he

/-- Every fault of the formula that a data cell holds is warranted. -/
theorem warranted_of_cell {p : Position} {text : String} {f : Formula}
    (hp : p ∈ c.grid.dataPositions) (hget : c.grid.get? p = some text)
    (hparse : Formula.parse text = .ok f) {memo : Memo} {e : Fault}
    (he : (c.cell p f memo).1 = .error e) : e.Warranted c.grid c.settings.maxDepth := by
  have hformula := Grid.mem_formulaPositions_of_parse hp hget hparse
  have hname : c.grid.nameOf? p = some (c.grid.nameOf p) := by
    obtain ⟨hrow, hcol, -⟩ := Grid.mem_dataPositions.1 hp
    obtain ⟨column, row, hcolumn, hlabel⟩ := hg.exists_labels hp
    have hsome := Grid.nameOf?_eq_some_iff.2 ⟨hrow, hcol, column, row, hcolumn, hlabel, rfl⟩
    rw [Grid.nameOf, hsome]
    rfl
  refine cell_fault (entering_onPath hfull hg) ?_ ?_ he
  · intro hzero
    constructor
    · rintro _ ⟨⟩
    rintro _ _ -
    rw [hzero]
    exact List.length_pos_of_mem hformula
  · intro room name hroom hm
    constructor
    case linked =>
      rw [hfull]
      exact (Nesting.linked_empty c.grid name).push (Nesting.namesFrom?_empty p) hformula hname
        ⟨text, f, hget, hparse, hm⟩ (by simp [Nesting.empty])
    case room_eq =>
      rw [Nesting.depth_push, hroom]
      simp [Nesting.depth, Nesting.empty]
      omega

end Path

end Calculator

/-! ### Passes -/

namespace Worksheet

/-- A fault that stops a pass is warranted in the grid as the pass leaves it, and no formula has
come up there. -/
theorem warranted_of_evaluateAll {g : Grid} (hg : g.WellFormed) {s : Settings}
    (hfull : s.loops = .full) {cell : String} {e : Fault} {w' : Worksheet}
    (hrun : (new g s).evaluateAll = (.error (.inCell cell e), w')) :
    e.Warranted w'.grid s.maxDepth ∧
      w'.grid.formulaPositions.Sublist g.formulaPositions := by
  obtain ⟨qs, p, rs, t, w, hps, hbefore, hstop⟩ := evaluateCells_stops g.dataPositions {} hrun
  have hw : w.Settles g qs := (settles_new g s).of_run hbefore
  have hsettings : w.settings = s := settings_of_run hbefore
  have hdone : ∀ q ∈ qs, q ∈ g.dataPositions := fun q hq => by simp [hps, hq]
  have hp : p ∈ w.grid.dataPositions := by simp [hw.settled.dataPositions, hps]
  have hsub := hw.settled.formulaPositions_sublist
  cases hstop with
  | notFormula _ _ hparse =>
      exact ⟨Fault.warranted_of_ofNesting (Formula.ofNesting_of_parse hparse), hsub⟩
  | fault hget hparse hcell =>
      have hsame : (Calculator.remembering w.grid w.settings).settings = s := hsettings
      have hwarranted := Calculator.warranted_of_cell
        (c := Calculator.remembering w.grid w.settings) (hsame ▸ hfull)
        (hg.of_settled hw.settled hdone) hp hget hparse (congrArg Prod.fst hcell)
      rw [hsame] at hwarranted
      exact ⟨hwarranted, hsub⟩

/-- A fault of an operand is warranted in the grid, with and without the use of a memo. -/
theorem warranted_of_calculator {g : Grid} (hg : g.WellFormed) {s : Settings}
    (hfull : s.loops = .full) {cached : Bool} {operand : String} {memo : Memo} {e : Fault}
    (he : (((new g s).calculator cached).operand operand memo).1 = .error e) :
    e.Warranted g s.maxDepth := by
  cases cached with
  | false => exact Calculator.warranted_of_operand (c := .plain g s) hfull hg he
  | true => exact Calculator.warranted_of_operand (c := .remembering g s) hfull hg he

/-- **What is reported as a loop is one, and the bound is not met if it allows for all formulas.**
This holds for every pass over a grid that was loaded, if all loops are looked for, and for every
operand.  The loop is one of the grid as the pass leaves it. -/
theorem evaluateAll_loop_path {lines : List String} {g : Grid} (h : Grid.ofLines lines = .ok g)
    {s : Settings} (hfull : s.loops = .full) :
    (∀ cell names, (new g s).evaluateAll.1 = .error (.inCell cell (.loop names)) →
      (new g s).evaluateAll.2.grid.IsLoop names) ∧
    (g.formulaPositions.length ≤ s.maxDepth → ∀ cell name limit,
      (new g s).evaluateAll.1 ≠ .error (.inCell cell (.tooDeep name limit))) ∧
    ∀ (cached : Bool) (operand : String) (memo : Memo),
      let answer := ((new g s).calculator cached).operand operand memo
      (∀ names, answer.1 = .error (.loop names) → g.IsLoop names) ∧
      (g.formulaPositions.length ≤ s.maxDepth → ∀ name limit,
        answer.1 ≠ .error (.tooDeep name limit)) := by
  obtain ⟨hg, -⟩ := Grid.ofLines_eq_ok_iff.1 h
  refine ⟨fun cell names he => ?_, fun hdepth cell name limit he => ?_,
    fun cached operand memo => ⟨fun names he => ?_, fun hdepth name limit he => ?_⟩⟩
  · exact (warranted_of_evaluateAll hg hfull (Prod.ext he rfl)).1.1 names rfl
  · obtain ⟨hwarranted, hsub⟩ := warranted_of_evaluateAll hg hfull (Prod.ext he rfl)
    have hlt := hwarranted.2 name limit rfl
    have hle := hsub.length_le
    omega
  · exact (warranted_of_calculator hg hfull he).1 names rfl
  · have hlt := (warranted_of_calculator hg hfull he).2 name limit rfl
    omega

/-- The loop need not go through the cell at which the pass stops, and a bound of three is enough
for three formulas. -/
theorem loop_path_behind_cell :
    ∃ g, Grid.ofLines [",A,B,D", "1,=B1+1,=D1*2,=B1-1"] = .ok g ∧
      (new g { loops := .full, maxDepth := 3 }).evaluateAll.1 =
        .error (.inCell "A1" (.loop ["B1", "D1", "B1"])) ∧
      (new g { loops := .full, maxDepth := 3 }).evaluateAll.2.grid.IsLoop ["B1", "D1", "B1"] ∧
      g.formulaPositions.length = 3 ∧
      ∀ cached operand name limit, (((new g { loops := .full, maxDepth := 3 }).calculator
        cached).operand operand ∅).1 ≠ .error (.tooDeep name limit) := by
  have hfacts : (Grid.ofLines [",A,B,D", "1,=B1+1,=D1*2,=B1-1"]).toOption.map (fun g =>
      ((new g { loops := .full, maxDepth := 3 }).evaluateAll.1, g.formulaPositions.length)) =
        some (.error (.inCell "A1" (.loop ["B1", "D1", "B1"])), 3) := by
    decide +kernel
  rcases h : Grid.ofLines [",A,B,D", "1,=B1+1,=D1*2,=B1-1"] with e | g
  · rw [h] at hfacts
    cases hfacts
  · rw [h] at hfacts
    obtain ⟨hrun, hthree⟩ := Prod.mk.inj (Option.some.inj hfacts)
    obtain ⟨hpass, -, hoperand⟩ :=
      evaluateAll_loop_path h (s := { loops := .full, maxDepth := 3 }) rfl
    exact ⟨g, rfl, hrun, hpass "A1" _ hrun, hthree,
      fun cached operand => (hoperand cached operand ∅).2 hthree.le⟩

end Worksheet

end FormulaGrid
