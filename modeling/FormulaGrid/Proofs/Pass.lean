/-
**A pass puts every formula's worth in its place, and finds it whenever there is one.**

A pass goes through the data cells in order.  The invariant is that the cells behind it are
settled and that its memo is backed by the grid as it stands; since settling changes no worth, the
worth that the pass finds for a formula is the one that the formula had before the pass began.

Main definitions:

* `Worksheet.Deals` — the ways in which a pass deals with a cell;
* `Worksheet.Settles` — a worksheet on which some cells of a grid are done.

Main results:

* `Worksheet.Deals.settles`, `Worksheet.evaluateCells_settles` — what one cell and a run keep;
* `Worksheet.evaluateCells_stops` — where a run stops;
* `Worksheet.worths_of_evaluateAll`, `Worksheet.exists_evaluateAll` — a pass that ends has found
  all cells worth something, and then it does end;
* `Worksheet.evaluateAll_settles` — **a pass that ends has replaced all formulas by their worths,
  and it ends if all cells have one and the bound allows for all formulas**.
-/

import FormulaGrid.Proofs.Settled
import FormulaGrid.Worksheet

set_option relaxedAutoImplicit false
set_option autoImplicit false

namespace FormulaGrid

namespace Worksheet

/-! ### One cell -/

/-- The ways in which a pass deals with the cell `p`. -/
inductive Deals (w : Worksheet) (p : Position) (t : Tally) :
    Except PassError Tally × Worksheet → Prop
  | noCell (hget : w.grid.get? p = none) : Deals w p t (.ok t, w)
  | integer {text : String} {v : Value} (hget : w.grid.get? p = some text)
      (hread : Value.read? text = some v) :
      Deals w p t (.ok { t with integers := t.integers + 1 }, w)
  | notInteger {text : String} (hget : w.grid.get? p = some text)
      (htext : Formula.isFormulaText text = false) (hread : Value.read? text = none) :
      Deals w p t (.error (.notInteger text p), w)
  | notFormula {text : String} {e : Fault} (hget : w.grid.get? p = some text)
      (htext : Formula.isFormulaText text = true) (hparse : Formula.parse text = .error e) :
      Deals w p t (.error (.inCell (w.grid.nameOf p) e), w)
  | fault {text : String} {f : Formula} {e : Fault} {memo : Memo}
      (hget : w.grid.get? p = some text) (hparse : Formula.parse text = .ok f)
      (hcell : (Calculator.remembering w.grid w.settings).cell p f w.memo = (.error e, memo)) :
      Deals w p t (.error (.inCell (w.grid.nameOf p) e), { w with memo := memo })
  | formula {text : String} {f : Formula} {v : Value} {memo : Memo}
      (hget : w.grid.get? p = some text) (hparse : Formula.parse text = .ok f)
      (hcell : (Calculator.remembering w.grid w.settings).cell p f w.memo = (.ok v, memo)) :
      Deals w p t (.ok { t with formulas := t.formulas + 1 },
        { w with grid := w.grid.set p v.text, memo := memo })

theorem evaluateCell_deals (w : Worksheet) (p : Position) (t : Tally) :
    w.Deals p t (w.evaluateCell p t) := by
  unfold evaluateCell
  cases hget : w.grid.get? p with
  | none => exact .noCell hget
  | some text =>
      cases htext : Formula.isFormulaText text with
      | true =>
          cases hparse : Formula.parse text with
          | error e => simpa [htext, hparse] using Deals.notFormula (t := t) hget htext hparse
          | ok f =>
              rcases hcell : (Calculator.remembering w.grid w.settings).cell p f w.memo
                with ⟨e | v, memo⟩
              · simpa [htext, hparse, hcell] using Deals.fault (t := t) hget hparse hcell
              · simpa [htext, hparse, hcell] using Deals.formula (t := t) hget hparse hcell
      | false =>
          cases hread : Value.read? text with
          | none => simpa [htext, hread] using Deals.notInteger (t := t) hget htext hread
          | some v => simpa [htext, hread] using Deals.integer (t := t) hget hread

/-- There is one way for each cell. -/
theorem Deals.evaluateCell_eq {w : Worksheet} {p : Position} {t : Tally}
    {o : Except PassError Tally × Worksheet} (hd : w.Deals p t o) : w.evaluateCell p t = o := by
  unfold evaluateCell
  cases hd with
  | noCell hget => simp [hget]
  | integer hget hread =>
      have htext := Formula.isFormulaText_of_read? hread
      simp [hget, htext, hread]
  | notInteger hget htext hread => simp [hget, htext, hread]
  | notFormula hget htext hparse => simp [hget, htext, hparse]
  | fault hget hparse hcell | formula hget hparse hcell =>
      have htext := Formula.isFormulaText_of_parse hparse
      simp [hget, htext, hparse, hcell]

/-- An integer cell is counted and left as it is. -/
theorem evaluateCell_of_holdsInteger {w : Worksheet} {p : Position}
    (h : w.grid.holdsInteger p = true) (t : Tally) :
    w.evaluateCell p t = (.ok { t with integers := t.integers + 1 }, w) := by
  obtain ⟨v, hv⟩ := Option.isSome_iff_exists.1 h
  obtain ⟨text, hget, hread⟩ := Option.bind_eq_some_iff.1 hv
  exact (Deals.integer hget hread).evaluateCell_eq

/-- The cells of `g` in `done` are settled, and the memo holds worths. -/
structure Settles (w : Worksheet) (g : Grid) (done : List Position) : Prop where
  settled : g.Settled done w.grid
  backs : w.grid.Backs w.memo

section Cell

variable {w : Worksheet} {p : Position} {t : Tally} {o : Except PassError Tally × Worksheet}
  (hd : w.Deals p t o)

include hd

theorem Deals.settings : o.2.settings = w.settings := by
  cases hd <;> rfl

/-- One more cell is done, unless the pass stops at it. -/
theorem Deals.settles {g : Grid} {done : List Position} (h : w.Settles g done) :
    ∃ qs, qs <+: [p] ∧ o.2.Settles g (done ++ qs) ∧ ∀ t', o.1 = .ok t' → qs = [p] := by
  have hskip : w.grid.holdsFormula p = false → w.Settles g (done ++ [p]) := by
    intro hformula
    exact ⟨h.settled.skip hformula, h.backs⟩
  have hstop : w.Settles g (done ++ []) := by
    rwa [List.append_nil]
  cases hd with
  | noCell hget =>
      refine ⟨[p], List.prefix_rfl, hskip ?_, fun _ _ => rfl⟩
      rw [Grid.holdsFormula, hget, Option.any_none]
  | @integer text v hget hread =>
      refine ⟨[p], List.prefix_rfl, hskip ?_, fun _ _ => rfl⟩
      rw [Grid.holdsFormula_of_get? hget, Formula.isFormulaText_of_read? hread]
  | notInteger | notFormula => exact ⟨[], List.nil_prefix, hstop, by simp⟩
  | @fault _ f e memo _ _ hcell =>
      have hbacks := Calculator.backs_of_cell
        (c := Calculator.remembering w.grid w.settings) p f h.backs
      rw [hcell] at hbacks
      exact ⟨[], List.nil_prefix, ⟨hstop.settled, hbacks⟩, by simp⟩
  | @formula text f v memo hget hparse hcell =>
      have hbacks := Calculator.backs_of_cell
        (c := Calculator.remembering w.grid w.settings) p f h.backs
      have hworth := (Calculator.worth_of_cell
        (c := Calculator.remembering w.grid w.settings) p f fun _ => h.backs).2 v
      rw [hcell] at hbacks hworth
      have hv : w.grid.CellWorth p v := .formula hget hparse (hworth rfl)
      have hformula : w.grid.holdsFormula p = true :=
        Grid.holdsFormula_iff.2 ⟨text, hget, Formula.isFormulaText_of_parse hparse⟩
      refine ⟨[p], List.prefix_rfl, ⟨h.settled.set hformula hv, ?_⟩, fun _ _ => rfl⟩
      -- what the memo holds is worth the same after the cell is written
      exact ((Grid.Settled.refl w.grid).set hformula hv).backs_iff.2 hbacks

/-- A cell that is not yet done is counted for what it held at the start. -/
theorem Deals.counts {g : Grid} {done : List Position} (h : w.Settles g done) (hp : p ∉ done)
    {t' : Tally} (ho : o.1 = .ok t') :
    t'.integers = t.integers + (if g.holdsInteger p then 1 else 0) ∧
      t'.formulas = t.formulas + (if g.holdsFormula p then 1 else 0) ∧
      ((g.get? p).isSome = true → g.holdsInteger p = !g.holdsFormula p) := by
  have hkept : w.grid.get? p = g.get? p := h.settled.other p fun hdone => hp hdone.1
  cases hd with
  | notInteger | notFormula | fault => cases ho
  | noCell hget =>
      obtain rfl := Except.ok.inj ho
      rw [hkept] at hget
      simp [Grid.holdsInteger, Grid.holdsFormula, hget]
  | @integer text v hget hread =>
      obtain rfl := Except.ok.inj ho
      rw [hkept] at hget
      have htext := Formula.isFormulaText_of_read? hread
      simp [Grid.holdsInteger_of_get? hget, Grid.holdsFormula_of_get? hget, hread, htext]
  | @formula text f v memo hget hparse hcell =>
      obtain rfl := Except.ok.inj ho
      rw [hkept] at hget
      have hread := Formula.read?_eq_none_of_parse hparse
      have htext := Formula.isFormulaText_of_parse hparse
      simp [Grid.holdsInteger_of_get? hget, Grid.holdsFormula_of_get? hget, hread, htext]

/-- The pass gets over a cell whose worth is within the bound. -/
theorem Deals.eq_ok (hb : w.grid.Backs w.memo) {v : Value}
    (hv : w.grid.CellWorthIn w.settings.maxDepth p v) : ∃ t', o.1 = .ok t' := by
  have hworth : w.grid.CellWorth p v := Grid.cellWorth_iff_exists_cellWorthIn.2 ⟨_, hv⟩
  cases hd with
  | noCell | integer | formula => exact ⟨_, rfl⟩
  | notInteger hget htext hread =>
      rcases hworth.read_or_parse hget with hread' | ⟨f, hparse⟩
      · cases hread.symm.trans hread'
      · cases htext.symm.trans (Formula.isFormulaText_of_parse hparse)
  | notFormula hget htext hparse =>
      rcases hworth.read_or_parse hget with hread | ⟨f, hparse'⟩
      · cases (Formula.read?_eq_none_of_isFormulaText htext).symm.trans hread
      · cases hparse.symm.trans hparse'
  | fault hget hparse hcell =>
      have hok := (Calculator.cell_complete (c := Calculator.remembering w.grid w.settings) hget
        hparse fun _ => hb).eq_ok hworth hv
      rw [hcell] at hok
      cases hok

end Cell

/-! ### A run over cells -/

section Run

variable {w w' : Worksheet} {p : Position} {t : Tally} {g : Grid} {done : List Position}

theorem evaluateCells_cons_of_error {e : PassError} (h : w.evaluateCell p t = (.error e, w'))
    (ps : List Position) : evaluateCells (p :: ps) t w = (.error e, w') := by
  rw [evaluateCells, h]

theorem evaluateCells_cons_of_ok {t' : Tally} (h : w.evaluateCell p t = (.ok t', w'))
    (ps : List Position) : evaluateCells (p :: ps) t w = evaluateCells ps t' w' := by
  rw [evaluateCells, h]

/-- A run that gets over some cells goes on from there. -/
theorem evaluateCells_append_of_ok {qs : List Position} {t' : Tally}
    (h : evaluateCells qs t w = (.ok t', w')) (ps : List Position) :
    evaluateCells (qs ++ ps) t w = evaluateCells ps t' w' := by
  induction qs generalizing t w with
  | nil =>
      cases h
      rfl
  | cons q qs ih =>
      rcases hstep : w.evaluateCell q t with ⟨e | t₁, w₁⟩
      · rw [evaluateCells_cons_of_error hstep] at h
        cases h
      · rw [evaluateCells_cons_of_ok hstep] at h
        rw [List.cons_append, evaluateCells_cons_of_ok hstep, ih h]

/-- A run settles the cells up to the one at which it stops. -/
theorem evaluateCells_settles (ps : List Position) (t : Tally) (h : w.Settles g done) :
    ∃ qs, qs <+: ps ∧ (evaluateCells ps t w).2.Settles g (done ++ qs) ∧
      ∀ t', (evaluateCells ps t w).1 = .ok t' → qs = ps := by
  -- what is done grows from cell to cell, while `g` stays the grid at the start
  induction ps generalizing t w done with
  | nil =>
      refine ⟨[], List.prefix_rfl, ?_, fun _ _ => rfl⟩
      rwa [List.append_nil]
  | cons p ps ih =>
      obtain ⟨qs, hqs, hw, hok⟩ := (w.evaluateCell_deals p t).settles h
      rcases hstep : w.evaluateCell p t with ⟨e | t', w'⟩
      · rw [hstep] at hw
        rw [evaluateCells_cons_of_error hstep]
        exact ⟨qs, hqs.trans (by simp), hw, by simp⟩
      · rw [hstep] at hw hok
        obtain rfl := hok t' rfl
        obtain ⟨rs, hrs, hw', hok'⟩ := ih t' hw
        rw [evaluateCells_cons_of_ok hstep]
        refine ⟨p :: rs, ?_, ?_, fun u hu => by rw [hok' u hu]⟩
        · simpa using hrs
        · simpa using hw'

/-- A run that ends has settled all its cells. -/
theorem Settles.of_run (h : w.Settles g done) {ps : List Position} {t' : Tally}
    (hrun : evaluateCells ps t w = (.ok t', w')) : w'.Settles g (done ++ ps) := by
  obtain ⟨qs, -, hw, hok⟩ := evaluateCells_settles ps t h
  rw [hrun] at hw hok
  obtain rfl := hok t' rfl
  exact hw

/-- What none of its cells changes, a run does not change. -/
theorem evaluateCells_keeps {α : Type} (π : Worksheet → α) (ps : List Position) (t : Tally)
    (hcell : ∀ p ∈ ps, ∀ (w : Worksheet) (t : Tally), π (w.evaluateCell p t).2 = π w) :
    π (evaluateCells ps t w).2 = π w := by
  induction ps generalizing t w with
  | nil => rfl
  | cons p ps ih =>
      rw [List.forall_mem_cons] at hcell
      have hkept := hcell.1 w t
      rcases hstep : w.evaluateCell p t with ⟨e | t', w'⟩
      all_goals rw [hstep] at hkept
      · rwa [evaluateCells_cons_of_error hstep]
      · rw [evaluateCells_cons_of_ok hstep, ih t' hcell.2, hkept]

theorem settings_of_run {ps : List Position} {r : Except PassError Tally}
    (hrun : evaluateCells ps t w = (r, w')) : w'.settings = w.settings := by
  have hkept := evaluateCells_keeps (w := w) Worksheet.settings ps t fun p _ w t =>
    (w.evaluateCell_deals p t).settings
  rwa [hrun] at hkept

/-- A run that stops does so at one of the cells, and the run over the cells before it ends. -/
theorem evaluateCells_stops (ps : List Position) (t : Tally) {e : PassError}
    (hrun : evaluateCells ps t w = (.error e, w')) :
    ∃ (qs : List Position) (p : Position) (rs : List Position) (t₁ : Tally) (w₁ : Worksheet),
      ps = qs ++ p :: rs ∧ evaluateCells qs t w = (.ok t₁, w₁) ∧
        w₁.Deals p t₁ (.error e, w') := by
  induction ps generalizing t w with
  | nil => cases hrun
  | cons p ps ih =>
      have hdeals := w.evaluateCell_deals p t
      rcases hstep : w.evaluateCell p t with ⟨e' | t₁, w₁⟩
      · rw [evaluateCells_cons_of_error hstep] at hrun
        rw [hstep, hrun] at hdeals
        exact ⟨[], p, ps, t, w, rfl, rfl, hdeals⟩
      · rw [evaluateCells_cons_of_ok hstep] at hrun
        obtain ⟨qs, q, rs, t₂, w₂, rfl, hbefore, hstop⟩ := ih t₁ hrun
        refine ⟨p :: qs, q, rs, t₂, w₂, rfl, ?_, hstop⟩
        rw [evaluateCells_cons_of_ok hstep, hbefore]

/-- A run that ends counts every cell for what it held at the start. -/
theorem evaluateCells_counts (ps : List Position) (t : Tally) (h : w.Settles g done)
    (hnodup : (done ++ ps).Nodup) {t' : Tally} (ht' : (evaluateCells ps t w).1 = .ok t') :
    t'.integers = t.integers + ps.countP g.holdsInteger ∧
      t'.formulas = t.formulas + ps.countP g.holdsFormula ∧
      ∀ p ∈ ps, (g.get? p).isSome = true → g.holdsInteger p = !g.holdsFormula p := by
  induction ps generalizing t w done with
  | nil =>
      obtain rfl := Except.ok.inj ht'
      simp
  | cons p ps ih =>
      have hdeals := w.evaluateCell_deals p t
      rcases hstep : w.evaluateCell p t with ⟨e | t₁, w₁⟩
      · rw [evaluateCells_cons_of_error hstep] at ht'
        cases ht'
      · rw [hstep] at hdeals
        rw [evaluateCells_cons_of_ok hstep] at ht'
        have hp : p ∉ done := by
          intro hdone
          exact (List.nodup_append.1 hnodup).2.2 p hdone p (List.mem_cons_self ..) rfl
        obtain ⟨hint, hform, hone⟩ := hdeals.counts h hp rfl
        obtain ⟨qs, -, hw, hok⟩ := hdeals.settles h
        obtain rfl := hok t₁ rfl
        have hnodup' : (done ++ [p] ++ ps).Nodup := by
          rwa [List.append_assoc, List.singleton_append]
        obtain ⟨hints, hforms, hones⟩ := ih t₁ hw hnodup' ht'
        rw [List.countP_cons, List.countP_cons]
        refine ⟨by omega, by omega, ?_⟩
        intro q hq
        rcases List.mem_cons.1 hq with rfl | hq
        · exact hone
        · exact hones q hq

/-- A run that ends has come to cells only that are worth something. -/
theorem exists_worth_of_run (h : w.Settles g done) {ps : List Position}
    (hnodup : (done ++ ps).Nodup) {t' : Tally} (hrun : evaluateCells ps t w = (.ok t', w'))
    (hp : p ∈ ps) (hsome : (g.get? p).isSome = true) : ∃ v, g.CellWorth p v := by
  have hok : (evaluateCells ps t w).1 = .ok t' := congrArg Prod.fst hrun
  obtain ⟨-, -, hone⟩ := evaluateCells_counts ps t h hnodup hok
  cases hformula : g.holdsFormula p with
  | true =>
      obtain ⟨v, hv, -⟩ := (h.of_run hrun).settled.formula p (List.mem_append_right _ hp) hformula
      exact ⟨v, hv⟩
  | false =>
      -- a cell without a formula holds an integer
      have hint : ((g.get? p).bind Value.read?).isSome = true := by
        rw [← Grid.holdsInteger, hone p hp hsome, hformula]
        rfl
      obtain ⟨v, hv⟩ := Option.isSome_iff_exists.1 hint
      obtain ⟨text, hget, hread⟩ := Option.bind_eq_some_iff.1 hv
      exact ⟨v, .integer hget hread⟩

/-- A run over cells whose worths are within the bound ends. -/
theorem evaluateCells_eq_ok (ps : List Position) (t : Tally) (h : w.Settles g done)
    (hps : ∀ p ∈ ps, ∃ v, g.CellWorthIn w.settings.maxDepth p v) :
    ∃ t', (evaluateCells ps t w).1 = .ok t' := by
  induction ps generalizing t w done with
  | nil => exact ⟨t, rfl⟩
  | cons p ps ih =>
      have hdeals := w.evaluateCell_deals p t
      obtain ⟨v, hv⟩ := hps p (List.mem_cons_self ..)
      obtain ⟨t₁, ht₁⟩ := hdeals.eq_ok h.backs (h.settled.cellWorthIn hv)
      rcases hstep : w.evaluateCell p t with ⟨e | t', w'⟩
      · rw [hstep] at ht₁
        cases ht₁
      · rw [hstep] at hdeals
        obtain ⟨qs, -, hw', -⟩ := hdeals.settles h
        have hsettings : w'.settings = w.settings := hdeals.settings
        rw [evaluateCells_cons_of_ok hstep]
        refine ih t' hw' fun q hq => ?_
        rw [hsettings]
        exact hps q (List.mem_cons_of_mem p hq)

end Run

/-! ### A pass -/

theorem settles_new (g : Grid) (s : Settings) : (new g s).Settles g [] :=
  ⟨.refl g, g.backs_empty⟩

/-- A pass that ends has put the worths of the formulas in their places, and every data cell is
worth something. -/
theorem worths_of_evaluateAll {g : Grid} {s : Settings} {t : Tally} {w : Worksheet}
    (hrun : (new g s).evaluateAll = (.ok t, w)) :
    g.Settled g.dataPositions w.grid ∧ ∀ p ∈ g.dataPositions, ∃ v, g.CellWorth p v := by
  refine ⟨((settles_new g s).of_run hrun).settled, fun p hp => ?_⟩
  have hnodup : ([] ++ g.dataPositions).Nodup := g.nodup_dataPositions
  exact exists_worth_of_run (settles_new g s) hnodup hrun hp (Grid.mem_dataPositions.1 hp).2.2

/-- If all data cells are worth something and the bound allows for all formulas, the pass ends. -/
theorem exists_evaluateAll {g : Grid} {s : Settings}
    (hworth : ∀ p ∈ g.dataPositions, ∃ v, g.CellWorth p v)
    (hdepth : g.formulaPositions.length ≤ s.maxDepth) :
    ∃ t w, (new g s).evaluateAll = (.ok t, w) := by
  obtain ⟨t, ht⟩ := evaluateCells_eq_ok g.dataPositions {} (settles_new g s) fun p hp => by
    obtain ⟨v, hv⟩ := hworth p hp
    exact ⟨v, (hv.cellWorthIn_length hp).mono hdepth⟩
  exact ⟨t, _, Prod.ext ht rfl⟩

/-- **What a pass does, and when it ends.**  If it ends, the formula of every data cell has given
way to its worth in the grid at the start, nothing else has changed, and the tally has counted
each data cell once.  It ends if all data cells are worth something and the bound allows for as
many nested formulas as there are formula cells. -/
theorem evaluateAll_settles (g : Grid) (s : Settings) :
    (∀ t w, (new g s).evaluateAll = (.ok t, w) →
      g.Settled g.dataPositions w.grid ∧ t.formulas = g.formulaPositions.length ∧
        t.integers = g.dataPositions.countP g.holdsInteger ∧
        t.integers + t.formulas = g.dataPositions.length) ∧
    ((∀ p ∈ g.dataPositions, ∃ v, g.CellWorth p v) →
      g.formulaPositions.length ≤ s.maxDepth →
      ∃ t w, (new g s).evaluateAll = (.ok t, w)) := by
  constructor
  · intro t w hrun
    have hok : (evaluateCells g.dataPositions {} (new g s)).1 = .ok t := congrArg Prod.fst hrun
    obtain ⟨qs, -, hsettles, hqs⟩ :=
      evaluateCells_settles g.dataPositions {} (settles_new g s)
    obtain rfl := hqs t hok
    obtain ⟨hints, hforms, hone⟩ := evaluateCells_counts g.dataPositions {} (settles_new g s)
      (by simpa using g.nodup_dataPositions) hok
    have hgrid : (evaluateCells g.dataPositions {} (new g s)).2.grid = w.grid :=
      congrArg (fun o => o.2.grid) hrun
    -- a pass that ends has met no third kind of cell
    have hsplit := g.dataPositions.length_eq_countP_add_countP g.holdsFormula
    have hother : g.dataPositions.countP g.holdsInteger =
        g.dataPositions.countP fun p => decide ¬ g.holdsFormula p = true := by
      refine List.countP_congr fun p hp => ?_
      rw [hone p hp (Grid.mem_dataPositions.1 hp).2.2]
      simp
    rw [Grid.formulaPositions, ← List.countP_eq_length_filter]
    refine ⟨?_, by simpa using hforms, by simpa using hints, ?_⟩
    · simpa [hgrid] using hsettles.settled
    · simp only [Nat.zero_add] at hints hforms
      omega
  · intro hworth hdepth
    obtain ⟨t, ht⟩ := evaluateCells_eq_ok g.dataPositions {} (settles_new g s) fun p hp => by
      obtain ⟨v, hv⟩ := hworth p hp
      exact ⟨v, (hv.cellWorthIn_length hp).mono hdepth⟩
    exact ⟨t, _, Prod.ext ht rfl⟩

/-- The formula of `A1` refers to a cell that comes after it.  A pass under the usual bound ends;
so both cells are worth something, and a bound of two is enough. -/
theorem evaluateAll_settles_forward :
    ∃ g, Grid.ofLines [",A,B", "1,=B1+1,=2*3"] = .ok g ∧
      ∃ t w, (new g { maxDepth := 2 }).evaluateAll = (.ok t, w) ∧ t.formulas = 2 := by
  have hfacts : ((Grid.ofLines [",A,B", "1,=B1+1,=2*3"]).toOption.map fun g =>
      (g.formulaPositions.length, g.dataPositions.all g.holdsFormula,
        (new g {}).evaluateAll.1.isOk)) = some (2, true, true) := by
    decide +kernel
  rcases hg : Grid.ofLines [",A,B", "1,=B1+1,=2*3"] with e | g
  · rw [hg] at hfacts
    cases hfacts
  · rw [hg] at hfacts
    obtain ⟨hlength, hall, hok⟩ : g.formulaPositions.length = 2 ∧
        g.dataPositions.all g.holdsFormula = true ∧ (new g {}).evaluateAll.1.isOk = true := by
      simpa [Except.toOption] using hfacts
    rcases hrun : (new g {}).evaluateAll with ⟨e | t, w⟩
    · rw [hrun] at hok
      cases hok
    · obtain ⟨hsettled, -⟩ := (evaluateAll_settles g {}).1 t w hrun
      have hworth : ∀ p ∈ g.dataPositions, ∃ v, g.CellWorth p v := by
        intro p hp
        obtain ⟨v, hv, -⟩ := hsettled.formula p hp (List.all_eq_true.1 hall p hp)
        exact ⟨v, hv⟩
      obtain ⟨t', w', hrun'⟩ :=
        (evaluateAll_settles g { maxDepth := 2 }).2 hworth (le_of_eq hlength)
      refine ⟨g, rfl, t', w', hrun', ?_⟩
      rw [((evaluateAll_settles g { maxDepth := 2 }).1 t' w' hrun').2.1, hlength]

end Worksheet

end FormulaGrid
