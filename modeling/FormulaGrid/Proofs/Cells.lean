/-
Cells: which positions hold data, and what kind of text stands there.

Main definitions:

* `Grid.holdsFormula`, `Grid.holdsInteger` — the two kinds of cells that a pass accepts;
* `Grid.formulaPositions` — the data cells that hold a formula text;
* `Position.Before`, `Grid.cellsBefore` — the order in which data cells are listed;
* `Grid.Refers` — an operand is the name of a cell, and the cell holds a text.

Main results:

* `Formula.read?_eq_none_of_isFormulaText` — a text that starts with `=` is no integer;
* `Formula.text_of_parse` — a formula cell holds `=` and the text of its formula;
* `Grid.mem_dataPositions`, `Grid.nodup_dataPositions` — the data cells are the cells of the grid
  outside the row and the column of labels, each listed once;
* `Grid.cellsBefore_eq` — what is listed in front of a data cell are the cells before it;
* `Grid.Refers.mem_dataPositions` — a name stands for a data cell.
-/

import FormulaGrid.Formula
import FormulaGrid.Grid
import Mathlib.Data.List.Nodup

set_option relaxedAutoImplicit false
set_option autoImplicit false

namespace FormulaGrid

/-! ### Formula texts and integer texts -/

namespace Formula

theorem isFormulaText_iff {text : String} :
    isFormulaText text = true ↔ ∃ body, text.toList = '=' :: body := by
  unfold isFormulaText
  cases h : text.toList with
  | nil => simp
  | cons c body => simp

/-- A text that starts with `=` is no integer. -/
theorem read?_eq_none_of_isFormulaText {text : String} (h : isFormulaText text = true) :
    Value.read? text = none := by
  obtain ⟨body, hbody⟩ := isFormulaText_iff.1 h
  -- neither a sign nor a digit
  have hdigits : Text.digits? ('=' :: body) = none := by
    rw [Text.digits?, if_neg]
    rintro ⟨-, hall⟩
    exact absurd (List.all_eq_true.1 hall '=' (List.mem_cons_self ..)) (by decide)
  rw [Value.read?, hbody, Text.integer?, hdigits]
  · rfl
  · rintro cs ⟨⟩
  · rintro cs ⟨⟩

theorem isFormulaText_of_parse {text : String} {f : Formula} (h : parse text = .ok f) :
    isFormulaText text = true := by
  rw [isFormulaText_iff]
  unfold parse at h
  split at h
  · next body hbody => exact ⟨body, hbody⟩
  · cases h

theorem read?_eq_none_of_parse {text : String} {f : Formula} (h : parse text = .ok f) :
    Value.read? text = none :=
  read?_eq_none_of_isFormulaText (isFormulaText_of_parse h)

/-- A text that is cut consists of the two parts and of the symbol between them. -/
theorem eq_append_of_cut? {body left right : List Char} {op : Operation}
    (h : cut? body = some (left, op, right)) : body = left ++ op.symbol :: right := by
  unfold cut? at h
  split at h
  · cases h
  next c rest hdrop =>
  obtain ⟨op', hop, heq⟩ := Option.map_eq_some_iff.1 h
  cases heq
  rw [← Operation.ofSymbol?_eq_some_iff.1 hop, ← hdrop, List.takeWhile_append_dropWhile]

/-- A formula cell holds `=` and the text of its formula. -/
theorem text_of_parse {text : String} {f : Formula} (h : parse text = .ok f) :
    text = "=" ++ f.text := by
  unfold parse at h
  split at h
  next body hbody =>
    split at h
    · cases h
    split at h
    · cases h
    · cases h
    · cases h
    next left op right _ _ hcut =>
    obtain rfl := Except.ok.inj h
    rw [← String.toList_inj, hbody, eq_append_of_cut? hcut]
    simp [Formula.text]
  · cases h

/-- The text of an integer is no formula text. -/
theorem isFormulaText_of_read? {text : String} {v : Value} (h : Value.read? text = some v) :
    isFormulaText text = false := by
  rw [Bool.eq_false_iff]
  intro htext
  rw [read?_eq_none_of_isFormulaText htext] at h
  cases h

theorem isFormulaText_text (v : Value) : isFormulaText v.text = false :=
  isFormulaText_of_read? (Value.read?_text v)

end Formula

/-! ### Rows and columns in order -/

namespace Position

/-- The position comes before the other one: in a row above, or further left in the same row. -/
def Before (p q : Position) : Prop := p.row < q.row ∨ p.row = q.row ∧ p.col < q.col

instance (p q : Position) : Decidable (p.Before q) := inferInstanceAs (Decidable (_ ∨ _))

variable {p q : Position}

theorem Before.ne (h : p.Before q) : p ≠ q := by
  rintro rfl
  rcases h with hrow | ⟨-, hcol⟩ <;> omega

theorem Before.not_before (h : p.Before q) : ¬ q.Before p := by
  rintro (hrow' | ⟨hrow', hcol'⟩) <;> rcases h with hrow | ⟨hrow, hcol⟩ <;> omega

end Position

namespace Grid

/-! ### Data cells -/

theorem get?_isSome_iff {g : Grid} {p : Position} :
    (g.get? p).isSome = true ↔ p.row < g.rows.size ∧ p.col < g.width p.row := by
  unfold get? width
  by_cases h : p.row < g.rows.size
  · simp [h]
  · simp [h]

/-- The data cells are the cells of the grid outside the row and the column of labels. -/
theorem mem_dataPositions {g : Grid} {p : Position} :
    p ∈ g.dataPositions ↔ p.row ≠ 0 ∧ p.col ≠ 0 ∧ (g.get? p).isSome = true := by
  rw [get?_isSome_iff]
  obtain ⟨row, col⟩ := p
  simp only [dataPositions, List.mem_flatMap, List.mem_map, List.mem_range'_1, Position.mk.injEq]
  constructor
  · rintro ⟨r, hr, c, hc, rfl, rfl⟩
    omega
  · rintro ⟨hr, hc, hrow, hcol⟩
    exact ⟨row, by omega, col, by omega, rfl, rfl⟩

/-- The data cells are listed row by row, and within a row by column. -/
theorem pairwise_dataPositions (g : Grid) : g.dataPositions.Pairwise Position.Before := by
  rw [dataPositions, List.pairwise_flatMap]
  constructor
  · intro row _
    rw [List.pairwise_map]
    exact (List.pairwise_lt_range' 1).imp fun hlt => .inr ⟨rfl, hlt⟩
  · refine (List.pairwise_lt_range' 1).imp fun hlt p hp q hq => ?_
    obtain ⟨_, -, rfl⟩ := List.mem_map.1 hp
    obtain ⟨_, -, rfl⟩ := List.mem_map.1 hq
    exact .inl hlt

/-- Each data cell is listed once. -/
theorem nodup_dataPositions (g : Grid) : g.dataPositions.Nodup :=
  g.pairwise_dataPositions.imp Position.Before.ne

/-- The data cells before a position. -/
def cellsBefore (g : Grid) (p : Position) : List Position :=
  g.dataPositions.filter fun q => q.Before p

theorem mem_cellsBefore {g : Grid} {p q : Position} :
    q ∈ g.cellsBefore p ↔ q ∈ g.dataPositions ∧ q.Before p := by
  rw [cellsBefore, List.mem_filter, decide_eq_true_iff]

/-- What is listed in front of a data cell are the cells before it. -/
theorem cellsBefore_eq {g : Grid} {p : Position} {ps qs : List Position}
    (h : g.dataPositions = ps ++ p :: qs) : g.cellsBefore p = ps := by
  have hpairwise := g.pairwise_dataPositions
  rw [h, List.pairwise_append, List.pairwise_cons] at hpairwise
  obtain ⟨-, ⟨hafter, -⟩, hbefore⟩ := hpairwise
  have hps : ps.filter (fun q => q.Before p) = ps := by
    refine List.filter_eq_self.2 fun q hq => decide_eq_true ?_
    exact hbefore q hq p (List.mem_cons_self ..)
  have hqs : (p :: qs).filter (fun q => q.Before p) = [] := by
    refine List.filter_eq_nil_iff.2 fun q hq hlt => ?_
    have hlt := of_decide_eq_true hlt
    rcases List.mem_cons.1 hq with rfl | hq
    · exact hlt.ne rfl
    · exact hlt.not_before (hafter q hq)
  rw [cellsBefore, h, List.filter_append, hps, hqs, List.append_nil]

/-- The cell holds a text that is meant as a formula. -/
def holdsFormula (g : Grid) (p : Position) : Bool := (g.get? p).any Formula.isFormulaText

/-- The cell holds an integer in range. -/
def holdsInteger (g : Grid) (p : Position) : Bool := ((g.get? p).bind Value.read?).isSome

/-- The data cells that hold a formula text. -/
def formulaPositions (g : Grid) : List Position := g.dataPositions.filter g.holdsFormula

theorem holdsFormula_iff {g : Grid} {p : Position} :
    g.holdsFormula p = true ↔ ∃ text, g.get? p = some text ∧ Formula.isFormulaText text = true := by
  rw [holdsFormula, Option.any_eq_true]

theorem holdsFormula_of_get? {g : Grid} {p : Position} {text : String}
    (h : g.get? p = some text) : g.holdsFormula p = Formula.isFormulaText text := by
  rw [holdsFormula, h, Option.any_some]

theorem mem_formulaPositions_of_parse {g : Grid} {p : Position} {text : String} {f : Formula}
    (hp : p ∈ g.dataPositions) (hget : g.get? p = some text) (hparse : Formula.parse text = .ok f) :
    p ∈ g.formulaPositions := by
  refine List.mem_filter.2 ⟨hp, ?_⟩
  rw [holdsFormula_of_get? hget]
  exact Formula.isFormulaText_of_parse hparse

theorem holdsInteger_of_get? {g : Grid} {p : Position} {text : String}
    (h : g.get? p = some text) : g.holdsInteger p = (Value.read? text).isSome := by
  rw [holdsInteger, h, Option.bind_some]

/-! ### Operands that are names -/

/-- The operand is no integer but the name of the cell `p`, and that cell holds `text`. -/
def Refers (g : Grid) (operand : String) (p : Position) (text : String) : Prop :=
  Value.read? operand = none ∧ g.lookUp operand = .ok (p, text)

theorem lookUp_eq_ok_iff {g : Grid} {name : String} {p : Position} {text : String} :
    g.lookUp name = .ok (p, text) ↔ g.find name = .ok p ∧ g.get? p = some text := by
  unfold lookUp
  cases hfind : g.find name with
  | error e => simp
  | ok q =>
      dsimp only
      cases hget : g.get? q with
      | none =>
          simp only [Except.ok.injEq, reduceCtorEq, false_iff, not_and]
          rintro rfl
          simp [hget]
      | some t =>
          simp only [Except.ok.injEq, Prod.mk.injEq]
          constructor
          · rintro ⟨rfl, rfl⟩
            exact ⟨rfl, hget⟩
          · rintro ⟨rfl, ht⟩
            rw [hget] at ht
            exact ⟨rfl, Option.some.inj ht⟩

/-- No name is found in the row or in the column of labels. -/
theorem ne_zero_of_find {g : Grid} {name : String} {p : Position} (h : g.find name = .ok p) :
    p.row ≠ 0 ∧ p.col ≠ 0 := by
  unfold find at h
  split at h
  · next q hq =>
    cases h
    obtain ⟨count, -, hcut⟩ := List.exists_of_findSome?_eq_some hq
    simp only [cutAt?, dataIndex?, Option.bind_eq_some_iff, Option.map_eq_some_iff,
      Option.filter_eq_some_iff, decide_eq_true_eq] at hcut
    obtain ⟨col, ⟨-, hcol⟩, row, ⟨-, hrow⟩, rfl⟩ := hcut
    exact ⟨hrow, hcol⟩
  · cases h

namespace Refers

variable {g : Grid} {operand : String} {p : Position} {text : String}

theorem get? (h : g.Refers operand p text) : g.get? p = some text :=
  (lookUp_eq_ok_iff.1 h.2).2

/-- A name stands for a data cell. -/
theorem mem_dataPositions (h : g.Refers operand p text) : p ∈ g.dataPositions := by
  obtain ⟨hrow, hcol⟩ := ne_zero_of_find (lookUp_eq_ok_iff.1 h.2).1
  exact Grid.mem_dataPositions.2 ⟨hrow, hcol, by simp [h.get?]⟩

/-- An operand is the name of at most one cell. -/
theorem unique {p' : Position} {text' : String} (h : g.Refers operand p text)
    (h' : g.Refers operand p' text') : p = p' ∧ text = text' := by
  have heq := h.2.symm.trans h'.2
  simpa using heq

end Refers

end Grid

end FormulaGrid
