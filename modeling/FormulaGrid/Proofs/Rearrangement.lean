/-
**The outcome does not depend on where rows and columns stand.**

A rearrangement puts the data rows and the columns of data into another order and leaves the row
and the column of labels in their places.  Rearranged lines make the rearranged grid, with every
label in the index of its new place, if no two rows have one label: of two such rows the last one
has the label, and that depends on the order.  In the rearranged grid every name stands for the
cell that it stood for, at its new place, and so a pass comes to the rearranged outcome.

Main definitions:

* `permute` — a list in another order;
* `Rearrangement` — an order of the rows and columns of a grid;
* `Rearrangement.lines`, `Rearrangement.grid` — rearranged lines, and a rearranged grid.

Main results:

* `Rearrangement.wellFormed` — a rearranged grid is well formed;
* `Rearrangement.ofLines_lines` — **rearranged lines make the rearranged grid**;
* `Rearrangement.evaluateLines_lines` — **rearranged lines evaluate to the rearranged outcome**.
-/

import FormulaGrid.Proofs.Moving
import FormulaGrid.Proofs.Names
import FormulaGrid.Worksheet.Storage
import Mathlib.Logic.Equiv.Basic

set_option relaxedAutoImplicit false
set_option autoImplicit false

namespace FormulaGrid

/-! ### Lists in another order -/

/-- The list in another order: at place `i` stands what stood at place `σ i`. -/
def permute {α : Type} (σ : Equiv.Perm Nat) (xs : List α) : List α :=
  (List.range xs.length).filterMap fun i => xs[σ i]?

section Permute

variable {α β : Type} {σ : Equiv.Perm Nat} {xs : List α}

theorem getElem?_filterMap {f : Nat → Option α} {l : List Nat} (h : ∀ i ∈ l, (f i).isSome = true)
    (k : Nat) : (l.filterMap f)[k]? = l[k]?.bind f := by
  induction l generalizing k with
  | nil => rfl
  | cons i l ih =>
      obtain ⟨a, ha⟩ := Option.isSome_iff_exists.1 (h i (List.mem_cons_self ..))
      rw [List.filterMap_cons_some ha]
      cases k with
      | zero => simp [ha]
      | succ k => simpa using ih (fun j hj => h j (List.mem_cons_of_mem _ hj)) k

/-- What moves nothing from `n` on moves nothing from below `n` beyond. -/
theorem lt_of_fixes {n : Nat} (h : ∀ i, n ≤ i → σ i = i) {i : Nat} (hi : i < n) : σ i < n := by
  by_contra hle
  have hfixed := σ.injective (h (σ i) (Nat.not_lt.1 hle))
  omega

theorem isSome_of_fixes (h : ∀ i, xs.length ≤ i → σ i = i) :
    ∀ i ∈ List.range xs.length, (xs[σ i]?).isSome = true := by
  intro i hi
  simpa using lt_of_fixes h (List.mem_range.1 hi)

theorem getElem?_permute (h : ∀ i, xs.length ≤ i → σ i = i) (i : Nat) :
    (permute σ xs)[i]? = xs[σ i]? := by
  rw [permute, getElem?_filterMap (isSome_of_fixes h)]
  by_cases hi : i < xs.length
  · simp [hi]
  · have hle := Nat.not_lt.1 hi
    rw [h i hle]
    simp [hle]

theorem length_permute (h : ∀ i, xs.length ≤ i → σ i = i) :
    (permute σ xs).length = xs.length := by
  rw [permute, List.filterMap_length_eq_length.2 (isSome_of_fixes h), List.length_range]

theorem map_permute (f : α → β) : (permute σ xs).map f = permute σ (xs.map f) := by
  simp [permute, List.map_filterMap]

theorem mem_of_mem_permute {x : α} (hx : x ∈ permute σ xs) : x ∈ xs := by
  obtain ⟨i, -, hi⟩ := List.mem_filterMap.1 hx
  exact List.mem_of_getElem? hi

theorem permute_ne_nil (hzero : σ 0 = 0) (hne : xs ≠ []) : permute σ xs ≠ [] := by
  cases xs with
  | nil => exact absurd rfl hne
  | cons x xs =>
      have hx : x ∈ permute σ (x :: xs) :=
        List.mem_filterMap.2 ⟨0, by simp, by rw [hzero]; rfl⟩
      exact List.ne_nil_of_mem hx

end Permute

/-! ### Rearrangements -/

/-- An order of the rows and columns of a grid with so many of them: at row `i` stands what stood
at row `row i`, and so for the columns.  The row and the column of labels stay. -/
structure Rearrangement (height width : Nat) where
  row : Equiv.Perm Nat
  col : Equiv.Perm Nat
  row_zero : row 0 = 0
  col_zero : col 0 = 0
  row_of_le : ∀ i, height ≤ i → row i = i
  col_of_le : ∀ i, width ≤ i → col i = i

/-- The grid has so many rows, and in each of them so many cells. -/
structure Grid.HasSize (g : Grid) (height width : Nat) : Prop where
  rows : g.rows.size = height
  width : ∀ row < height, g.width row = width

theorem Grid.WellFormed.hasSize {g : Grid} (h : g.WellFormed) :
    g.HasSize g.rows.size (g.width 0) :=
  ⟨rfl, h.width⟩

theorem Grid.HasSize.of_settled {g g' : Grid} {height width : Nat} (h : g.HasSize height width)
    {done : List Position} (hs : g.Settled done g') : g'.HasSize height width :=
  ⟨hs.size_rows.trans h.rows, fun row hrow => (hs.width row).trans (h.width row hrow)⟩

/-- Grids with the same cells and the same indexes are the same. -/
theorem Grid.eq_of_get?_eq {g g' : Grid} (hsize : g.rows.size = g'.rows.size)
    (hget : ∀ p, g.get? p = g'.get? p) (hcolumn : g.columnOf = g'.columnOf)
    (hrow : g.rowOf = g'.rowOf) : g = g' := by
  have hrows : g.rows = g'.rows := by
    refine Array.ext hsize fun i hi hi' => Array.ext_getElem? fun j => ?_
    simpa [get?, hi, hi'] using hget ⟨i, j⟩
  obtain ⟨rows, columnOf, rowOf⟩ := g
  obtain ⟨rows', columnOf', rowOf'⟩ := g'
  obtain rfl : rows = rows' := hrows
  obtain rfl : columnOf = columnOf' := hcolumn
  obtain rfl : rowOf = rowOf' := hrow
  rfl

namespace Rearrangement

variable {height width : Nat} (ρ : Rearrangement height width)

/-- Where the cell at a position stood. -/
def position : Equiv.Perm Position where
  toFun p := ⟨ρ.row p.row, ρ.col p.col⟩
  invFun p := ⟨ρ.row.symm p.row, ρ.col.symm p.col⟩
  left_inv p := by simp
  right_inv p := by simp

/-- The lines with their order changed, and the fields of each line in the new order of the
columns. -/
def lines (ls : List String) : List String :=
  (permute ρ.row ls).map fun line => Text.joinFields (permute ρ.col (Text.fields line))

/-- The grid with its rows and columns in the new order, and the indexes with the new numbers. -/
def grid (g : Grid) : Grid where
  rows := ((permute ρ.row g.rows.toList).map fun row => (permute ρ.col row.toList).toArray).toArray
  columnOf := g.columnOf.map fun _ col => ρ.col.symm col
  rowOf := g.rowOf.map fun _ row => ρ.row.symm row

theorem row_ne_zero_iff {i : Nat} : ρ.row i ≠ 0 ↔ i ≠ 0 := by
  have hinj := ρ.row.injective.ne_iff (x := i) (y := 0)
  rwa [ρ.row_zero] at hinj

theorem col_ne_zero_iff {i : Nat} : ρ.col i ≠ 0 ↔ i ≠ 0 := by
  have hinj := ρ.col.injective.ne_iff (x := i) (y := 0)
  rwa [ρ.col_zero] at hinj

/-! ### Cells -/

section Cells

variable {ρ} {g : Grid} (h : g.HasSize height width)

include h

theorem row_fixes : ∀ i, g.rows.toList.length ≤ i → ρ.row i = i := by
  simpa [h.rows] using ρ.row_of_le

theorem col_fixes {i : Nat} {row : Array String} (hrow : g.rows[i]? = some row) :
    ∀ j, row.toList.length ≤ j → ρ.col j = j := by
  have hlt := (Array.getElem?_eq_some_iff.1 hrow).1
  have hwidth : row.size = width := by
    simpa [Grid.width, hrow] using h.width i (h.rows ▸ hlt)
  simpa [hwidth] using ρ.col_of_le

theorem getElem?_rows_grid (i : Nat) : (ρ.grid g).rows[i]? =
    (g.rows[ρ.row i]?).map fun row => (permute ρ.col row.toList).toArray := by
  simp [grid, getElem?_permute (row_fixes h)]

theorem size_rows_grid : (ρ.grid g).rows.size = g.rows.size := by
  simp [grid, length_permute (row_fixes h)]

/-- At each position stands what stood where the rearrangement says. -/
theorem get?_grid (p : Position) : (ρ.grid g).get? p = g.get? (ρ.position p) := by
  change ((ρ.grid g).rows[p.row]?).bind (·[p.col]?) = (g.rows[ρ.row p.row]?).bind (·[ρ.col p.col]?)
  rw [getElem?_rows_grid h]
  cases hrow : g.rows[ρ.row p.row]? with
  | none => rfl
  | some row => simp [getElem?_permute (col_fixes h hrow)]

theorem width_grid (i : Nat) : (ρ.grid g).width i = g.width (ρ.row i) := by
  rw [Grid.width, Grid.width, getElem?_rows_grid h]
  cases hrow : g.rows[ρ.row i]? with
  | none => rfl
  | some row => simp [length_permute (col_fixes h hrow)]

end Cells

/-! ### Names -/

theorem dataIndex?_map {σ : Equiv.Perm Nat} (hzero : σ 0 = 0) (labels : Labels) (label : String) :
    Grid.dataIndex? (labels.map fun _ n => σ.symm n) label =
      (Grid.dataIndex? labels label).map σ.symm := by
  have hsymm : ∀ n, σ.symm n = 0 ↔ n = 0 := by
    intro n
    rw [σ.symm_apply_eq, hzero]
  rw [Grid.dataIndex?, Grid.dataIndex?, Std.ExtTreeMap.getElem?_map]
  cases labels[label]? with
  | none => rfl
  | some n => by_cases hn : n = 0 <;> simp [Option.filter, hn, hsymm]

theorem cutAt?_grid (g : Grid) (name : List Char) (i : Nat) :
    (ρ.grid g).cutAt? name i = (g.cutAt? name i).map ρ.position.symm := by
  simp only [Grid.cutAt?, grid, dataIndex?_map ρ.col_zero, dataIndex?_map ρ.row_zero]
  cases Grid.dataIndex? g.columnOf (String.ofList (name.take i)) with
  | none => rfl
  | some col => cases Grid.dataIndex? g.rowOf (String.ofList (name.drop i)) <;> rfl

/-- A name stands for the cell that it stood for, at its new place. -/
theorem find_grid (g : Grid) (name : String) (p : Position) :
    (ρ.grid g).find name = .ok p ↔ g.find name = .ok (ρ.position p) := by
  rw [Grid.find_eq_ok_iff, Grid.find_eq_ok_iff]
  simp only [ρ.cutAt?_grid, Option.map_eq_some_iff, Option.map_eq_none_iff,
    Equiv.symm_apply_eq, exists_eq_right]

theorem moves {g : Grid} (h : g.HasSize height width) : g.Moves ρ.position (ρ.grid g) where
  get? := get?_grid h
  find := ρ.find_grid g
  data p := by
    rw [Grid.mem_dataPositions, Grid.mem_dataPositions, get?_grid h]
    exact and_congr ρ.row_ne_zero_iff.symm (and_congr ρ.col_ne_zero_iff.symm Iff.rfl)

/-! ### Well formed grids -/

/-- A rearranged grid is well formed, if no two of its rows have one label. -/
theorem wellFormed {g : Grid} (hg : g.WellFormed) (h : g.HasSize height width)
    (hlabels : ∀ i j label, i ≠ 0 → j ≠ 0 → g.get? ⟨i, 0⟩ = some label →
      g.get? ⟨j, 0⟩ = some label → i = j) : (ρ.grid g).WellFormed := by
  have hcolumn : ∀ col, (ρ.grid g).get? ⟨0, col⟩ = g.get? ⟨0, ρ.col col⟩ := by
    intro col
    rw [get?_grid h, position, Equiv.coe_fn_mk, ρ.row_zero]
  have hrow : ∀ row, (ρ.grid g).get? ⟨row, 0⟩ = g.get? ⟨ρ.row row, 0⟩ := by
    intro row
    rw [get?_grid h, position, Equiv.coe_fn_mk, ρ.col_zero]
  constructor
  case hasHeader => rw [size_rows_grid h]; exact hg.hasHeader
  case width =>
    intro row hlt
    rw [size_rows_grid h, h.rows] at hlt
    have hlt' := lt_of_fixes ρ.row_of_le hlt
    rw [width_grid h, width_grid h, ρ.row_zero]
    exact hg.width _ (h.rows ▸ hlt')
  case columnLabel =>
    intro col label hcol hlabel
    exact hg.columnLabel (ρ.col col) label (ρ.col_ne_zero_iff.2 hcol)
      ((hcolumn col).symm.trans hlabel)
  case rowLabel =>
    intro row label hrow' hlabel
    exact hg.rowLabel (ρ.row row) label (ρ.row_ne_zero_iff.2 hrow')
      ((hrow row).symm.trans hlabel)
  case notEmpty =>
    intro p text hp htext
    exact hg.notEmpty (ρ.position p) text (ρ.row_ne_zero_iff.2 hp)
      ((get?_grid h p).symm.trans htext)
  case columnOf =>
    intro label col
    rw [hcolumn, ← ρ.col_ne_zero_iff, ← hg.columnOf]
    simp [grid, Equiv.symm_apply_eq]
  case rowOf =>
    intro label row
    have hindex : (ρ.grid g).rowOf[label]? = some row ↔ g.rowOf[label]? = some (ρ.row row) := by
      simp [grid, Equiv.symm_apply_eq]
    rw [hindex, hg.rowOf, hrow, ρ.row_ne_zero_iff]
    refine and_congr_right fun hne => and_congr_right fun hlabel => ?_
    -- the label stands in no other row, before or behind
    have hother : ∀ i, i ≠ 0 → i ≠ ρ.row row → g.get? ⟨i, 0⟩ ≠ some label :=
      fun i hi hother hlabel' =>
        hother (hlabels i _ label hi (ρ.row_ne_zero_iff.2 hne) hlabel' hlabel)
    constructor
    · intro _ later hlater
      rw [hrow]
      exact hother _ (ρ.row_ne_zero_iff.2 (by omega)) (ρ.row.injective.ne (by omega))
    · intro _ later hlater
      exact hother later (by omega) (by omega)

/-! ### Lines -/

theorem fields_joinFields_permute {line : String} :
    Text.fields (Text.joinFields (permute ρ.col (Text.fields line))) =
      permute ρ.col (Text.fields line) :=
  Text.fields_joinFields (permute_ne_nil ρ.col_zero (Text.fields_ne_nil line)) fun _ hf =>
    Text.comma_not_mem_of_mem_fields (mem_of_mem_permute hf)

theorem table_lines {ls : List String} {g : Grid} (hrows : g.rows = Grid.table ls) :
    Grid.table (ρ.lines ls) = (ρ.grid g).rows := by
  simp [Grid.table, lines, grid, hrows, ← map_permute, fields_joinFields_permute,
    Function.comp_def]

/-- Different labels in the lines are different labels in the grid. -/
theorem row_inj_of_nodup {ls : List String} {g : Grid} (hrows : g.rows = Grid.table ls)
    (hlabels : (ls.tail.map fun line => (Text.fields line).head?).Nodup) {i j : Nat}
    {label : String} (hi : i ≠ 0) (hj : j ≠ 0) (hlabel : g.get? ⟨i, 0⟩ = some label)
    (hlabel' : g.get? ⟨j, 0⟩ = some label) : i = j := by
  have hentry : ∀ k, g.get? ⟨k + 1, 0⟩ = some label →
      (ls.tail.map fun line => (Text.fields line).head?)[k]? = some (some label) := by
    intro k hk
    rw [Grid.get?_of_rows_eq hrows] at hk
    obtain ⟨line, hline, hfirst⟩ := Option.bind_eq_some_iff.1 hk
    simp [hline, List.head?_eq_getElem?, hfirst]
  obtain ⟨k, rfl⟩ : ∃ k, i = k + 1 := ⟨i - 1, by omega⟩
  obtain ⟨m, rfl⟩ : ∃ m, j = m + 1 := ⟨j - 1, by omega⟩
  have hk := hentry k hlabel
  have hlt := (List.getElem?_eq_some_iff.1 hk).1
  rw [(List.getElem?_inj hlt hlabels).1 (hk.trans (hentry m hlabel').symm)]

/-- **Rearranged lines make the rearranged grid**, if no two of the data rows have one label. -/
theorem ofLines_lines {ls : List String} {g : Grid} (hload : Grid.ofLines ls = .ok g)
    (ρ : Rearrangement g.rows.size (g.width 0))
    (hlabels : (ls.tail.map fun line => (Text.fields line).head?).Nodup) :
    Grid.ofLines (ρ.lines ls) = .ok (ρ.grid g) := by
  obtain ⟨hg, hrows⟩ := Grid.ofLines_eq_ok_iff.1 hload
  refine Grid.ofLines_eq_ok_iff.2 ⟨ρ.wellFormed hg hg.hasSize ?_, (ρ.table_lines hrows).symm⟩
  exact fun i j label hi hj => row_inj_of_nodup hrows hlabels hi hj

/-! ### Outcomes -/

/-- **Rearranged lines evaluate to the rearranged outcome**, if no two of the data rows have one
label and the bound allows for all formulas. -/
theorem evaluateLines_lines {ls : List String} {g : Grid} (hload : Grid.ofLines ls = .ok g)
    (ρ : Rearrangement g.rows.size (g.width 0))
    (hlabels : (ls.tail.map fun line => (Text.fields line).head?).Nodup) {s : Settings}
    (hdepth : g.formulaPositions.length ≤ s.maxDepth) {g₁ : Grid}
    (hrun : evaluateLines ls s = .ok g₁) : evaluateLines (ρ.lines ls) s = .ok (ρ.grid g₁) := by
  obtain ⟨g', t, w, hload', hrun, rfl⟩ := evaluateLines_eq_ok_iff.1 hrun
  obtain rfl := Except.ok.inj (hload.symm.trans hload')
  obtain ⟨hg, -⟩ := Grid.ofLines_eq_ok_iff.1 hload
  have hsettled := (Worksheet.worths_of_evaluateAll hrun).1
  obtain ⟨t', w', hrun', hsettled', hmoves⟩ :=
    Worksheet.evaluateAll_moves (ρ.moves hg.hasSize) hdepth hrun
  refine evaluateLines_eq_ok_iff.2 ⟨ρ.grid g, t', w', ofLines_lines hload ρ hlabels, hrun', ?_⟩
  have hsize := hg.hasSize.of_settled hsettled
  refine Grid.eq_of_get?_eq ?_ (fun p => (hmoves.get? p).trans (get?_grid hsize p).symm) ?_ ?_
  · rw [hsettled'.size_rows, size_rows_grid hg.hasSize, size_rows_grid hsize, hsettled.size_rows]
  · rw [hsettled'.columnOf, grid, grid, hsettled.columnOf]
  · rw [hsettled'.rowOf, grid, grid, hsettled.rowOf]

/-- The first two data rows change places, and so do the first two columns. -/
def exchange (hheight : 3 ≤ height) (hwidth : 3 ≤ width) : Rearrangement height width where
  row := Equiv.swap 1 2
  col := Equiv.swap 1 2
  row_zero := by decide
  col_zero := by decide
  row_of_le i hi := Equiv.swap_apply_of_ne_of_ne (by omega) (by omega)
  col_of_le i hi := Equiv.swap_apply_of_ne_of_ne (by omega) (by omega)

/-- The chain of formulas `B2`, `A2`, `A1` goes up the rows, and in the new order down. -/
theorem evaluateLines_exchange :
    ∃ g₁ g₂, evaluateLines [",A,B", "1,=B1+1,5", "2,=A1*2,=A2-1"] { maxDepth := 3 } = .ok g₁ ∧
      g₁.rows = #[#["", "A", "B"], #["1", "6", "5"], #["2", "12", "11"]] ∧
      evaluateLines [",B,A", "2,=A2-1,=A1*2", "1,5,=B1+1"] { maxDepth := 3 } = .ok g₂ ∧
      g₂.rows = #[#["", "B", "A"], #["2", "11", "12"], #["1", "5", "6"]] := by
  have hsize : (Grid.ofLines [",A,B", "1,=B1+1,5", "2,=A1*2,=A2-1"]).toOption.map (fun g =>
      (g.rows.size, g.width 0, g.formulaPositions.length)) = some (3, 3, 3) := by
    decide +kernel
  have hrows : (evaluateLines [",A,B", "1,=B1+1,5", "2,=A1*2,=A2-1"]
      { maxDepth := 3 }).toOption.map Grid.rows =
        some #[#["", "A", "B"], #["1", "6", "5"], #["2", "12", "11"]] := by
    decide +kernel
  rcases hload : Grid.ofLines [",A,B", "1,=B1+1,5", "2,=A1*2,=A2-1"] with e | g
  · rw [hload] at hsize
    cases hsize
  rcases hrun : evaluateLines [",A,B", "1,=B1+1,5", "2,=A1*2,=A2-1"] { maxDepth := 3 } with e | g₁
  · rw [hrun] at hrows
    cases hrows
  rw [hload] at hsize
  rw [hrun] at hrows
  have hrows := Option.some.inj hrows
  obtain ⟨hheight, hwidth, hdepth⟩ : g.rows.size = 3 ∧ g.width 0 = 3 ∧
      g.formulaPositions.length = 3 := by
    simpa [Except.toOption] using hsize
  have hrun' := evaluateLines_lines hload (exchange (Nat.le_of_eq hheight.symm)
    (Nat.le_of_eq hwidth.symm)) (by decide +kernel) (Nat.le_of_eq hdepth) hrun
  refine ⟨g₁, _, rfl, hrows, hrun', ?_⟩
  change ((permute (Equiv.swap 1 2) g₁.rows.toList).map fun row =>
    (permute (Equiv.swap 1 2) row.toList).toArray).toArray = _
  rw [hrows]
  decide +kernel

end Rearrangement

end FormulaGrid
