/-
**Which lines make a grid, and which grid they make.**

Loading checks the header and then row after row, and it fills the two indexes on the way.  Here
the outcome is said without that order.  Lines make a grid exactly if the grid holds their fields
and is well formed: its rows are as long as its header, its labels and cells are of the right kind,
and its indexes hold exactly the labels that stand in it, each for one column, and for the last of
the rows that it labels.

Main definitions:

* `Grid.table` — the rows of fields of some lines;
* `Grid.WellFormed` — a grid that lines can make.

Main results:

* `Grid.WellFormed.eq_of_rows_eq` — a well formed grid is determined by its rows;
* `Grid.ofLines_eq_ok_iff` — **lines make a grid exactly if it holds their fields and is well
  formed**;
* `Grid.WellFormed.of_settled` — a pass keeps the grid well formed.
-/

import FormulaGrid.Layout
import FormulaGrid.Proofs.Settled

set_option relaxedAutoImplicit false
set_option autoImplicit false

namespace FormulaGrid

namespace Grid

/-! ### Well formed grids -/

/-- The rows of fields of some lines. -/
def table (lines : List String) : Array (Array String) :=
  (lines.map fun line => (Text.fields line).toArray).toArray

/-- A label that a column can have: it is not empty and holds no ASCII digit. -/
def IsColumnLabel (label : String) : Prop := label ≠ "" ∧ ∀ c ∈ label.toList, c.isDigit = false

/-- A grid that lines can make. -/
structure WellFormed (g : Grid) : Prop where
  hasHeader : 0 < g.rows.size
  width : ∀ row < g.rows.size, g.width row = g.width 0
  columnLabel : ∀ col label, col ≠ 0 → g.get? ⟨0, col⟩ = some label → IsColumnLabel label
  rowLabel : ∀ row label, row ≠ 0 → g.get? ⟨row, 0⟩ = some label →
    (Value.read? label).isSome = true
  notEmpty : ∀ p text, p.row ≠ 0 → g.get? p = some text → text ≠ ""
  /-- The index of the columns holds the labels of the header. -/
  columnOf : ∀ label col, g.columnOf[label]? = some col ↔
    col ≠ 0 ∧ g.get? ⟨0, col⟩ = some label
  /-- The index of the rows holds the labels of the rows, each with the last row of that label. -/
  rowOf : ∀ label row, g.rowOf[label]? = some row ↔
    row ≠ 0 ∧ g.get? ⟨row, 0⟩ = some label ∧ ∀ later, row < later →
      g.get? ⟨later, 0⟩ ≠ some label

theorem WellFormed.eq_of_rows_eq {g g' : Grid} (h : g.WellFormed) (h' : g'.WellFormed)
    (hrows : g.rows = g'.rows) : g = g' := by
  have hget : g.get? = g'.get? := by
    unfold get?
    rw [hrows]
  have hcolumns : g.columnOf = g'.columnOf := by
    refine Std.ExtTreeMap.ext_getElem? fun label => Option.ext fun col => ?_
    rw [h.columnOf, h'.columnOf, hget]
  have hlabels : g.rowOf = g'.rowOf := by
    refine Std.ExtTreeMap.ext_getElem? fun label => Option.ext fun row => ?_
    rw [h.rowOf, h'.rowOf, hget]
  obtain ⟨rows, columnOf, rowOf⟩ := g
  obtain ⟨rows', columnOf', rowOf'⟩ := g'
  obtain rfl : rows = rows' := hrows
  obtain rfl : columnOf = columnOf' := hcolumns
  obtain rfl : rowOf = rowOf' := hlabels
  rfl

/-! ### The header -/

theorem getElem?_insert_label (index : Labels) (label l : String) (n : Nat) :
    (index.insert label n)[l]? = if label = l then some n else index[l]? := by
  rw [Std.ExtTreeMap.getElem?_insert]
  simp only [Std.LawfulEqCmp.compare_eq_iff_eq]

/-- What indexing the columns checks, and what the index holds then. -/
theorem indexColumns_eq_ok {labels : List String} {col : Nat} {index index' : Labels}
    (h : indexColumns labels col index = .ok index') :
    (∀ label ∈ labels, IsColumnLabel label) ∧
      ∀ l c, index'[l]? = some c ↔
        index[l]? = some c ∨ ∃ k, labels[k]? = some l ∧ c = col + k := by
  induction labels generalizing col index with
  | nil =>
      obtain rfl := Except.ok.inj h
      simp
  | cons label labels ih =>
      simp only [indexColumns] at h
      split at h
      · cases h
      next hempty =>
      split at h
      · cases h
      next hdigit =>
      split at h
      · cases h
      next hnew =>
      obtain ⟨hlabels, hindex⟩ := ih h
      have hlabel : IsColumnLabel label := by
        refine ⟨fun he => hempty (by simp [he]), fun c hc => ?_⟩
        simpa using fun hd => hdigit (List.any_eq_true.2 ⟨c, hc, hd⟩)
      refine ⟨fun l hl => ?_, fun l c => ?_⟩
      · rcases List.mem_cons.1 hl with rfl | hl
        · exact hlabel
        · exact hlabels l hl
      · -- the label itself comes first, and the index did not have it
        have hfirst : (index.insert label col)[l]? = some c ↔
            index[l]? = some c ∨ (label = l ∧ c = col) := by
          rw [getElem?_insert_label]
          split
          · next heq =>
            subst heq
            simp [hnew, eq_comm]
          · next hne => simp [hne]
        rw [hindex, hfirst, or_assoc]
        refine or_congr Iff.rfl ⟨?_, ?_⟩
        · rintro (⟨rfl, rfl⟩ | ⟨k, hk, rfl⟩)
          · exact ⟨0, rfl, rfl⟩
          · exact ⟨k + 1, hk, by omega⟩
        · rintro ⟨k, hk, rfl⟩
          cases k with
          | zero => exact .inl ⟨Option.some.inj hk, rfl⟩
          | succ k => exact .inr ⟨k, hk, by omega⟩

/-- Labels of the right kind, all different and new to the index, are indexed. -/
theorem exists_indexColumns {labels : List String} (hlabels : ∀ label ∈ labels, IsColumnLabel label)
    (hnodup : labels.Nodup) (col : Nat) {index : Labels}
    (hnew : ∀ label ∈ labels, index[label]? = none) :
    ∃ index', indexColumns labels col index = .ok index' := by
  induction labels generalizing col index with
  | nil => exact ⟨index, rfl⟩
  | cons label labels ih =>
      obtain ⟨hne, hdigit⟩ := hlabels label (List.mem_cons_self ..)
      obtain ⟨hfresh, hnodup⟩ := List.nodup_cons.1 hnodup
      have hempty : label.isEmpty = false := by simpa using hne
      have hany : label.toList.any Char.isDigit = false := by simpa using hdigit
      simp only [indexColumns, hempty, hany, hnew label (List.mem_cons_self ..)]
      refine ih (fun l hl => hlabels l (List.mem_cons_of_mem _ hl)) hnodup (col + 1) fun l hl => ?_
      rw [getElem?_insert_label, if_neg fun (heq : label = l) => hfresh (heq ▸ hl)]
      exact hnew l (List.mem_cons_of_mem _ hl)

/-! ### The rows -/

theorem rowLabel_eq_ok_iff {width row : Nat} {fields : List String} {label : String} :
    Grid.rowLabel width row fields = .ok label ↔
      fields.length = width ∧ fields[0]? = some label ∧ (Value.read? label).isSome = true ∧
        ∀ field ∈ fields, field ≠ "" := by
  unfold Grid.rowLabel
  split
  · next hlength => simp [hlength]
  next hlength =>
  have hlength : fields.length = width := by simpa using hlength
  rcases fields with _ | ⟨first, rest⟩
  · simp
  dsimp only
  have hfirst : (first :: rest)[0]? = some label ↔ first = label := by simp
  rw [hfirst]
  split
  · next hempty =>
    have hempty : first = "" := by simpa using hempty
    simp [hempty]
  split
  · next hread =>
    simp only [Option.isNone_iff_eq_none] at hread
    simp only [reduceCtorEq, false_iff]
    rintro ⟨-, rfl, hsome, -⟩
    simp [hread] at hsome
  next hread =>
  have hread : (Value.read? first).isSome = true := by simpa [Option.isSome_iff_ne_none] using hread
  split
  · next col hcol =>
    simp only [reduceCtorEq, false_iff]
    rintro ⟨-, -, -, hall⟩
    obtain ⟨hlt, hempty, -⟩ := List.findIdx?_eq_some_iff_getElem.1 hcol
    exact hall _ (List.getElem_mem hlt) (by simpa using hempty)
  · next hnone =>
    have hall : ∀ field ∈ first :: rest, field ≠ "" := by
      intro field hfield hempty
      simpa [hempty] using List.findIdx?_eq_none_iff.1 hnone field hfield
    constructor
    · intro h
      obtain rfl := Except.ok.inj h
      exact ⟨hlength, rfl, hread, hall⟩
    · rintro ⟨-, rfl, -, -⟩
      rfl

theorem get?_addRow (g : Grid) (fields : List String) (p : Position) :
    (g.addRow fields).get? p = if p.row = g.rows.size then fields[p.col]? else g.get? p := by
  simp only [get?, addRow, Array.getElem?_push]
  split <;> simp

theorem width_addRow (g : Grid) (fields : List String) (row : Nat) :
    (g.addRow fields).width row = if row = g.rows.size then fields.length else g.width row := by
  simp only [width, addRow, Array.getElem?_push]
  split <;> simp

/-- The grid with one more row of data, and its label in the index. -/
def addLabelledRow (g : Grid) (label : String) (fields : List String) : Grid :=
  { g.addRow fields with rowOf := g.rowOf.insert label g.rows.size }

theorem addLines_cons (width : Nat) (line : String) (lines : List String) (g : Grid) :
    addLines width (line :: lines) g.rows.size g =
      match Grid.rowLabel width g.rows.size (Text.fields line) with
      | .error e => .error e
      | .ok label => addLines width lines (g.addLabelledRow label (Text.fields line)).rows.size
          (g.addLabelledRow label (Text.fields line)) := by
  have hsize : ∀ label fields, (g.addLabelledRow label fields).rows.size = g.rows.size + 1 := by
    simp [addLabelledRow, addRow]
  simp only [addLines, hsize]
  rfl

theorem get?_addLabelledRow (g : Grid) (label : String) (fields : List String) (p : Position) :
    (g.addLabelledRow label fields).get? p =
      if p.row = g.rows.size then fields[p.col]? else g.get? p :=
  get?_addRow g fields p

theorem width_addLabelledRow (g : Grid) (label : String) (fields : List String) (row : Nat) :
    (g.addLabelledRow label fields).width row =
      if row = g.rows.size then fields.length else g.width row :=
  width_addRow g fields row

/-- What stands in the column of labels: the new label in the new row, and the old ones above. -/
theorem get?_addLabelledRow_eq_some_iff {g : Grid} {label : String} {fields : List String}
    (hfirst : fields[0]? = some label) {row : Nat} {l : String} :
    (g.addLabelledRow label fields).get? ⟨row, 0⟩ = some l ↔
      (row = g.rows.size ∧ label = l) ∨ (row < g.rows.size ∧ g.get? ⟨row, 0⟩ = some l) := by
  rw [get?_addLabelledRow]
  dsimp only
  split
  · next heq => simp [heq, hfirst]
  · next hne =>
    constructor
    · intro hl
      exact .inr ⟨(get?_isSome_iff.1 (by rw [hl]; rfl)).1, hl⟩
    · rintro (⟨heq, -⟩ | ⟨-, hl⟩)
      · exact absurd heq hne
      · exact hl

/-- The new row is the last one: it takes its label over, and leaves the other labels alone. -/
theorem WellFormed.rowOf_addLabelledRow {g : Grid} (h : g.WellFormed) {label : String}
    {fields : List String} (hfirst : fields[0]? = some label) (l : String) (row : Nat) :
    (g.addLabelledRow label fields).rowOf[l]? = some row ↔
      row ≠ 0 ∧ (g.addLabelledRow label fields).get? ⟨row, 0⟩ = some l ∧
        ∀ later, row < later → (g.addLabelledRow label fields).get? ⟨later, 0⟩ ≠ some l := by
  have hheader := h.hasHeader
  change (g.rowOf.insert label g.rows.size)[l]? = some row ↔ _
  simp only [getElem?_insert_label, Ne, get?_addLabelledRow_eq_some_iff hfirst]
  by_cases hl : label = l
  · subst hl
    rw [if_pos rfl]
    constructor
    · rintro ⟨⟩
      exact ⟨by omega, .inl ⟨rfl, rfl⟩, fun later hlater => by omega⟩
    · rintro ⟨-, ⟨rfl, -⟩ | ⟨hlt, -⟩, hlast⟩
      · rfl
      · exact absurd (.inl ⟨rfl, rfl⟩) (hlast g.rows.size hlt)
  · rw [if_neg hl, h.rowOf]
    simp only [hl, and_false, false_or]
    constructor
    · rintro ⟨hne, hlabel, hlast⟩
      have hlt := (get?_isSome_iff.1 (by rw [hlabel]; rfl)).1
      exact ⟨hne, ⟨hlt, hlabel⟩, fun later hlater hl => hlast later hlater hl.2⟩
    · rintro ⟨hne, ⟨hlt, hlabel⟩, hlast⟩
      refine ⟨hne, hlabel, fun later hlater hl => hlast later hlater ⟨?_, hl⟩⟩
      exact (get?_isSome_iff.1 (by rw [hl]; rfl)).1

/-- A row that passes the checks keeps the grid well formed. -/
theorem WellFormed.addLabelledRow {g : Grid} (h : g.WellFormed) {label : String}
    {fields : List String} (hrow : Grid.rowLabel (g.width 0) g.rows.size fields = .ok label) :
    (g.addLabelledRow label fields).WellFormed := by
  obtain ⟨hlength, hfirst, hread, hall⟩ := rowLabel_eq_ok_iff.1 hrow
  have hheader := h.hasHeader
  have htop : ∀ col, (g.addLabelledRow label fields).get? ⟨0, col⟩ = g.get? ⟨0, col⟩ :=
    fun col => by rw [get?_addLabelledRow, if_neg (by dsimp only; omega)]
  have hsize : (g.addLabelledRow label fields).rows.size = g.rows.size + 1 := by
    simp [Grid.addLabelledRow, addRow]
  constructor
  case hasHeader => omega
  case width =>
    intro row hlt
    rw [width_addLabelledRow, width_addLabelledRow, if_neg (by omega : ¬ 0 = g.rows.size)]
    split
    · exact hlength
    · exact h.width row (by omega)
  case columnLabel =>
    intro col l hcol hl
    exact h.columnLabel col l hcol ((htop col).symm.trans hl)
  case rowLabel =>
    intro row l hrow' hl
    rcases (get?_addLabelledRow_eq_some_iff hfirst).1 hl with ⟨-, rfl⟩ | ⟨-, hl⟩
    · exact hread
    · exact h.rowLabel row l hrow' hl
  case notEmpty =>
    intro p text hp htext
    rw [get?_addLabelledRow] at htext
    split at htext
    · exact hall text (List.mem_of_getElem? htext)
    · exact h.notEmpty p text hp htext
  case columnOf =>
    intro l col
    rw [htop]
    exact h.columnOf l col
  case rowOf => exact h.rowOf_addLabelledRow hfirst

theorem width_addLabelledRow_zero {g : Grid} (h : g.WellFormed) (label : String)
    (fields : List String) : (g.addLabelledRow label fields).width 0 = g.width 0 := by
  have hheader := h.hasHeader
  rw [width_addLabelledRow, if_neg (by omega)]

/-- Rows that pass the checks are appended, and the grid stays well formed. -/
theorem WellFormed.of_addLines {g g' : Grid} (h : g.WellFormed) {lines : List String}
    (hlines : addLines (g.width 0) lines g.rows.size g = .ok g') :
    g'.WellFormed ∧ g'.rows = g.rows ++ table lines := by
  induction lines generalizing g with
  | nil =>
      obtain rfl := Except.ok.inj hlines
      exact ⟨h, by simp [table]⟩
  | cons line lines ih =>
      rw [addLines_cons] at hlines
      split at hlines
      · cases hlines
      next label hlabel =>
      rw [← width_addLabelledRow_zero h label (Text.fields line)] at hlines
      obtain ⟨hg', hrows⟩ := ih (h.addLabelledRow hlabel) hlines
      refine ⟨hg', ?_⟩
      rw [hrows]
      apply Array.toList_inj.1
      simp [table, Grid.addLabelledRow, addRow]

/-- Lines whose fields pass the checks are appended. -/
theorem exists_addLines {width : Nat} {lines : List String}
    (hlines : ∀ line ∈ lines, ∃ label, ∀ row,
      Grid.rowLabel width row (Text.fields line) = .ok label) (row : Nat) (g : Grid) :
    ∃ g', addLines width lines row g = .ok g' := by
  induction lines generalizing row g with
  | nil => exact ⟨g, rfl⟩
  | cons line lines ih =>
      obtain ⟨label, hlabel⟩ := hlines line (List.mem_cons_self ..)
      simp only [addLines, hlabel]
      exact ih (fun line hline => hlines line (List.mem_cons_of_mem _ hline)) _ _

/-! ### Lines -/

theorem get?_of_rows_eq {g : Grid} {lines : List String} (hrows : g.rows = table lines)
    (p : Position) : g.get? p = lines[p.row]?.bind fun line => (Text.fields line)[p.col]? := by
  simp only [get?, hrows, table]
  cases h : lines[p.row]? <;> simp [h]

theorem width_of_rows_eq {g : Grid} {lines : List String} (hrows : g.rows = table lines)
    {row : Nat} {line : String} (hline : lines[row]? = some line) :
    g.width row = (Text.fields line).length := by
  simp [width, hrows, table, hline]

/-- A header with an index of its labels is well formed. -/
theorem wellFormed_header {labels : List String} {index : Labels}
    (h : indexColumns labels.tail 1 ∅ = .ok index) :
    ({ (empty.addRow labels) with columnOf := index } : Grid).WellFormed := by
  obtain ⟨hlabels, hindex⟩ := indexColumns_eq_ok h
  have hget : ∀ p : Position, ({ (empty.addRow labels) with columnOf := index } : Grid).get? p =
      if p.row = 0 then labels[p.col]? else none := by
    intro p
    have hnone : empty.get? p = none := by simp [get?, empty]
    exact (get?_addRow empty labels p).trans (by rw [hnone]; rfl)
  have hdata : ∀ row col, row ≠ 0 →
      ({ (empty.addRow labels) with columnOf := index } : Grid).get? ⟨row, col⟩ = none :=
    fun row col hrow => by rw [hget, if_neg hrow]
  have htail : ∀ col, labels.tail[col]? = labels[col + 1]? := fun col => by simp
  constructor
  case hasHeader => simp [addRow, empty]
  case width =>
    intro row hrow
    obtain rfl : row = 0 := by simpa [addRow, empty] using hrow
    rfl
  case columnLabel =>
    intro col label hcol hlabel
    rw [hget, if_pos rfl] at hlabel
    obtain ⟨k, rfl⟩ : ∃ k, col = k + 1 := ⟨col - 1, by omega⟩
    exact hlabels label (List.mem_of_getElem? ((htail k).trans hlabel))
  case rowLabel =>
    intro row label hrow hlabel
    rw [hdata row 0 hrow] at hlabel
    cases hlabel
  case notEmpty =>
    intro p text hp htext
    rw [hdata p.row p.col hp] at htext
    cases htext
  case columnOf =>
    intro label col
    rw [hget, if_pos rfl]
    refine (hindex label col).trans ?_
    simp only [Std.ExtTreeMap.getElem?_empty, reduceCtorEq, false_or, htail]
    constructor
    · rintro ⟨k, hk, rfl⟩
      exact ⟨by omega, by rwa [Nat.add_comm]⟩
    · rintro ⟨hcol, hlabel⟩
      obtain ⟨k, rfl⟩ : ∃ k, col = k + 1 := ⟨col - 1, by omega⟩
      exact ⟨k, hlabel, Nat.add_comm k 1⟩
  case rowOf =>
    intro label row
    constructor
    · intro hrow
      simp [addRow, empty] at hrow
    · rintro ⟨hrow, hlabel, -⟩
      rw [hdata row 0 hrow] at hlabel
      cases hlabel

theorem wellFormed_of_ofLines {lines : List String} {g : Grid} (h : ofLines lines = .ok g) :
    g.WellFormed ∧ g.rows = table lines := by
  rcases lines with _ | ⟨header, lines⟩
  · cases h
  simp only [ofLines] at h
  split at h
  · cases h
  next index hindex =>
  have hheader := wellFormed_header hindex
  have hwidth : ({ (empty.addRow (Text.fields header)) with columnOf := index } : Grid).width 0 =
      (Text.fields header).length := width_addRow empty _ 0
  rw [← hwidth] at h
  obtain ⟨hg, hrows⟩ := hheader.of_addLines h
  refine ⟨hg, hrows.trans ?_⟩
  apply Array.toList_inj.1
  simp [table, addRow, empty]

/-- The header of a well formed grid passes its checks. -/
theorem WellFormed.exists_index {g : Grid} (h : g.WellFormed) {header : String}
    (hheader : ∀ col, g.get? ⟨0, col⟩ = (Text.fields header)[col]?) :
    ∃ index, indexColumns (Text.fields header).tail 1 ∅ = .ok index := by
  have hcolumn : ∀ {k label}, (Text.fields header).tail[k]? = some label →
      g.get? ⟨0, k + 1⟩ = some label := by
    intro k label hk
    rw [hheader]
    simpa using hk
  have hlabels : ∀ label ∈ (Text.fields header).tail, IsColumnLabel label := by
    intro label hlabel
    obtain ⟨k, hk⟩ := List.getElem?_of_mem hlabel
    exact h.columnLabel (k + 1) label (by omega) (hcolumn hk)
  have hnodup : (Text.fields header).tail.Nodup := by
    -- the index gives each label to one column
    refine List.nodup_iff_getElem?_ne_getElem?.2 fun i j hij hj heq => ?_
    have hi := List.getElem?_eq_getElem hj
    have hcol := (h.columnOf _ (j + 1)).2 ⟨by omega, hcolumn hi⟩
    rw [(h.columnOf _ (i + 1)).2 ⟨by omega, hcolumn (heq.trans hi)⟩] at hcol
    simp at hcol
    omega
  exact exists_indexColumns hlabels hnodup 1 fun label _ => Std.ExtTreeMap.getElem?_empty

/-- A data row of a well formed grid passes its checks. -/
theorem WellFormed.exists_rowLabel {g : Grid} (h : g.WellFormed) {row : Nat} (hrow : row ≠ 0)
    {line : String} (hlength : (Text.fields line).length = g.width 0)
    (hline : ∀ col, g.get? ⟨row, col⟩ = (Text.fields line)[col]?) :
    ∃ label, ∀ r, Grid.rowLabel (g.width 0) r (Text.fields line) = .ok label := by
  have hpos := List.length_pos_iff.2 (Text.fields_ne_nil line)
  have hfirst := List.getElem?_eq_getElem hpos
  refine ⟨(Text.fields line)[0], fun r => rowLabel_eq_ok_iff.2 ⟨hlength, hfirst, ?_, ?_⟩⟩
  · exact h.rowLabel row _ hrow ((hline 0).trans hfirst)
  · intro field hfield
    obtain ⟨col, hcol⟩ := List.getElem?_of_mem hfield
    exact h.notEmpty ⟨row, col⟩ field hrow ((hline col).trans hcol)

/-- The lines of a well formed grid pass all checks. -/
theorem WellFormed.exists_ofLines {g : Grid} (h : g.WellFormed) {lines : List String}
    (hrows : g.rows = table lines) : ∃ g', ofLines lines = .ok g' := by
  have hcell : ∀ {row line}, lines[row]? = some line → ∀ col,
      g.get? ⟨row, col⟩ = (Text.fields line)[col]? := by
    intro row line hline col
    rw [get?_of_rows_eq hrows, hline]
    rfl
  cases lines with
  | nil =>
      have hheader := h.hasHeader
      simp [hrows, table] at hheader
  | cons header lines =>
      obtain ⟨index, hindex⟩ := h.exists_index (hcell (rfl : (header :: lines)[0]? = some header))
      have hwidth : g.width 0 = (Text.fields header).length := width_of_rows_eq hrows rfl
      have hlabels : ∀ line ∈ lines, ∃ label, ∀ row,
          Grid.rowLabel (Text.fields header).length row (Text.fields line) = .ok label := by
        intro line hline
        obtain ⟨k, hk⟩ := List.getElem?_of_mem hline
        have hline : (header :: lines)[k + 1]? = some line := by simpa using hk
        have hlt : k + 1 < g.rows.size := by
          simpa [hrows, table] using (List.getElem?_eq_some_iff.1 hline).1
        have hlength : (Text.fields line).length = g.width 0 := by
          rw [← width_of_rows_eq hrows hline, h.width (k + 1) hlt]
        rw [← hwidth]
        exact h.exists_rowLabel (by omega) hlength (hcell hline)
      simp only [ofLines, hindex]
      exact exists_addLines hlabels _ _

/-- **Lines make a grid exactly if it holds their fields and is well formed.** -/
theorem ofLines_eq_ok_iff {lines : List String} {g : Grid} :
    ofLines lines = .ok g ↔ g.WellFormed ∧ g.rows = table lines := by
  refine ⟨wellFormed_of_ofLines, fun ⟨h, hrows⟩ => ?_⟩
  obtain ⟨g', hg'⟩ := h.exists_ofLines hrows
  obtain ⟨h', hrows'⟩ := wellFormed_of_ofLines hg'
  rw [hg', h'.eq_of_rows_eq h (hrows'.trans hrows.symm)]

/-! ### Well formed grids in a pass -/

/-- A pass leaves the labels alone. -/
theorem Settled.get?_label {g g' : Grid} {done : List Position} (h : g.Settled done g')
    (hdone : ∀ p ∈ done, p ∈ g.dataPositions) {p : Position} (hp : p.row = 0 ∨ p.col = 0) :
    g'.get? p = g.get? p := by
  refine h.other p fun hp' => ?_
  obtain ⟨hrow, hcol, -⟩ := mem_dataPositions.1 (hdone p hp'.1)
  rcases hp with hp | hp
  · exact hrow hp
  · exact hcol hp

/-- A pass keeps the grid well formed. -/
theorem WellFormed.of_settled {g g' : Grid} (hg : g.WellFormed) {done : List Position}
    (h : g.Settled done g') (hdone : ∀ p ∈ done, p ∈ g.dataPositions) : g'.WellFormed := by
  have hcolumn : ∀ col, g'.get? ⟨0, col⟩ = g.get? ⟨0, col⟩ := fun col =>
    h.get?_label hdone (.inl rfl)
  have hrow : ∀ row, g'.get? ⟨row, 0⟩ = g.get? ⟨row, 0⟩ := fun row =>
    h.get?_label hdone (.inr rfl)
  constructor
  case hasHeader => rw [h.size_rows]; exact hg.hasHeader
  case width =>
    intro row hlt
    rw [h.size_rows] at hlt
    rw [h.width, h.width, hg.width row hlt]
  case columnLabel =>
    intro col label hcol hlabel
    exact hg.columnLabel col label hcol ((hcolumn col).symm.trans hlabel)
  case rowLabel =>
    intro row label hrow' hlabel
    exact hg.rowLabel row label hrow' ((hrow row).symm.trans hlabel)
  case notEmpty =>
    intro p text hp htext
    rcases h.get?_cases p with hkept | ⟨-, v, -, hv⟩
    · exact hg.notEmpty p text hp (hkept.symm.trans htext)
    · obtain rfl := Option.some.inj (hv.symm.trans htext)
      intro hempty
      have hread := Value.read?_text v
      rw [hempty] at hread
      cases hread
  case columnOf =>
    intro label col
    rw [h.columnOf, hcolumn, hg.columnOf]
  case rowOf =>
    intro label row
    simp only [h.rowOf, hrow, hg.rowOf]

end Grid

end FormulaGrid
