/-
**A grid is what its own lines make, in every history.**

The lines of a grid are its rows, each joined by commas.  A grid that was loaded has the lines that
it was loaded from, and whatever is done with its worksheet afterwards, the grid stays one that its
own lines make: a pass writes integers over data cells, and an integer holds no comma.  So the rows
and the indexes of labels never part.

As text the lines come back if none of them holds a `\n` or ends in `\r`; and if one does, the grid
does not come back.

Main definitions:

* `Grid.lines` — the lines of a grid;
* `Grid.Fielded` — the rows are such as lines have.

Main results:

* `Grid.ofLines_lines_iff` — which grids their own lines make;
* `Worksheet.after_reloads` — a history keeps a grid among them;
* `Worksheet.represents_of_ofLines` — **what a loaded grid holds, and that every history keeps it**;
* `Grid.ofLines_text_iff` — **a loaded grid is read back from its text exactly if each of its lines
  is**.
-/

import FormulaGrid.Proofs.History
import FormulaGrid.Proofs.Lines
import FormulaGrid.Proofs.Names

set_option relaxedAutoImplicit false
set_option autoImplicit false

namespace FormulaGrid

/-! ### The characters of an integer -/

namespace Value

theorem isDigit_or_sign_of_read? {text : String} (h : (read? text).isSome = true) :
    ∀ c ∈ text.toList, c.isDigit = true ∨ c = '+' ∨ c = '-' := by
  obtain ⟨sign, digits, hdigits, hsign, -, hall⟩ :=
    Text.exists_of_integer? (integer?_isSome_of_read? h)
  intro c hc
  rw [hdigits] at hc
  rcases List.mem_append.1 hc with hc | hc
  · rcases hsign with rfl | rfl | rfl
    · cases hc
    · exact .inr (.inl (List.mem_singleton.1 hc))
    · exact .inr (.inr (List.mem_singleton.1 hc))
  · exact .inl (hall c hc)

/-- An integer holds no separator. -/
theorem comma_not_mem_of_read? {text : String} (h : (read? text).isSome = true) :
    ',' ∉ text.toList := by
  intro hc
  rcases isDigit_or_sign_of_read? h _ hc with hc | hc | hc <;> cases hc

theorem isLine_of_read? {text : String} (h : (read? text).isSome = true) : Text.IsLine text := by
  constructor
  · intro hc
    rcases isDigit_or_sign_of_read? h _ hc with hc | hc | hc <;> cases hc
  · intro hlast
    rcases isDigit_or_sign_of_read? h _ (List.mem_of_getLast? hlast) with hc | hc | hc <;> cases hc

end Value

namespace Grid

/-! ### The lines of a grid -/

/-- The rows of the grid, each as the line that its fields make. -/
def lines (g : Grid) : List String := g.rows.toList.map fun row => Text.joinFields row.toList

/-- The text of a grid is that of its lines. -/
theorem text_eq_unlines (g : Grid) : g.text = Text.unlines g.lines := by
  simp [text, Text.unlines, lines, Function.comp_def]

theorem lines_of_rows_eq {g : Grid} {ls : List String} (h : g.rows = table ls) : g.lines = ls := by
  have hline : ∀ line ∈ ls, Text.joinFields (Text.fields line) = id line := fun line _ =>
    Text.joinFields_fields line
  simpa [lines, h, table, Function.comp_def] using List.map_congr_left hline

/-- The rows are such as lines have: each has a field, and no field holds a comma. -/
structure Fielded (g : Grid) : Prop where
  width_ne_zero : ∀ row < g.rows.size, g.width row ≠ 0
  comma_not_mem : ∀ p text, g.get? p = some text → ',' ∉ text.toList

theorem fielded_of_rows_eq {g : Grid} {ls : List String} (h : g.rows = table ls) : g.Fielded where
  width_ne_zero row hrow := by
    obtain ⟨line, hline⟩ : ∃ line, ls[row]? = some line := by
      have hlt : row < ls.length := by simpa [h, table] using hrow
      exact ⟨_, List.getElem?_eq_getElem hlt⟩
    rw [width_of_rows_eq h hline]
    exact Nat.ne_of_gt (List.length_pos_iff.2 (Text.fields_ne_nil line))
  comma_not_mem p text htext := by
    rw [get?_of_rows_eq h] at htext
    obtain ⟨line, -, hfield⟩ := Option.bind_eq_some_iff.1 htext
    exact Text.comma_not_mem_of_mem_fields (List.mem_of_getElem? hfield)

/-- The fields of a row come back from its line. -/
theorem Fielded.fields_joinFields {g : Grid} (h : g.Fielded) {row : Array String}
    (hrow : row ∈ g.rows) : Text.fields (Text.joinFields row.toList) = row.toList := by
  obtain ⟨i, hi⟩ := Array.getElem?_of_mem hrow
  have hlt := (Array.getElem?_eq_some_iff.1 hi).1
  have hsize : row.size ≠ 0 := by
    simpa [width, hi] using h.width_ne_zero i hlt
  refine Text.fields_joinFields ?_ fun f hf => ?_
  · intro hnil
    rw [← Array.length_toList, hnil] at hsize
    exact hsize rfl
  · obtain ⟨j, hj⟩ := List.getElem?_of_mem hf
    exact h.comma_not_mem ⟨i, j⟩ f (by simpa [get?, hi] using hj)

theorem rows_eq_table_iff {g : Grid} : g.rows = table g.lines ↔ g.Fielded := by
  refine ⟨fielded_of_rows_eq, fun h => Array.toList_inj.1 ?_⟩
  have hrow : ∀ row ∈ g.rows.toList,
      (Text.fields (Text.joinFields row.toList)).toArray = id row := fun row hrow => by
    rw [h.fields_joinFields (Array.mem_toList_iff.1 hrow), Array.toArray_toList, id]
  simpa [table, lines, Function.comp_def] using (List.map_congr_left hrow).symm

/-- A grid is what its own lines make if it is well formed and its rows are such as lines have. -/
theorem ofLines_lines_iff {g : Grid} : ofLines g.lines = .ok g ↔ g.WellFormed ∧ g.Fielded :=
  ofLines_eq_ok_iff.trans (and_congr_right fun _ => rows_eq_table_iff)

theorem ofLines_lines {g : Grid} {ls : List String} (h : ofLines ls = .ok g) :
    ofLines g.lines = .ok g := by
  rwa [lines_of_rows_eq (ofLines_eq_ok_iff.1 h).2]

/-- Integers in the place of formulas hold no comma. -/
theorem Fielded.of_settled {g g' : Grid} (hg : g.Fielded) {done : List Position}
    (h : g.Settled done g') : g'.Fielded where
  width_ne_zero row hrow := by
    rw [h.size_rows] at hrow
    rw [h.width]
    exact hg.width_ne_zero row hrow
  comma_not_mem p text htext := by
    rcases h.get?_cases p with hkept | ⟨-, v, -, hv⟩
    · exact hg.comma_not_mem p text (hkept.symm.trans htext)
    · obtain rfl := Option.some.inj (hv.symm.trans htext)
      exact Value.comma_not_mem_of_read? (by rw [Value.read?_text]; rfl)

/-- A grid whose data cells are settled is still what its own lines make. -/
theorem Settled.ofLines_lines {g g' : Grid} {done : List Position} (h : g.Settled done g')
    (hdone : ∀ p ∈ done, p ∈ g.dataPositions) (hg : ofLines g.lines = .ok g) :
    ofLines g'.lines = .ok g' := by
  obtain ⟨hwell, hfielded⟩ := ofLines_lines_iff.1 hg
  exact ofLines_lines_iff.2 ⟨hwell.of_settled h hdone, hfielded.of_settled h⟩

end Grid

/-! ### Histories -/

namespace Worksheet

variable {w : Worksheet}

/-- What one action keeps. -/
theorem perform_reloads (a : Action) (hb : w.grid.Backs w.memo)
    (h : Grid.ofLines w.grid.lines = .ok w.grid) :
    Grid.ofLines (w.perform a).grid.lines = .ok (w.perform a).grid := by
  cases a with
  | ask cached r => exact h
  | configure s => exact h
  | forget => exact h
  | evaluateAll =>
      have hstart : w.Settles w.grid [] := ⟨.refl w.grid, hb⟩
      obtain ⟨qs, hqs, hw, -⟩ := evaluateCells_settles w.grid.dataPositions {} hstart
      exact hw.settled.ofLines_lines (fun p hp => hqs.subset hp) h

/-- Throughout a history the grid is what its own lines make. -/
theorem after_reloads (history : List Action) (hb : w.grid.Backs w.memo)
    (h : Grid.ofLines w.grid.lines = .ok w.grid) :
    Grid.ofLines (w.after history).grid.lines = .ok (w.after history).grid := by
  -- the memo has to hold worths at every step, or a pass could write anything
  induction history generalizing w with
  | nil => exact h
  | cons a history ih =>
      have hstart : w.Settles w.grid [] := ⟨.refl w.grid, hb⟩
      obtain ⟨_, hw⟩ := perform_settles a hstart
      exact ih hw.backs (perform_reloads a hb h)

/-- **What a loaded grid holds, and that every history keeps it.**  The rows are the fields of the
lines, and joined they are the lines.  The grid is well formed: its rows are as long as the header,
no field of a data row is empty, its labels are of the right kind and those of the columns all
different, and the indexes hold exactly these labels, each with its column, and with the last of
the rows that it labels.  And after any history the grid is the one that its own lines make. -/
theorem represents_of_ofLines {lines : List String} {settings : Settings} {w₀ : Worksheet}
    (h : ofLines lines settings = .ok w₀) :
    w₀.grid.lines = lines ∧ w₀.grid.rows = Grid.table lines ∧ w₀.grid.WellFormed ∧
      (∀ col col' label, col ≠ 0 → col' ≠ 0 → w₀.grid.get? ⟨0, col⟩ = some label →
        w₀.grid.get? ⟨0, col'⟩ = some label → col = col') ∧
      ∀ history : List Action,
        Grid.ofLines (w₀.after history).grid.lines = .ok (w₀.after history).grid := by
  obtain ⟨g, hg, rfl⟩ := ofLines_eq_ok_iff.1 h
  obtain ⟨hwell, hrows⟩ := Grid.ofLines_eq_ok_iff.1 hg
  refine ⟨Grid.lines_of_rows_eq hrows, hrows, hwell, ?_, ?_⟩
  · intro col col' label hcol hcol' hlabel hlabel'
    have hindex := (hwell.columnOf label col).2 ⟨hcol, hlabel⟩
    rw [(hwell.columnOf label col').2 ⟨hcol', hlabel'⟩] at hindex
    exact (Option.some.inj hindex).symm
  · exact fun history => after_reloads history g.backs_empty (Grid.ofLines_lines hg)

/-- The pass stops at a name that is unknown, and the grid that it has written a part of is still
what its lines make. -/
theorem represents_of_stopped_pass :
    ∃ w₀, ofLines [",A,B", "1,=2*3,=A9+1", "1,7,+08"] {} = .ok w₀ ∧
      (w₀.after [.evaluateAll]).grid.lines = [",A,B", "1,6,=A9+1", "1,7,+08"] ∧
      Grid.ofLines [",A,B", "1,6,=A9+1", "1,7,+08"] = .ok (w₀.after [.evaluateAll]).grid := by
  have hlines : (ofLines [",A,B", "1,=2*3,=A9+1", "1,7,+08"] {}).toOption.map (fun w =>
      (w.after [.evaluateAll]).grid.lines) = some [",A,B", "1,6,=A9+1", "1,7,+08"] := by
    decide +kernel
  rcases h : ofLines [",A,B", "1,=2*3,=A9+1", "1,7,+08"] {} with e | w₀
  · rw [h] at hlines
    cases hlines
  · rw [h] at hlines
    have hlines : (w₀.after [.evaluateAll]).grid.lines = _ := Option.some.inj hlines
    have hreload := (represents_of_ofLines h).2.2.2.2 [.evaluateAll]
    rw [hlines] at hreload
    exact ⟨w₀, rfl, hlines, hreload⟩

end Worksheet

/-! ### Text -/

namespace Grid

/-- **A loaded grid is read back from its text exactly if each of its lines is.** -/
theorem ofLines_text_iff {lines : List String} {g : Grid} (h : ofLines lines = .ok g) :
    ofLines (Text.lines g.text) = .ok g ↔
      ∀ line ∈ lines, '\n' ∉ line.toList ∧ line.toList.getLast? ≠ some '\r' := by
  have hlines := lines_of_rows_eq (ofLines_eq_ok_iff.1 h).2
  rw [text_eq_unlines, hlines]
  refine Iff.trans ⟨fun hback => ?_, fun hback => ?_⟩ Text.lines_unlines_iff
  · -- the grid has one list of lines
    exact (lines_of_rows_eq (ofLines_eq_ok_iff.1 hback).2).symm.trans hlines
  · rwa [hback]

/-- A `\r` inside a line comes back. -/
theorem ofLines_text_inner_return :
    ∃ g, ofLines ["x\r,A\r,B", "1,=A\r1+1,2"] = .ok g ∧ ofLines (Text.lines g.text) = .ok g := by
  have hok : (ofLines ["x\r,A\r,B", "1,=A\r1+1,2"]).isOk = true := by decide +kernel
  rcases h : ofLines ["x\r,A\r,B", "1,=A\r1+1,2"] with e | g
  · rw [h] at hok
    cases hok
  · exact ⟨g, rfl, (ofLines_text_iff h).2 (by decide +kernel)⟩

end Grid

end FormulaGrid
