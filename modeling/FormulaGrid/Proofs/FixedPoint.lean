/-
**What evaluation writes is evaluated to itself.**

After a pass the grid is finished: its own lines make it, and every data cell holds an integer.  A
pass over a finished grid checks the integers and writes nothing, whatever its settings are.  So
the text that evaluation writes comes out of a second evaluation again, if reading the text gives
back the lines that were written.  The data rows are integers between commas and always come back.
The header is kept as it was read, and it comes back unless it ends in `\r`: that `\r` was not the
end of a line when the header was read first, but in the text that is written it is.

Main definitions:

* `evaluateText` — from text to text;
* `Grid.Finished` — a grid that a pass leaves.

Main results:

* `Grid.finished_of_evaluateLines` — evaluation ends in a finished grid;
* `Grid.Finished.evaluateLines_self` — **a finished grid is evaluated to itself**;
* `Grid.Finished.lines_text` — which lines are read from the text of a finished grid;
* `evaluateText_again_iff` — **text that evaluation wrote is evaluated to itself exactly if the
  header that was read first does not end in `\r`**.
-/

import FormulaGrid.Proofs.Reloading
import FormulaGrid.Worksheet.Storage

set_option relaxedAutoImplicit false
set_option autoImplicit false

namespace FormulaGrid

/-- The text of the grid that a text stands for, after a whole pass over it. -/
def evaluateText (text : String) (s : Settings) : Except Failure String :=
  (evaluateLines (Text.lines text) s).map Grid.text

theorem evaluateText_eq_ok_iff {text c : String} {s : Settings} :
    evaluateText text s = .ok c ↔ ∃ g, evaluateLines (Text.lines text) s = .ok g ∧ g.text = c := by
  unfold evaluateText
  cases evaluateLines (Text.lines text) s with
  | error e => simp [Except.map]
  | ok g => simp [Except.map]

/-! ### Finished grids -/

namespace Worksheet

variable {w : Worksheet}

/-- A run over integers writes nothing. -/
theorem evaluateCells_of_integers (ps : List Position) (t : Tally)
    (h : ∀ p ∈ ps, w.grid.holdsInteger p = true) : ∃ t', evaluateCells ps t w = (.ok t', w) := by
  induction ps generalizing t with
  | nil => exact ⟨t, rfl⟩
  | cons p ps ih =>
      rw [evaluateCells_cons_of_ok (evaluateCell_of_holdsInteger (h p (List.mem_cons_self ..)) t)]
      exact ih _ fun q hq => h q (List.mem_cons_of_mem _ hq)

/-- After a pass that ends, every data cell holds an integer. -/
theorem holdsInteger_of_evaluateAll {g : Grid} {s : Settings} {t : Tally}
    (hrun : (new g s).evaluateAll = (.ok t, w)) :
    ∀ p ∈ w.grid.dataPositions, w.grid.holdsInteger p = true := by
  obtain ⟨hsettled, hworth⟩ := worths_of_evaluateAll hrun
  intro p hp
  rw [hsettled.dataPositions] at hp
  obtain ⟨v, hv⟩ := hworth p hp
  exact hsettled.holdsInteger hp hv

end Worksheet

namespace Grid

/-- A grid that a pass leaves. -/
structure Finished (g : Grid) : Prop where
  loads : ofLines g.lines = .ok g
  integers : ∀ p ∈ g.dataPositions, g.holdsInteger p = true

/-- The first line is the header row. -/
theorem head?_lines (g : Grid) :
    g.lines.head? = g.rows[0]?.map fun row => Text.joinFields row.toList := by
  simp [lines, List.head?_eq_getElem?]

/-- A pass leaves the header row alone. -/
theorem Settled.rows_zero {g g' : Grid} {done : List Position} (h : g.Settled done g')
    (hdone : ∀ p ∈ done, p ∈ g.dataPositions) : g'.rows[0]? = g.rows[0]? := by
  have hcell : ∀ col, g'.get? ⟨0, col⟩ = g.get? ⟨0, col⟩ := fun col =>
    h.get?_label hdone (.inl rfl)
  by_cases hsize : 0 < g.rows.size
  · have hsize' : 0 < g'.rows.size := h.size_rows ▸ hsize
    rw [Array.getElem?_eq_getElem hsize, Array.getElem?_eq_getElem hsize', Option.some.injEq]
    refine Array.ext_getElem? fun col => ?_
    simpa [get?, hsize, hsize'] using hcell col
  · have hsize' : ¬ 0 < g'.rows.size := h.size_rows ▸ hsize
    simp only [Nat.not_lt, Nat.le_zero] at hsize hsize'
    simp [hsize, hsize']

/-- Evaluation ends in a finished grid, with the header that it began with. -/
theorem finished_of_evaluateLines {ls : List String} {s : Settings} {g : Grid}
    (h : evaluateLines ls s = .ok g) : g.Finished ∧ g.lines.head? = ls.head? := by
  obtain ⟨g₀, t, w, hload, hrun, rfl⟩ := evaluateLines_eq_ok_iff.1 h
  obtain ⟨hsettled, -⟩ := Worksheet.worths_of_evaluateAll hrun
  have hdone : ∀ p ∈ g₀.dataPositions, p ∈ g₀.dataPositions := fun _ hp => hp
  refine ⟨⟨hsettled.ofLines_lines hdone (ofLines_lines hload),
    Worksheet.holdsInteger_of_evaluateAll hrun⟩, ?_⟩
  rw [head?_lines, hsettled.rows_zero hdone, ← head?_lines,
    lines_of_rows_eq (ofLines_eq_ok_iff.1 hload).2]

namespace Finished

variable {g : Grid} (h : g.Finished)

include h

/-- **A finished grid is evaluated to itself**, whatever the settings are. -/
theorem evaluateLines_self (s : Settings) : evaluateLines g.lines s = .ok g := by
  obtain ⟨t, ht⟩ :=
    Worksheet.evaluateCells_of_integers (w := .new g s) g.dataPositions {} h.integers
  exact evaluateLines_eq_ok_iff.2 ⟨g, t, _, h.loads, ht, rfl⟩

/-- Outside the header all fields are integers. -/
theorem isSome_read? {p : Position} {text : String} (hp : p.row ≠ 0)
    (htext : g.get? p = some text) : (Value.read? text).isSome = true := by
  obtain ⟨hwell, -⟩ := ofLines_eq_ok_iff.1 h.loads
  by_cases hcol : p.col = 0
  · have hp : p = ⟨p.row, 0⟩ := Position.ext rfl hcol
    exact hwell.rowLabel p.row text ‹_› (hp ▸ htext)
  · have hdata : p ∈ g.dataPositions := mem_dataPositions.2 ⟨hp, hcol, by rw [htext]; rfl⟩
    rw [← holdsInteger_of_get? htext]
    exact h.integers p hdata

theorem isLine_of_mem_tail {line : String} (hline : line ∈ g.lines.tail) : Text.IsLine line := by
  obtain ⟨i, hi⟩ := List.getElem?_of_mem hline
  rw [List.getElem?_tail, lines, List.getElem?_map, Option.map_eq_some_iff] at hi
  obtain ⟨row, hrow, rfl⟩ := hi
  refine Text.isLine_joinFields fun f hf => ?_
  obtain ⟨j, hj⟩ := List.getElem?_of_mem hf
  rw [Array.getElem?_toList] at hrow hj
  have hcell : g.get? ⟨i + 1, j⟩ = some f := by
    simpa [get?, hrow] using hj
  exact Value.isLine_of_read? (h.isSome_read? (Nat.succ_ne_zero i) hcell)

/-- The text gives back all lines, but for a `\r` at the end of the header. -/
theorem lines_text {header : String} (hheader : g.lines.head? = some header)
    (hnot : '\n' ∉ header.toList) :
    Text.lines g.text = String.ofList (Text.dropReturn header.toList) :: g.lines.tail := by
  have hlines : g.lines = header :: g.lines.tail := List.eq_cons_of_mem_head? hheader
  have htail : g.lines.tail.flatMap Text.reread = g.lines.tail := by
    rw [← Text.lines_unlines]
    exact Text.lines_unlines_iff.2 fun line hline => h.isLine_of_mem_tail hline
  rw [text_eq_unlines, Text.lines_unlines, hlines, List.flatMap_cons,
    Text.reread_of_not_mem hnot, List.tail_cons, htail, List.singleton_append]

end Finished

end Grid

/-- No line of an outcome holds a `\n`. -/
theorem newline_not_mem_of_evaluateLines {text : String} {s : Settings} {g : Grid}
    (h : evaluateLines (Text.lines text) s = .ok g) : ∀ line ∈ g.lines, '\n' ∉ line.toList := by
  obtain ⟨hfinished, hhead⟩ := Grid.finished_of_evaluateLines h
  intro line hline
  cases hlines : g.lines with
  | nil =>
      rw [hlines] at hline
      cases hline
  | cons header tail =>
      rw [hlines, List.head?_cons] at hhead
      rw [hlines] at hline
      rcases List.mem_cons.1 hline with rfl | hline
      · exact Text.not_mem_of_mem_lines (List.mem_of_head? hhead.symm)
      · exact (hfinished.isLine_of_mem_tail (by rwa [hlines])).1

/-- **Text that evaluation wrote is evaluated to itself exactly if the header that was read first
does not end in `\r`.**  The settings of the second evaluation do not matter. -/
theorem evaluateText_again_iff {text c : String} {s : Settings} (h : evaluateText text s = .ok c)
    (s' : Settings) :
    evaluateText c s' = .ok c ↔
      ∀ header, (Text.lines text).head? = some header → header.toList.getLast? ≠ some '\r' := by
  obtain ⟨g, hg, rfl⟩ := evaluateText_eq_ok_iff.1 h
  obtain ⟨hfinished, hhead⟩ := Grid.finished_of_evaluateLines hg
  obtain ⟨header, hheader⟩ : ∃ header, g.lines.head? = some header := by
    have hloads := hfinished.loads
    cases hlines : g.lines with
    | nil =>
        rw [hlines] at hloads
        cases hloads
    | cons header tail => exact ⟨header, rfl⟩
  have hnot := newline_not_mem_of_evaluateLines hg header (List.mem_of_head? hheader)
  have hread := hfinished.lines_text hheader hnot
  rw [← hhead, hheader]
  constructor
  · intro hagain
    obtain ⟨g', hg', htext⟩ := evaluateText_eq_ok_iff.1 hagain
    obtain ⟨-, hhead'⟩ := Grid.finished_of_evaluateLines hg'
    -- both grids have the same lines, since they have the same text
    have hsame : g'.lines = g.lines := by
      rw [Grid.text_eq_unlines, Grid.text_eq_unlines] at htext
      exact Text.unlines_inj (newline_not_mem_of_evaluateLines hg')
        (newline_not_mem_of_evaluateLines hg) htext
    rw [hsame, hheader, hread, List.head?_cons, Option.some.injEq] at hhead'
    rintro _ ⟨⟩
    have hkept := congrArg String.toList hhead'
    rw [String.toList_ofList] at hkept
    exact Text.dropReturn_eq_self_iff.1 hkept.symm
  · intro hreturn
    have hkept := Text.dropReturn_eq_self_iff.2 (hreturn header rfl)
    rw [hkept, String.ofList_toList, ← List.eq_cons_of_mem_head? hheader] at hread
    refine evaluateText_eq_ok_iff.2 ⟨g, ?_, rfl⟩
    rw [hread]
    exact hfinished.evaluateLines_self s'

/-- Lines that end in `\r\n`, and a `\r` inside the header, do not keep the text from coming out
again. -/
theorem evaluateText_again_inner_return :
    evaluateText ",A\rB\r\n1,=2+3\r\n+2,=A\rB1/2" {} = .ok ",A\rB\n1,5\n+2,2\n" ∧
      evaluateText ",A\rB\n1,5\n+2,2\n" { maxDepth := 1 } = .ok ",A\rB\n1,5\n+2,2\n" := by
  have h : evaluateText ",A\rB\r\n1,=2+3\r\n+2,=A\rB1/2" {} = .ok ",A\rB\n1,5\n+2,2\n" := by
    decide +kernel
  refine ⟨h, (evaluateText_again_iff h _).2 ?_⟩
  rintro _ ⟨⟩
  decide +kernel

/-- A header that ends in `\r` loses it at the second reading. -/
theorem not_forall_evaluateText_again :
    ¬ ∀ (text c : String) (s s' : Settings), evaluateText text s = .ok c →
      evaluateText c s' = .ok c := by
  intro h
  have hfirst : evaluateText ",A\r\r\n1,=2+3\r\n" {} = .ok ",A\r\n1,5\n" := by decide +kernel
  have hsecond : evaluateText ",A\r\n1,5\n" {} = .ok ",A\n1,5\n" := by decide +kernel
  have hagain := h _ _ {} {} hfirst
  rw [hsecond] at hagain
  exact absurd (Except.ok.inj hagain) (by decide)

end FormulaGrid
