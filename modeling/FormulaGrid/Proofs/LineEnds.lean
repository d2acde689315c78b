/-
**How the lines of a text end does not matter.**

A line ends in `\n` or in `\r\n`, each line as it likes, and the last one may end with the text.
Reading takes the ends off: what stands before a `\n` is a line of its own, and a `\r` right before
that `\n` goes with it.  A `\r` at any other place belongs to the line, so the end that is taken off
is the one that was written, unless the line itself ends in `\r` and only `\n` is put behind it.

Main definitions:

* `Text.LineEnd` — the two ends that a line can have;
* `Text.Renders` — a text is made of some lines, each with an end of its own.

Main results:

* `Text.lines_append_newline` — reading goes line by line;
* `Text.lines_of_renders` — **lines are read as they were written, whatever their ends**;
* `Text.forall_lines_of_renders_iff` — for no other lines do the ends not matter;
* `evaluateText_of_renders` — **two texts that are made of the same lines evaluate to the same**.
-/

import FormulaGrid.Proofs.FixedPoint

set_option relaxedAutoImplicit false
set_option autoImplicit false

namespace FormulaGrid

namespace Text

/-! ### Ends of lines -/

/-- How a line can end. -/
inductive LineEnd
  | newline
  | returnNewline
deriving DecidableEq, Repr

/-- The characters that end the line. -/
def LineEnd.text : LineEnd → String
  | newline => "\n"
  | returnNewline => "\r\n"

/-- The text is made of the lines.  Each line has an end of its own, except that the last one may
stand without an end if it is not empty. -/
inductive Renders : List String → String → Prop
  | nil : Renders [] ""
  | cons (line : String) (e : LineEnd) {ls : List String} {text : String} (h : Renders ls text) :
      Renders (line :: ls) (line ++ e.text ++ text)
  | last {line : String} (hne : line ≠ "") : Renders [line] line

/-- The text in which every line ends in `\n`. -/
theorem renders_unlines (ls : List String) : Renders ls (unlines ls) := by
  induction ls with
  | nil => exact .nil
  | cons line ls ih =>
      have heq : unlines (line :: ls) = line ++ LineEnd.newline.text ++ unlines ls := by
        simp [unlines, LineEnd.text]
      rw [heq]
      exact .cons line .newline ih

/-! ### Reading -/

/-- Reading goes line by line: what stands before the first `\n` is the first line. -/
theorem lines_append_newline {line : List Char} (h : '\n' ∉ line) {text : String}
    (rest : String) (htext : text.toList = line ++ '\n' :: rest.toList) :
    lines text = String.ofList (dropReturn line) :: lines rest := by
  have hpieces : pieces '\n' text.toList = line :: pieces '\n' rest.toList := by
    rw [htext, pieces_append_cons, pieces_of_not_mem h, List.singleton_append]
  have hne := pieces_ne_nil '\n' rest.toList
  simp only [lines, hpieces, List.dropLast_cons_of_ne_nil hne, List.getLast?_cons_of_ne_nil hne,
    List.map_cons, List.cons_append]

/-- What stands behind the last `\n` is a line, unless nothing stands there. -/
theorem lines_of_not_mem {line : String} (h : '\n' ∉ line.toList) (hne : line ≠ "") :
    lines line = [line] := by
  have hne' : line.toList ≠ [] := by simpa using hne
  simp [lines, pieces_of_not_mem h, hne']

theorem dropReturn_append_return (cs : List Char) : dropReturn (cs ++ ['\r']) = cs := by
  simp [dropReturn]

/-- **Lines are read as they were written, whatever their ends.** -/
theorem lines_of_renders {ls : List String} {text : String} (h : Renders ls text)
    (hls : ∀ line ∈ ls, IsLine line) : lines text = ls := by
  induction h with
  | nil => rfl
  | last hne => exact lines_of_not_mem (hls _ (List.mem_singleton_self _)).1 hne
  | @cons line e ls text h ih =>
      rw [List.forall_mem_cons] at hls
      obtain ⟨⟨hnewline, hreturn⟩, hls⟩ := hls
      have hrest := ih hls
      cases e with
      | newline =>
          have hline : '\n' ∉ line.toList := hnewline
          rw [lines_append_newline hline text (by simp [LineEnd.text]), hrest,
            dropReturn_eq_self_iff.2 hreturn, String.ofList_toList]
      | returnNewline =>
          -- only the `\r` of the end is taken off
          have hline : '\n' ∉ line.toList ++ ['\r'] := by simp [hnewline]
          rw [lines_append_newline hline text (by simp [LineEnd.text]), hrest,
            dropReturn_append_return, String.ofList_toList]

/-- For no other lines do the ends not matter. -/
theorem forall_lines_of_renders_iff {ls : List String} :
    (∀ text, Renders ls text → lines text = ls) ↔ ∀ line ∈ ls, IsLine line :=
  ⟨fun h => lines_unlines_iff.1 (h _ (renders_unlines ls)), fun h _ ht => lines_of_renders ht h⟩

end Text

/-- **How the lines of a text end does not matter.**  A text that is made of lines without `\n`,
none of which ends in `\r`, is read as these lines, whichever of the two ends each of them has, and
whether or not the last one has an end, if it is not empty.  So any other text that is made of these
lines evaluates to the same text, or fails for the same reason. -/
theorem evaluateText_of_renders {ls : List String} (hls : ∀ line ∈ ls, Text.IsLine line)
    {text : String} (ht : Text.Renders ls text) :
    Text.lines text = ls ∧
      ∀ (text' : String) (s : Settings), Text.Renders ls text' →
        evaluateText text' s = evaluateText text s := by
  have hread := Text.lines_of_renders ht hls
  refine ⟨hread, fun text' s ht' => ?_⟩
  rw [evaluateText, evaluateText, Text.lines_of_renders ht' hls, hread]

/-- The `\r` inside the header is no end of a line, with either end behind the header. -/
theorem evaluateText_of_renders_inner_return :
    (∀ line ∈ [",A\rB", "1,=2+3"], Text.IsLine line) ∧
      Text.Renders [",A\rB", "1,=2+3"] ",A\rB\r\n1,=2+3" ∧
      Text.Renders [",A\rB", "1,=2+3"] ",A\rB\n1,=2+3\r\n" ∧
      evaluateText ",A\rB\n1,=2+3\r\n" {} = .ok ",A\rB\n1,5\n" := by
  have hls : ∀ line ∈ [",A\rB", "1,=2+3"], Text.IsLine line := by
    unfold Text.IsLine
    decide
  have ht : Text.Renders [",A\rB", "1,=2+3"] ",A\rB\r\n1,=2+3" := by
    have hlast : Text.Renders ["1,=2+3"] "1,=2+3" := .last (by decide)
    simpa [Text.LineEnd.text] using hlast.cons ",A\rB" .returnNewline
  have ht' : Text.Renders [",A\rB", "1,=2+3"] ",A\rB\n1,=2+3\r\n" := by
    have hlast := Text.Renders.nil.cons "1,=2+3" .returnNewline
    simpa [Text.LineEnd.text] using hlast.cons ",A\rB" .newline
  have hvalue : evaluateText ",A\rB\r\n1,=2+3" {} = .ok ",A\rB\n1,5\n" := by decide +kernel
  exact ⟨hls, ht, ht', ((evaluateText_of_renders hls ht).2 _ {} ht').trans hvalue⟩

end FormulaGrid
