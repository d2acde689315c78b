/-
**Which lines come back when they are written one after the other.**

Lines are written with a `\n` behind each of them, and there is no way to write a `\n` that belongs
to a line.  Reading takes off one `\r` before a `\n` as well.  So what is read where one line was
written are the stretches between the `\n` of that line, without the `\r` at their ends; and this is
the line itself exactly if it holds no `\n` and does not end in `\r`.

Main definitions:

* `Text.unlines` — lines as one text;
* `Text.IsLine` — a line that can be written and read back;
* `Text.reread` — the lines that are read where one line was written.

Main results:

* `Text.lines_unlines` — what is read, line by line;
* `Text.lines_unlines_iff` — **lines come back exactly if each of them can be read back**;
* `Text.unlines_inj` — lines without `\n` are told apart by their text.
-/

import FormulaGrid.Text.Lines
import Mathlib.Data.List.Basic

set_option relaxedAutoImplicit false
set_option autoImplicit false

namespace FormulaGrid

namespace Text

/-! ### Separators -/

/-- There is one piece more than there are separators. -/
theorem length_pieces (s : Char) (cs : List Char) : (pieces s cs).length = cs.count s + 1 := by
  induction cs with
  | nil => rfl
  | cons c cs ih =>
      rw [pieces_cons]
      cases hp : pieces s cs with
      | nil => exact absurd hp (pieces_ne_nil s cs)
      | cons q qs =>
          rw [hp] at ih
          simp only [consPiece]
          split
          · next hc =>
            subst hc
            rw [List.count_cons_self, List.length_cons, ih]
          · next hc =>
            rw [List.count_cons_of_ne hc, ← ih]
            rfl

theorem dropReturn_eq_self_iff {cs : List Char} :
    dropReturn cs = cs ↔ cs.getLast? ≠ some '\r' := by
  unfold dropReturn
  split
  · next h =>
    have hne : cs ≠ [] := by
      rintro rfl
      cases h
    simp only [h, ne_eq, not_true_eq_false, iff_false]
    intro heq
    have hlength := congrArg List.length heq
    have hpos := List.length_pos_iff.2 hne
    rw [List.length_dropLast] at hlength
    omega
  · next h => simp [h]

/-- No line of a text holds a `\n`. -/
theorem not_mem_of_mem_lines {text line : String} (h : line ∈ lines text) :
    '\n' ∉ line.toList := by
  obtain ⟨p, hp, rfl⟩ := List.mem_map.1 h
  rw [String.toList_ofList]
  rcases List.mem_append.1 hp with hp | hp
  · obtain ⟨q, hq, rfl⟩ := List.mem_map.1 hp
    have hnot := not_mem_of_mem_pieces (List.dropLast_subset _ hq)
    unfold dropReturn
    split
    · exact fun hmem => hnot (List.dropLast_subset _ hmem)
    · exact hnot
  · obtain ⟨hp, -⟩ := List.mem_filter.1 hp
    exact not_mem_of_mem_pieces (List.mem_of_getLast? (Option.mem_toList.1 hp))

/-! ### Lines that are written -/

/-- The lines one after the other, each ended by `\n`. -/
def unlines (ls : List String) : String := String.join (ls.map (· ++ "\n"))

/-- A line that can be read back: it holds no `\n`, and it does not end in the `\r` that would be
taken for a part of its end. -/
def IsLine (line : String) : Prop := '\n' ∉ line.toList ∧ line.toList.getLast? ≠ some '\r'

/-- Fields that can be read back make a line that can be read back. -/
theorem isLine_joinFields {fs : List String} (h : ∀ f ∈ fs, IsLine f) :
    IsLine (joinFields fs) := by
  unfold IsLine joinFields
  rw [String.toList_intercalate]
  induction fs with
  | nil => decide
  | cons f fs ih =>
      have hf := h f (List.mem_cons_self ..)
      have ih := ih fun f' hf' => h f' (List.mem_cons_of_mem _ hf')
      cases fs with
      | nil =>
          rw [List.map_singleton, List.intercalate_singleton]
          exact hf
      | cons f' fs =>
          rw [List.map_cons, List.map_cons, List.intercalate_cons_cons, ← List.map_cons]
          constructor
          · simp only [List.mem_append, not_or]
            exact ⟨⟨hf.1, by decide⟩, ih.1⟩
          · -- the last character is that of the other fields, or the comma before them
            have hrest := ih.2
            rw [List.getLast?_append]
            cases hlast : (",".toList.intercalate ((f' :: fs).map String.toList)).getLast? with
            | none => simp
            | some c =>
                rw [hlast] at hrest
                exact hrest

/-- The lines that are read where one line was written. -/
def reread (line : String) : List String :=
  (pieces '\n' line.toList).map fun p => String.ofList (dropReturn p)

theorem toList_unlines_cons (line : String) (ls : List String) :
    (unlines (line :: ls)).toList = line.toList ++ '\n' :: (unlines ls).toList := by
  simp [unlines]

theorem pieces_unlines (ls : List String) :
    pieces '\n' (unlines ls).toList = (ls.flatMap fun line => pieces '\n' line.toList) ++ [[]] := by
  induction ls with
  | nil => rfl
  | cons line ls ih =>
      rw [toList_unlines_cons, pieces_append_cons, ih, List.flatMap_cons, List.append_assoc]

/-- Each line is read for itself. -/
theorem lines_unlines (ls : List String) : lines (unlines ls) = ls.flatMap reread := by
  simp only [lines, pieces_unlines, List.dropLast_concat, List.getLast?_concat]
  simp only [Option.toList_some, List.filter_singleton, ne_eq, not_true_eq_false, decide_false,
    List.append_nil, List.map_flatMap, List.map_map, cond_false]
  rfl

theorem length_reread (line : String) : (reread line).length = line.toList.count '\n' + 1 := by
  rw [reread, List.length_map, length_pieces]

theorem reread_of_not_mem {line : String} (h : '\n' ∉ line.toList) :
    reread line = [String.ofList (dropReturn line.toList)] := by
  rw [reread, pieces_of_not_mem h, List.map_singleton]

theorem reread_eq_singleton_iff {line : String} : reread line = [line] ↔ IsLine line := by
  constructor
  · intro h
    have hnot : '\n' ∉ line.toList := by
      have hlength := length_reread line
      rw [h, List.length_singleton] at hlength
      exact List.count_eq_zero.1 (by omega)
    refine ⟨hnot, dropReturn_eq_self_iff.1 ?_⟩
    rw [reread_of_not_mem hnot] at h
    simpa using congrArg String.toList (List.singleton_inj.1 h)
  · rintro ⟨hnot, hlast⟩
    rw [reread_of_not_mem hnot, dropReturn_eq_self_iff.2 hlast, String.ofList_toList]

theorem length_le_flatMap_reread (ls : List String) : ls.length ≤ (ls.flatMap reread).length := by
  induction ls with
  | nil => exact Nat.le_refl 0
  | cons line ls ih =>
      rw [List.flatMap_cons, List.length_append, length_reread, List.length_cons]
      omega

/-- **Lines come back exactly if each of them can be read back.** -/
theorem lines_unlines_iff {ls : List String} :
    lines (unlines ls) = ls ↔ ∀ line ∈ ls, IsLine line := by
  rw [lines_unlines]
  induction ls with
  | nil => simp
  | cons line ls ih =>
      rw [List.flatMap_cons, List.forall_mem_cons, ← ih, ← reread_eq_singleton_iff]
      constructor
      · intro h
        -- no line is read as none, so the first one is read as one line and no more
        have hlength : (reread line).length = 1 := by
          have hle := length_le_flatMap_reread ls
          have hpos := length_reread line
          have hsum := congrArg List.length h
          rw [List.length_append, List.length_cons] at hsum
          omega
        exact List.append_inj (h.trans (List.singleton_append).symm) hlength
      · rintro ⟨hline, hls⟩
        rw [hline, hls, List.singleton_append]

/-- Lines without `\n` are told apart by their text. -/
theorem unlines_inj {ls ls' : List String} (h : ∀ line ∈ ls, '\n' ∉ line.toList)
    (h' : ∀ line ∈ ls', '\n' ∉ line.toList) (heq : unlines ls = unlines ls') : ls = ls' := by
  have hpieces : ∀ {ls : List String}, (∀ line ∈ ls, '\n' ∉ line.toList) →
      (ls.flatMap fun line => pieces '\n' line.toList) = ls.map String.toList := by
    intro ls h
    rw [List.flatMap_congr fun line hline => pieces_of_not_mem (h line hline),
      ← List.map_eq_flatMap]
  have hsame := pieces_unlines ls
  rw [heq, pieces_unlines, hpieces h, hpieces h'] at hsame
  exact (List.map_injective_iff.2 fun _ _ => String.toList_inj.1)
    (List.append_cancel_right hsame).symm

end Text

end FormulaGrid
