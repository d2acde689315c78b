/-
**Which defect of some lines is reported.**

Lines can have many defects at once, and loading reports one of them.  Here each column and each
row is looked at by itself: what is wrong with it is a relation that knows nothing of the order in
which lines are read.  What is reported is what is wrong with the first defective column, or if
there is none, with the first defective row; and lines without any defect make a grid.

Main definitions:

* `Grid.ColumnDefect`, `Grid.RowDefect`, `Grid.LineDefect` — what is wrong with one column, with
  the fields of one row, and with one of the lines;
* `Grid.FirstDefect`, `Grid.NoDefect` — the defect of some lines that comes first, and lines that
  have none;
* `Grid.Fit` — what lines without a defect look like;
* `Grid.Reports` — the outcome of a search for the first index with a defect.

Main results:

* `Grid.indexColumns_reports`, `Grid.addLines_reports` — each of the two loops finds the first
  defect of its kind;
* `Grid.ofLines_reports` — **loading reports the first defect, and accepts exactly the lines that
  have none**.
-/

import FormulaGrid.Proofs.Loading

set_option relaxedAutoImplicit false
set_option autoImplicit false

namespace FormulaGrid

namespace Grid

/-! ### Defects -/

/-- What is wrong with the column `col` under a header with these fields.  A label is looked at
for digits only if it is there, and for repetition only if it is of the right kind. -/
inductive ColumnDefect (labels : List String) (col : Nat) : LayoutError → Prop
  | unlabelled (hlabel : labels[col]? = some "") : ColumnDefect labels col (.unlabelledColumn col)
  | digit {label : String} (hlabel : labels[col]? = some label)
      (hdigit : ∃ c ∈ label.toList, c.isDigit = true) :
      ColumnDefect labels col (.digitInColumnLabel label col)
  /-- An earlier column, not the first one, has the same label. -/
  | repeated {label : String} {first : Nat} (hlabel : labels[col]? = some label)
      (hkind : IsColumnLabel label) (hfirst : 1 ≤ first) (hlt : first < col)
      (hsame : labels[first]? = some label) :
      ColumnDefect labels col (.repeatedColumnLabel label first col)

/-- What is wrong with the row `row` of these fields, where `width` fields are expected. -/
inductive RowDefect (width row : Nat) (fields : List String) : LayoutError → Prop
  | ragged (hwidth : fields.length ≠ width) :
      RowDefect width row fields (.raggedRow row fields.length width)
  | unlabelled (hwidth : fields.length = width) (hlabel : fields[0]? = some "") :
      RowDefect width row fields (.emptyCell row 0)
  | notInteger {label : String} (hwidth : fields.length = width)
      (hlabel : fields[0]? = some label) (hne : label ≠ "") (hread : Value.read? label = none) :
      RowDefect width row fields (.rowLabelNotInteger label)
  /-- The label is an integer, and `col` is the first of the empty fields. -/
  | empty {label : String} {col : Nat} (hwidth : fields.length = width)
      (hlabel : fields[0]? = some label) (hread : (Value.read? label).isSome = true)
      (hempty : fields[col]? = some "") (hfirst : ∀ k < col, fields[k]? ≠ some "") :
      RowDefect width row fields (.emptyCell row col)

/-- What is wrong with the line at `row`, where `width` fields are expected. -/
def LineDefect (lines : List String) (width row : Nat) (e : LayoutError) : Prop :=
  ∃ line, lines[row]? = some line ∧ RowDefect width row (Text.fields line) e

/-- `e` is a defect at some index from `start` on, and no index before has one. -/
def FirstFrom (D : Nat → LayoutError → Prop) (start : Nat) (e : LayoutError) : Prop :=
  ∃ k, start ≤ k ∧ D k e ∧ ∀ j e', start ≤ j → j < k → ¬ D j e'

/-- There is no defect from `start` on. -/
def NoneFrom (D : Nat → LayoutError → Prop) (start : Nat) : Prop := ∀ k e, start ≤ k → ¬ D k e

/-- The defect of some lines that comes first: the columns come before the rows. -/
inductive FirstDefect (lines : List String) : LayoutError → Prop
  | noLines (h : lines = []) : FirstDefect lines .noLines
  | column {header : String} {rest : List String} {e : LayoutError} (h : lines = header :: rest)
      (he : FirstFrom (ColumnDefect (Text.fields header)) 1 e) : FirstDefect lines e
  | row {header : String} {rest : List String} {e : LayoutError} (h : lines = header :: rest)
      (hcolumns : NoneFrom (ColumnDefect (Text.fields header)) 1)
      (he : FirstFrom (LineDefect lines (Text.fields header).length) 1 e) : FirstDefect lines e

/-- Lines without a defect: there is a header, and neither a column nor a row has one. -/
def NoDefect (lines : List String) : Prop :=
  ∃ header rest, lines = header :: rest ∧ NoneFrom (ColumnDefect (Text.fields header)) 1 ∧
    NoneFrom (LineDefect lines (Text.fields header).length) 1

/-- A header and further lines that fit together.  Nothing is asked of the first field of the
header, the labels of the rows may repeat, and a cell may hold any text but the empty one. -/
structure Fit (header : String) (rest : List String) : Prop where
  columnLabel : ∀ label ∈ (Text.fields header).tail, IsColumnLabel label
  nodup : (Text.fields header).tail.Nodup
  width : ∀ line ∈ rest, (Text.fields line).length = (Text.fields header).length
  rowLabel : ∀ line ∈ rest, ∃ label, (Text.fields line)[0]? = some label ∧
    (Value.read? label).isSome = true
  notEmpty : ∀ line ∈ rest, ∀ field ∈ Text.fields line, field ≠ ""

/-! ### A search for the first defect -/

/-- A search from `start` on ends with the first defect, or it ends well and there is none. -/
def Reports {α : Type} (D : Nat → LayoutError → Prop) (start : Nat) : Except LayoutError α → Prop
  | .error e => FirstFrom D start e
  | .ok _ => NoneFrom D start

section

variable {α : Type} {D : Nat → LayoutError → Prop} {start : Nat} {e : LayoutError}

theorem reports_of_defect (h : D start e) : Reports D start (.error e : Except LayoutError α) :=
  ⟨start, Nat.le_refl start, h, fun j _ hj hlt => absurd hlt (by omega)⟩

/-- The search goes on where there is no defect. -/
theorem Reports.step {r : Except LayoutError α} (h : Reports D (start + 1) r)
    (hnone : ∀ e, ¬ D start e) : Reports D start r := by
  have hstart : ∀ j e', start ≤ j → (start + 1 ≤ j → ¬ D j e') → ¬ D j e' := by
    intro j e' hj hlater
    rcases Nat.eq_or_lt_of_le hj with rfl | hlt
    · exact hnone e'
    · exact hlater hlt
  cases r with
  | error e =>
      obtain ⟨k, hk, hdefect, hbefore⟩ := h
      refine ⟨k, by omega, hdefect, fun j e' hj hlt => hstart j e' hj fun hj => ?_⟩
      exact hbefore j e' hj hlt
  | ok a => exact fun k e' hk => hstart k e' hk (h k e')

/-- The item that a search is at, and the items behind it. -/
theorem getElem?_of_drop_eq_cons {items rest : List String} {item : String}
    (h : items.drop start = item :: rest) :
    items[start]? = some item ∧ items.drop (start + 1) = rest := by
  rw [← List.head?_drop, ← List.tail_drop, h]
  exact ⟨rfl, rfl⟩

/-- The first index with a defect is one index. -/
theorem FirstFrom.same_index {e e' : LayoutError} (h : FirstFrom D start e)
    (h' : FirstFrom D start e') :
    ∃ k, D k e ∧ D k e' ∧ ∀ j e'', start ≤ j → j < k → ¬ D j e'' := by
  obtain ⟨k, hk, hdefect, hbefore⟩ := h
  obtain ⟨k', hk', hdefect', hbefore'⟩ := h'
  rcases Nat.lt_trichotomy k k' with hlt | rfl | hlt
  · exact absurd hdefect (hbefore' k e hk hlt)
  · exact ⟨k, hdefect, hdefect', hbefore⟩
  · exact absurd hdefect' (hbefore k' e' hk' hlt)

theorem FirstFrom.not_noneFrom (h : FirstFrom D start e) : ¬ NoneFrom D start := by
  obtain ⟨k, hk, hdefect, -⟩ := h
  exact fun hnone => hnone k e hk hdefect

end

/-! ### Columns -/

section

variable {labels : List String} {col : Nat}

theorem IsColumnLabel.no_digit {label : String} (h : IsColumnLabel label) :
    ¬ ∃ c ∈ label.toList, c.isDigit = true := by
  rintro ⟨c, hc, hdigit⟩
  rw [h.2 c hc] at hdigit
  cases hdigit

theorem ColumnDefect.exists_label {e : LayoutError} (h : ColumnDefect labels col e) :
    ∃ label, labels[col]? = some label := by
  cases h with
  | unlabelled hlabel => exact ⟨_, hlabel⟩
  | digit hlabel => exact ⟨_, hlabel⟩
  | repeated hlabel => exact ⟨_, hlabel⟩

/-- A column with a label of the right kind that no earlier column has is without defect. -/
theorem not_columnDefect {label : String} (hlabel : labels[col]? = some label)
    (hkind : IsColumnLabel label)
    (hnew : ∀ first, 1 ≤ first → first < col → labels[first]? ≠ some label) (e : LayoutError) :
    ¬ ColumnDefect labels col e := by
  intro h
  cases h with
  | unlabelled h =>
      obtain rfl := Option.some.inj (hlabel.symm.trans h)
      exact hkind.1 rfl
  | digit h hdigit =>
      obtain rfl := Option.some.inj (hlabel.symm.trans h)
      exact hkind.no_digit hdigit
  | repeated h _ hfirst hlt hsame =>
      obtain rfl := Option.some.inj (hlabel.symm.trans h)
      exact hnew _ hfirst hlt hsame

theorem isColumnLabel_of_no_columnDefect {label : String} (hlabel : labels[col]? = some label)
    (hclean : ∀ e, ¬ ColumnDefect labels col e) : IsColumnLabel label := by
  refine ⟨?_, fun c hc => Bool.eq_false_iff.2 fun hdigit => ?_⟩
  · rintro rfl
    exact hclean _ (.unlabelled hlabel)
  · exact hclean _ (.digit hlabel ⟨c, hc, hdigit⟩)

/-- Columns without defect have different labels. -/
theorem eq_of_no_columnDefect (hclean : ∀ j e, 1 ≤ j → j < col → ¬ ColumnDefect labels j e)
    {label : String} (hkind : IsColumnLabel label) {i j : Nat} (hi : 1 ≤ i) (hj : 1 ≤ j)
    (hicol : i < col) (hjcol : j < col) (hlabel : labels[i]? = some label)
    (hlabel' : labels[j]? = some label) : i = j := by
  rcases Nat.lt_trichotomy i j with hlt | rfl | hlt
  · exact absurd (.repeated hlabel' hkind hi hlt hlabel) (hclean j _ hj hjcol)
  · rfl
  · exact absurd (.repeated hlabel hkind hj hlt hlabel') (hclean i _ hi hicol)

/-- Behind columns without defect a column has at most one. -/
theorem ColumnDefect.unique {e e' : LayoutError} (h : ColumnDefect labels col e)
    (h' : ColumnDefect labels col e')
    (hclean : ∀ j e, 1 ≤ j → j < col → ¬ ColumnDefect labels j e) : e = e' := by
  have hempty : ¬ ∃ c ∈ "".toList, c.isDigit = true := by simp
  cases h with
  | unlabelled hlabel =>
      cases h' with
      | unlabelled => rfl
      | digit hlabel' hdigit =>
          obtain rfl := Option.some.inj (hlabel'.symm.trans hlabel)
          exact absurd hdigit hempty
      | repeated hlabel' hkind =>
          exact absurd (Option.some.inj (hlabel'.symm.trans hlabel)) hkind.1
  | digit hlabel hdigit =>
      cases h' with
      | unlabelled hlabel' =>
          obtain rfl := Option.some.inj (hlabel.symm.trans hlabel')
          exact absurd hdigit hempty
      | digit hlabel' =>
          obtain rfl := Option.some.inj (hlabel.symm.trans hlabel')
          rfl
      | repeated hlabel' hkind =>
          obtain rfl := Option.some.inj (hlabel.symm.trans hlabel')
          exact absurd hdigit hkind.no_digit
  | repeated hlabel hkind hfirst hlt hsame =>
      cases h' with
      | unlabelled hlabel' =>
          exact absurd (Option.some.inj (hlabel.symm.trans hlabel')) hkind.1
      | digit hlabel' hdigit =>
          obtain rfl := Option.some.inj (hlabel.symm.trans hlabel')
          exact absurd hdigit hkind.no_digit
      | repeated hlabel' _ hfirst' hlt' hsame' =>
          obtain rfl := Option.some.inj (hlabel.symm.trans hlabel')
          obtain rfl := eq_of_no_columnDefect hclean hkind hfirst hfirst' hlt hlt' hsame hsame'
          rfl

/-- The index holds the labels of the columns from 1 to before `col`. -/
def Indexes (labels : List String) (col : Nat) (index : Labels) : Prop :=
  ∀ l c, index[l]? = some c ↔ 1 ≤ c ∧ c < col ∧ labels[c]? = some l

theorem indexes_empty (labels : List String) : Indexes labels 1 ∅ := by
  intro l c
  rw [Std.ExtTreeMap.getElem?_empty]
  refine iff_of_false (by simp) fun ⟨hc, hlt, _⟩ => ?_
  omega

/-- A new label is put into the index. -/
theorem Indexes.insert {index : Labels} (h : Indexes labels col index) (hcol : 1 ≤ col)
    {label : String} (hlabel : labels[col]? = some label) (hnew : index[label]? = none) :
    Indexes labels (col + 1) (index.insert label col) := by
  intro l c
  rw [getElem?_insert_label]
  split
  · next heq =>
    subst heq
    constructor
    · rintro ⟨⟩
      exact ⟨hcol, by omega, hlabel⟩
    · rintro ⟨hc, hlt, hsame⟩
      rcases Nat.eq_or_lt_of_le (Nat.le_of_lt_succ hlt) with rfl | hlt
      · rfl
      · rw [(h label c).2 ⟨hc, hlt, hsame⟩] at hnew
        cases hnew
  · next hne =>
    rw [h]
    constructor
    · rintro ⟨hc, hlt, hsame⟩
      exact ⟨hc, by omega, hsame⟩
    · rintro ⟨hc, hlt, hsame⟩
      refine ⟨hc, ?_, hsame⟩
      rcases Nat.eq_or_lt_of_le (Nat.le_of_lt_succ hlt) with rfl | hlt
      · exact absurd (Option.some.inj (hlabel.symm.trans hsame)) hne
      · exact hlt

/-- **Indexing the columns finds the first defect of a column.** -/
theorem indexColumns_reports {rest : List String} {index : Labels} (hrest : labels.drop col = rest)
    (hcol : 1 ≤ col) (hindex : Indexes labels col index) :
    Reports (ColumnDefect labels) col (indexColumns rest col index) := by
  induction rest generalizing col index with
  | nil =>
      have hlength : labels.length ≤ col := List.drop_eq_nil_iff.1 hrest
      intro k e hk h
      obtain ⟨label, hlabel⟩ := h.exists_label
      rw [List.getElem?_eq_none (by omega)] at hlabel
      cases hlabel
  | cons label rest ih =>
      obtain ⟨hlabel, hdrop⟩ := getElem?_of_drop_eq_cons hrest
      rw [indexColumns]
      split
      next hempty =>
        have hempty : label = "" := by simpa using hempty
        subst hempty
        exact reports_of_defect (.unlabelled hlabel)
      next hempty =>
      split
      next hdigit => exact reports_of_defect (.digit hlabel (List.any_eq_true.1 hdigit))
      next hdigit =>
      have hkind : IsColumnLabel label := by
        refine ⟨fun he => hempty (by simp [he]), fun c hc => ?_⟩
        simpa using fun hd => hdigit (List.any_eq_true.2 ⟨c, hc, hd⟩)
      split
      next first hfirst =>
        obtain ⟨hpos, hlt, hsame⟩ := (hindex label first).1 hfirst
        exact reports_of_defect (.repeated hlabel hkind hpos hlt hsame)
      next hnew =>
        refine (ih hdrop (by omega) (hindex.insert hcol hlabel hnew)).step ?_
        refine not_columnDefect hlabel hkind fun first hpos hlt hsame => ?_
        rw [(hindex label first).2 ⟨hpos, hlt, hsame⟩] at hnew
        cases hnew

end

/-! ### Rows -/

section

variable {width row : Nat} {fields : List String} {e : LayoutError}

/-- If the check of a row fails, then with a defect of the row. -/
theorem rowDefect_of_rowLabel (hne : fields ≠ []) (h : Grid.rowLabel width row fields = .error e) :
    RowDefect width row fields e := by
  obtain ⟨label, rest, rfl⟩ := List.exists_cons_of_ne_nil hne
  unfold Grid.rowLabel at h
  split at h
  next hwidth =>
    obtain rfl := Except.error.inj h
    exact .ragged hwidth
  next hwidth =>
  have hwidth : (label :: rest).length = width := by simpa using hwidth
  dsimp only at h
  split at h
  next hempty =>
    obtain rfl := Except.error.inj h
    exact .unlabelled hwidth (by simpa using hempty)
  next hempty =>
  split at h
  next hread =>
    obtain rfl := Except.error.inj h
    exact .notInteger hwidth rfl (by simpa using hempty) (by simpa using hread)
  next hread =>
  split at h
  next col hcol =>
    obtain rfl := Except.error.inj h
    obtain ⟨hlt, hcell, hbefore⟩ := List.findIdx?_eq_some_iff_getElem.1 hcol
    refine .empty hwidth rfl (by simpa [Option.isSome_iff_ne_none] using hread) ?_ ?_
    · rw [List.getElem?_eq_getElem hlt]
      exact congrArg some (by simpa using hcell)
    · intro k hk hcell
      obtain ⟨_, hcell⟩ := List.getElem?_eq_some_iff.1 hcell
      simpa [hcell] using hbefore k hk
  next => cases h

/-- A row with a defect fails the check with it, so a row has at most one. -/
theorem RowDefect.rowLabel (h : RowDefect width row fields e) :
    Grid.rowLabel width row fields = .error e := by
  have hcons : ∀ {label}, fields[0]? = some label → ∃ rest, fields = label :: rest := by
    intro label hlabel
    exact List.head?_eq_some_iff.1 (List.head?_eq_getElem? ▸ hlabel)
  unfold Grid.rowLabel
  cases h with
  | ragged hwidth => rw [if_pos hwidth]
  | unlabelled hwidth hlabel =>
      obtain ⟨rest, rfl⟩ := hcons hlabel
      simp [hwidth]
  | notInteger hwidth hlabel hempty hread =>
      obtain ⟨rest, rfl⟩ := hcons hlabel
      simp [hwidth, hempty, hread]
  | @empty label col hwidth hlabel hread hcell hfirst =>
      have hcol : fields.findIdx? String.isEmpty = some col := by
        obtain ⟨hlt, hcell⟩ := List.getElem?_eq_some_iff.1 hcell
        refine List.findIdx?_eq_some_iff_getElem.2 ⟨hlt, by simp [hcell], fun k hk hempty => ?_⟩
        exact hfirst k hk (List.getElem?_eq_some_iff.2 ⟨by omega, by simpa using hempty⟩)
      have hempty : label.isEmpty = false := by
        rw [String.isEmpty_eq_false_iff]
        rintro rfl
        cases hread
      rw [if_neg (not_not.2 hwidth)]
      obtain ⟨rest, rfl⟩ := hcons hlabel
      simp only [hempty, hcol, Option.isNone_eq_false_iff.2 hread]
      rfl

end

theorem exists_rowLabel_of_no_lineDefect {lines : List String} {width row : Nat} {line : String}
    (hline : lines[row]? = some line) (hclean : ∀ e, ¬ LineDefect lines width row e) :
    ∃ label, Grid.rowLabel width row (Text.fields line) = .ok label := by
  cases hr : Grid.rowLabel width row (Text.fields line) with
  | ok label => exact ⟨label, rfl⟩
  | error e =>
      have hdefect := rowDefect_of_rowLabel (Text.fields_ne_nil line) hr
      exact absurd ⟨line, hline, hdefect⟩ (hclean e)

/-- **Appending the rows finds the first defect of a line.** -/
theorem addLines_reports {lines rest : List String} {width row : Nat} (g : Grid)
    (hrest : lines.drop row = rest) :
    Reports (LineDefect lines width) row (addLines width rest row g) := by
  induction rest generalizing row g with
  | nil =>
      have hlength : lines.length ≤ row := List.drop_eq_nil_iff.1 hrest
      rintro k e hk ⟨line, hline, -⟩
      rw [List.getElem?_eq_none (by omega)] at hline
      cases hline
  | cons line rest ih =>
      obtain ⟨hline, hdrop⟩ := getElem?_of_drop_eq_cons hrest
      rw [addLines]
      dsimp only
      split
      next e he =>
        exact reports_of_defect ⟨line, hline, rowDefect_of_rowLabel (Text.fields_ne_nil line) he⟩
      next label hlabel =>
        refine (ih _ hdrop).step ?_
        rintro e ⟨line', hline', hdefect⟩
        obtain rfl := Option.some.inj (hline.symm.trans hline')
        rw [hdefect.rowLabel] at hlabel
        cases hlabel

/-! ### Lines -/

section

variable {lines : List String} {e e' : LayoutError}

/-- The columns are searched, then the rows. -/
theorem firstDefect_or_noDefect (lines : List String) :
    (∃ e, ofLines lines = .error e ∧ FirstDefect lines e) ∨
      ∃ g, ofLines lines = .ok g ∧ NoDefect lines := by
  cases lines with
  | nil => exact .inl ⟨_, rfl, .noLines rfl⟩
  | cons header rest =>
      have hcolumns := indexColumns_reports List.drop_one (Nat.le_refl 1)
        (indexes_empty (Text.fields header))
      simp only [ofLines]
      split
      next e he =>
        rw [he] at hcolumns
        exact .inl ⟨e, rfl, .column rfl hcolumns⟩
      next index hindex =>
        rw [hindex] at hcolumns
        generalize hr : addLines (Text.fields header).length rest 1 _ = r
        have hrows : Reports (LineDefect (header :: rest) (Text.fields header).length) 1 r :=
          hr ▸ addLines_reports _ rfl
        cases r with
        | error e => exact .inl ⟨e, rfl, .row rfl hcolumns hrows⟩
        | ok g => exact .inr ⟨g, rfl, header, rest, rfl, hcolumns, hrows⟩

theorem NoDefect.not_firstDefect (h : NoDefect lines) : ¬ FirstDefect lines e := by
  obtain ⟨header, rest, rfl, hcolumns, hrows⟩ := h
  intro hfirst
  cases hfirst with
  | noLines h => cases h
  | column h he =>
      obtain ⟨rfl, rfl⟩ := List.cons.inj h
      exact he.not_noneFrom hcolumns
  | row h _ he =>
      obtain ⟨rfl, rfl⟩ := List.cons.inj h
      exact he.not_noneFrom hrows

/-- Lines have at most one first defect. -/
theorem FirstDefect.unique (h : FirstDefect lines e) (h' : FirstDefect lines e') : e = e' := by
  cases h with
  | noLines h =>
      cases h' with
      | noLines => rfl
      | column h' => cases h.symm.trans h'
      | row h' => cases h.symm.trans h'
  | column h he =>
      cases h' with
      | noLines h' => cases h.symm.trans h'
      | column h' he' =>
          obtain ⟨rfl, -⟩ := List.cons.inj (h.symm.trans h')
          obtain ⟨k, hdefect, hdefect', hbefore⟩ := he.same_index he'
          exact hdefect.unique hdefect' fun j e hj hlt => hbefore j e hj hlt
      | row h' hcolumns =>
          obtain ⟨rfl, -⟩ := List.cons.inj (h.symm.trans h')
          exact absurd hcolumns he.not_noneFrom
  | row h hcolumns he =>
      cases h' with
      | noLines h' => cases h.symm.trans h'
      | column h' he' =>
          obtain ⟨rfl, -⟩ := List.cons.inj (h.symm.trans h')
          exact absurd hcolumns he'.not_noneFrom
      | row h' _ he' =>
          obtain ⟨rfl, -⟩ := List.cons.inj (h.symm.trans h')
          obtain ⟨k, ⟨line, hline, hdefect⟩, ⟨line', hline', hdefect'⟩, -⟩ := he.same_index he'
          obtain rfl := Option.some.inj (hline.symm.trans hline')
          exact Except.error.inj (hdefect.rowLabel.symm.trans hdefect'.rowLabel)

theorem ofLines_eq_error_iff : ofLines lines = .error e ↔ FirstDefect lines e := by
  rcases firstDefect_or_noDefect lines with ⟨e', hr, hfirst⟩ | ⟨g, hr, hnone⟩
  · rw [hr]
    constructor
    · intro h
      obtain rfl := Except.error.inj h
      exact hfirst
    · intro h
      rw [hfirst.unique h]
  · rw [hr]
    exact iff_of_false (by simp) hnone.not_firstDefect

theorem exists_ofLines_iff : (∃ g, ofLines lines = .ok g) ↔ NoDefect lines := by
  rcases firstDefect_or_noDefect lines with ⟨e, hr, hfirst⟩ | ⟨g, hr, hnone⟩
  · rw [hr]
    exact iff_of_false (by simp) fun hnone => hnone.not_firstDefect hfirst
  · exact iff_of_true ⟨g, hr⟩ hnone

end

section

variable {header : String} {rest : List String}

/-- Of the columns before a repeated label exactly one has that label. -/
theorem FirstDefect.repeated {label : String} {first col : Nat}
    (h : FirstDefect (header :: rest) (.repeatedColumnLabel label first col)) :
    (Text.fields header)[col]? = some label ∧ 1 ≤ first ∧ first < col ∧
      ∀ k, 1 ≤ k → k < col → ((Text.fields header)[k]? = some label ↔ k = first) := by
  cases h with
  | row _ _ he =>
      obtain ⟨_, _, ⟨_, _, hdefect⟩, _⟩ := he
      cases hdefect
  | column h he =>
      obtain ⟨rfl, -⟩ := List.cons.inj h
      obtain ⟨k, hk, hdefect, hbefore⟩ := he
      cases hdefect with
      | repeated hlabel hkind hfirst hlt hsame =>
          refine ⟨hlabel, hfirst, hlt, fun k hk hkcol => ⟨fun hk' => ?_, fun hk' => hk' ▸ hsame⟩⟩
          exact eq_of_no_columnDefect hbefore hkind hk hfirst hkcol hlt hk' hsame

/-- Lines without a defect fit together. -/
theorem NoDefect.fit (h : NoDefect (header :: rest)) : Fit header rest := by
  obtain ⟨_, _, heq, hcolumns, hrows⟩ := h
  obtain ⟨rfl, rfl⟩ := List.cons.inj heq
  have hcolumn : ∀ {k : Nat} {label : String}, (Text.fields header).tail[k]? = some label →
      (Text.fields header)[k + 1]? = some label := fun hk => List.getElem?_tail.symm.trans hk
  have hkind : ∀ {k : Nat} {label : String}, (Text.fields header).tail[k]? = some label →
      IsColumnLabel label := fun hk =>
    isColumnLabel_of_no_columnDefect (hcolumn hk) fun e => hcolumns _ e (by omega)
  have hrow : ∀ line ∈ rest, ∃ row label,
      Grid.rowLabel (Text.fields header).length row (Text.fields line) = .ok label := by
    intro line hline
    obtain ⟨k, hk⟩ := List.getElem?_of_mem hline
    have hline : (header :: rest)[k + 1]? = some line := hk
    exact ⟨k + 1, exists_rowLabel_of_no_lineDefect hline fun e => hrows _ e (by omega)⟩
  constructor
  case columnLabel =>
    intro label hlabel
    obtain ⟨k, hk⟩ := List.getElem?_of_mem hlabel
    exact hkind hk
  case nodup =>
    refine List.nodup_iff_getElem?_ne_getElem?.2 fun i j hij hj heq => ?_
    have hlabel := List.getElem?_eq_getElem hj
    have hij' : i + 1 = j + 1 := eq_of_no_columnDefect (fun k e hk _ => hcolumns k e hk)
      (hkind hlabel) (by omega) (by omega) (by omega) (Nat.lt_succ_self (j + 1))
      (hcolumn (heq.trans hlabel)) (hcolumn hlabel)
    omega
  case width =>
    intro line hline
    obtain ⟨row, label, hlabel⟩ := hrow line hline
    exact (rowLabel_eq_ok_iff.1 hlabel).1
  case rowLabel =>
    intro line hline
    obtain ⟨row, label, hlabel⟩ := hrow line hline
    obtain ⟨-, hfirst, hread, -⟩ := rowLabel_eq_ok_iff.1 hlabel
    exact ⟨label, hfirst, hread⟩
  case notEmpty =>
    intro line hline
    obtain ⟨row, label, hlabel⟩ := hrow line hline
    exact (rowLabel_eq_ok_iff.1 hlabel).2.2.2

/-- Lines that fit together have no defect. -/
theorem Fit.noDefect (h : Fit header rest) : NoDefect (header :: rest) := by
  refine ⟨header, rest, rfl, ?_, ?_⟩
  · intro col e hcol hdefect
    obtain ⟨j, rfl⟩ : ∃ j, col = j + 1 := ⟨col - 1, by omega⟩
    obtain ⟨label, hlabel⟩ := hdefect.exists_label
    rw [← List.getElem?_tail] at hlabel
    have hkind := h.columnLabel label (List.mem_of_getElem? hlabel)
    refine not_columnDefect (List.getElem?_tail.symm.trans hlabel) hkind ?_ e hdefect
    intro first hfirst hlt hsame
    obtain ⟨i, rfl⟩ : ∃ i, first = i + 1 := ⟨first - 1, by omega⟩
    rw [← List.getElem?_tail] at hsame
    obtain ⟨hj, -⟩ := List.getElem?_eq_some_iff.1 hlabel
    exact List.nodup_iff_getElem?_ne_getElem?.1 h.nodup i j (by omega) hj (hsame.trans hlabel.symm)
  · intro row e hrow ⟨line, hline, hdefect⟩
    obtain ⟨k, rfl⟩ : ∃ k, row = k + 1 := ⟨row - 1, by omega⟩
    have hline : line ∈ rest := List.mem_of_getElem? (by simpa using hline)
    obtain ⟨label, hfirst, hread⟩ := h.rowLabel line hline
    have hlabel := hdefect.rowLabel
    rw [rowLabel_eq_ok_iff.2 ⟨h.width line hline, hfirst, hread, h.notEmpty line hline⟩] at hlabel
    cases hlabel

end

/-- **Loading reports the first defect, and accepts exactly the lines that have none.** -/
theorem ofLines_reports (lines : List String) :
    (∀ e, ofLines lines = .error e ↔ FirstDefect lines e) ∧
      ((∃ g, ofLines lines = .ok g) ↔ NoDefect lines) ∧
      (NoDefect lines ↔ ∃ header rest, lines = header :: rest ∧ Fit header rest) ∧
      ∀ header rest label first col, lines = header :: rest →
        ofLines lines = .error (.repeatedColumnLabel label first col) →
        (Text.fields header)[col]? = some label ∧ 1 ≤ first ∧ first < col ∧
          ∀ k, 1 ≤ k → k < col → ((Text.fields header)[k]? = some label ↔ k = first) := by
  refine ⟨fun e => ofLines_eq_error_iff, exists_ofLines_iff, ?_, ?_⟩
  · constructor
    · intro h
      obtain ⟨header, rest, rfl, -⟩ := id h
      exact ⟨header, rest, rfl, h.fit⟩
    · rintro ⟨header, rest, rfl, h⟩
      exact h.noDefect
  · rintro header rest label first col rfl h
    exact (ofLines_eq_error_iff.1 h).repeated

/-- The columns come first, although the row is defective too. -/
example : ofLines ["#,A,B,A", "x"] = .error (.repeatedColumnLabel "A" 1 3) := rfl

end Grid

end FormulaGrid
