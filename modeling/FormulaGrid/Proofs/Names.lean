/-
**A name stands for one cell, and a cell has one name.**

A name is a column label and a row label without a mark between them.  A column label holds no
digit, and a row label is a run of digits with at most one sign before it.  So there are two places
at most where a name can be cut, before its last run of digits and before a sign that stands there.
Where both cuts give known labels, the one before the sign counts.

Main definitions:

* `Text.IsSign` — what may stand before the digits of an integer;
* `Grid.CutsAt` — the two parts of a name are known labels.

Main results:

* `Text.append_inj_of_digits` — a text splits in one way into what has no digits and digits;
* `Grid.WellFormed.adjacent_of_cutsAt` — **two cuts of a name lie on the two sides of a sign**;
* `Grid.WellFormed.nameOf?_of_find` — **what a name stands for has that name**;
* `Grid.WellFormed.find_name_iff` — when the name of a cell stands for that cell;
* `Grid.WellFormed.read?_name_isSome_iff` — when the name of a cell is an integer;
* `Grid.names_of_ofLines` — all of it for a grid that was loaded.
-/

import FormulaGrid.Proofs.Loading

set_option relaxedAutoImplicit false
set_option autoImplicit false

namespace FormulaGrid

/-! ### Integers as text -/

namespace Text

/-- What may stand before the digits of an integer. -/
def IsSign (sign : List Char) : Prop := sign = [] ∨ sign = ['+'] ∨ sign = ['-']

theorem digits?_isSome_iff {cs : List Char} :
    (digits? cs).isSome = true ↔ cs ≠ [] ∧ ∀ c ∈ cs, c.isDigit = true := by
  unfold digits?
  split
  · next h => simpa [List.all_eq_true] using h
  · next h => simpa [List.all_eq_true] using h

/-- An integer is a run of digits with at most one sign before it. -/
theorem exists_of_integer? {cs : List Char} (h : (integer? cs).isSome = true) :
    ∃ sign digits, cs = sign ++ digits ∧ IsSign sign ∧ digits ≠ [] ∧
      ∀ c ∈ digits, c.isDigit = true := by
  unfold integer? at h
  split at h
  · next ds =>
    rw [Option.isSome_map, digits?_isSome_iff] at h
    exact ⟨['+'], ds, rfl, .inr (.inl rfl), h⟩
  · next ds =>
    rw [Option.isSome_map, digits?_isSome_iff] at h
    exact ⟨['-'], ds, rfl, .inr (.inr rfl), h⟩
  · rw [Option.isSome_map, digits?_isSome_iff] at h
    exact ⟨[], cs, rfl, .inl rfl, h⟩

theorem IsSign.isDigit {sign : List Char} (h : IsSign sign) : ∀ c ∈ sign, c.isDigit = false := by
  rcases h with rfl | rfl | rfl <;> simp

theorem IsSign.length_le {sign : List Char} (h : IsSign sign) : sign.length ≤ 1 := by
  rcases h with rfl | rfl | rfl <;> decide

/-- A text splits in one way into a part without digits and a part of digits. -/
theorem append_inj_of_digits {a a' ds ds' : List Char} (ha : ∀ c ∈ a, c.isDigit = false)
    (ha' : ∀ c ∈ a', c.isDigit = false) (hds : ∀ c ∈ ds, c.isDigit = true)
    (hds' : ∀ c ∈ ds', c.isDigit = true) (h : a ++ ds = a' ++ ds') : a = a' ∧ ds = ds' := by
  have htake : ∀ {a ds : List Char}, (∀ c ∈ a, c.isDigit = false) →
      (∀ c ∈ ds, c.isDigit = true) → (a ++ ds).takeWhile (fun c => !c.isDigit) = a := by
    intro a ds ha hds
    rw [List.takeWhile_append_of_pos fun c hc => by simp [ha c hc]]
    have hstop : ds.takeWhile (fun c => !c.isDigit) = [] := by
      cases ds with
      | nil => rfl
      | cons c ds => simp [hds c (List.mem_cons_self ..)]
    rw [hstop, List.append_nil]
  have heq : a = a' := by rw [← htake ha hds, h, htake ha' hds']
  subst heq
  exact ⟨rfl, List.append_cancel_left h⟩

end Text

namespace Value

theorem ofInt?_isSome_iff {n : Int} :
    (ofInt? n).isSome = true ↔ -9223372036854775808 ≤ n ∧ n ≤ 9223372036854775807 := by
  unfold ofInt?
  split
  · next h => simpa using h
  · next h => simpa using h

theorem integer?_isSome_of_read? {text : String} (h : (read? text).isSome = true) :
    (Text.integer? text.toList).isSome = true := by
  unfold read? at h
  cases hn : Text.integer? text.toList with
  | none => simp [hn] at h
  | some n => rfl

/-- If an integer is put behind a text without digits and the whole is an integer, that text is a
sign, and the integer has none of its own. -/
theorem sign_of_read?_append {column row : String} (hne : column ≠ "")
    (hplain : ∀ c ∈ column.toList, c.isDigit = false) (hrow : (read? row).isSome = true)
    (h : (read? (column ++ row)).isSome = true) :
    (column = "+" ∨ column = "-") ∧ row.toList.head? ≠ some '+' ∧ row.toList.head? ≠ some '-' := by
  obtain ⟨sign, digits, hdigits, hsign, hdne, hall⟩ :=
    Text.exists_of_integer? (integer?_isSome_of_read? hrow)
  obtain ⟨sign', digits', hdigits', hsign', -, hall'⟩ :=
    Text.exists_of_integer? (integer?_isSome_of_read? h)
  rw [String.toList_append, hdigits, ← List.append_assoc] at hdigits'
  have hleft : ∀ c ∈ column.toList ++ sign, c.isDigit = false := by
    intro c hc
    rcases List.mem_append.1 hc with hc | hc
    · exact hplain c hc
    · exact hsign.isDigit c hc
  obtain ⟨heq, -⟩ := Text.append_inj_of_digits hleft hsign'.isDigit hall hall' hdigits'
  have hne' : column.toList ≠ [] := by simpa using hne
  have hpos := List.length_pos_iff.2 hne'
  -- the sign is the whole of the left part, and none is left for the right one
  have hlength := congrArg List.length heq
  have hle := hsign'.length_le
  rw [List.length_append] at hlength
  obtain rfl : sign = [] := List.length_eq_zero_iff.1 (by omega)
  rw [List.append_nil] at heq
  refine ⟨?_, ?_⟩
  · rcases hsign' with rfl | rfl | rfl
    · exact absurd heq hne'
    · exact .inl (String.toList_inj.1 heq)
    · exact .inr (String.toList_inj.1 heq)
  · obtain ⟨c, cs, rfl⟩ := List.exists_cons_of_ne_nil hdne
    have hc := hall c (List.mem_cons_self ..)
    rw [hdigits]
    constructor
    · rintro ⟨⟩
      cases hc
    · rintro ⟨⟩
      cases hc

/-- A sign can be put before an integer that has none. -/
theorem read?_append_of_sign {column row : String} (hcolumn : column = "+" ∨ column = "-")
    (hrow : (read? row).isSome = true)
    (hhead : row.toList.head? ≠ some '+' ∧ row.toList.head? ≠ some '-') :
    (read? (column ++ row)).isSome = true := by
  obtain ⟨sign, digits, hdigits, hsign, hdne, hall⟩ :=
    Text.exists_of_integer? (integer?_isSome_of_read? hrow)
  obtain rfl : sign = [] := by
    rcases hsign with rfl | rfl | rfl
    · rfl
    · exact absurd (by simp [hdigits]) hhead.1
    · exact absurd (by simp [hdigits]) hhead.2
  obtain ⟨n, hn⟩ := Option.isSome_iff_exists.1 (Text.digits?_isSome_iff.2 ⟨hdne, hall⟩)
  obtain ⟨c, cs, rfl⟩ := List.exists_cons_of_ne_nil hdne
  -- the digits alone are in range, and with a sign they are so too
  have hrange : (ofInt? (Int.ofNat n)).isSome = true := by
    have hdigit := hall c (List.mem_cons_self ..)
    rw [read?, hdigits, List.nil_append, Text.integer?_of_isDigit_head hdigit, hn] at hrow
    exact hrow
  rw [ofInt?_isSome_iff] at hrange
  rcases hcolumn with rfl | rfl
  · have hint : Text.integer? ("+" ++ row).toList = some (Int.ofNat n) := by
      rw [String.toList_append, hdigits]
      simp [Text.integer?, hn]
    rw [read?, hint, Option.bind_some, ofInt?_isSome_iff]
    exact hrange
  · have hint : Text.integer? ("-" ++ row).toList = some (-Int.ofNat n) := by
      rw [String.toList_append, hdigits]
      simp [Text.integer?, hn]
    rw [read?, hint, Option.bind_some, ofInt?_isSome_iff]
    have hnonneg : 0 ≤ Int.ofNat n := Int.natCast_nonneg n
    omega

end Value

namespace Grid

/-! ### Cuts of a name -/

/-- The name, cut after `i` characters, has a known column label on the left and a known row label
on the right. -/
def CutsAt (g : Grid) (name : String) (i : Nat) : Prop :=
  String.ofList (name.toList.take i) ∈ g.columnOf ∧ String.ofList (name.toList.drop i) ∈ g.rowOf

instance (g : Grid) (name : String) (i : Nat) : Decidable (g.CutsAt name i) :=
  inferInstanceAs (Decidable (_ ∧ _))

/-- The column label ends in a sign, and both parts of the name are labels too if that sign goes
with the row label. -/
def SplitsEarlier (g : Grid) (column row : String) : Prop :=
  ∃ column' sign, (sign = "+" ∨ sign = "-") ∧ column = column' ++ sign ∧
    (∃ col, col ≠ 0 ∧ g.get? ⟨0, col⟩ = some column') ∧
    ∃ r, r ≠ 0 ∧ g.get? ⟨r, 0⟩ = some (sign ++ row)

/-- A name stands for the cell of its first cut from the left that has one. -/
theorem find_eq_ok_iff {g : Grid} {name : String} {p : Position} :
    g.find name = .ok p ↔ ∃ i, 0 < i ∧ i < name.toList.length ∧
      g.cutAt? name.toList i = some p ∧ ∀ j, 0 < j → j < i → g.cutAt? name.toList j = none := by
  have hfind : g.find name = .ok p ↔
      (List.range' 1 (name.toList.length - 1)).findSome? (g.cutAt? name.toList) = some p := by
    unfold find
    split
    · next q hq => simp [hq]
    · next hq => simp [hq]
  rw [hfind, List.findSome?_eq_some_iff]
  constructor
  · rintro ⟨l, i, r, hsplit, hi, hl⟩
    obtain ⟨k, hk, rfl, hr⟩ := List.range'_eq_append_iff.1 hsplit
    obtain ⟨rfl, hpos, -⟩ := List.range'_eq_cons_iff.1 hr.symm
    refine ⟨1 + k, by omega, by omega, by simpa using hi, fun j hj hlt => hl j ?_⟩
    rw [List.mem_range'_1]
    omega
  · rintro ⟨i, hpos, hlt, hi, hj⟩
    refine ⟨List.range' 1 (i - 1), i, List.range' (i + 1) (name.toList.length - 1 - i), ?_, hi, ?_⟩
    · rw [List.range'_eq_append_iff]
      refine ⟨i - 1, by omega, rfl, ?_⟩
      rw [eq_comm, List.range'_eq_cons_iff]
      exact ⟨by omega, by omega, by congr 1; omega⟩
    · intro j hmem
      rw [List.mem_range'_1] at hmem
      exact hj j (by omega) (by omega)

theorem nameOf?_eq_some_iff {g : Grid} {p : Position} {name : String} :
    g.nameOf? p = some name ↔ p.row ≠ 0 ∧ p.col ≠ 0 ∧ ∃ column row,
      g.get? ⟨0, p.col⟩ = some column ∧ g.get? ⟨p.row, 0⟩ = some row ∧ name = column ++ row := by
  unfold nameOf?
  split
  · next h =>
    have h : p.row = 0 ∨ p.col = 0 := by simpa [Position.isLabel] using h
    constructor
    · rintro ⟨⟩
    · rintro ⟨hrow, hcol, -⟩
      exact (h.elim hrow hcol).elim
  · next h =>
    have h : p.row ≠ 0 ∧ p.col ≠ 0 := by simpa [Position.isLabel] using h
    simp only [Option.bind_eq_some_iff, Option.map_eq_some_iff]
    constructor
    · rintro ⟨column, hcolumn, row, hrow, rfl⟩
      exact ⟨h.1, h.2, column, row, hcolumn, hrow, rfl⟩
    · rintro ⟨-, -, column, row, hcolumn, hrow, rfl⟩
      exact ⟨column, hcolumn, row, hrow, rfl⟩

/-- The name of a cell can be cut behind the column label. -/
theorem cutsAt_name {g : Grid} {column row : String} (hcolumn : column ∈ g.columnOf)
    (hrow : row ∈ g.rowOf) : g.CutsAt (column ++ row) column.toList.length := by
  simpa [CutsAt] using And.intro hcolumn hrow

/-- At most two numbers satisfy a property of which any two are neighbours. -/
theorem length_filter_range_le_two {P : Nat → Prop} [DecidablePred P]
    (h : ∀ i j, i < j → P i → P j → j = i + 1) (n : Nat) :
    ((List.range n).filter fun i => P i).length ≤ 2 := by
  have hsorted : ((List.range n).filter fun i => P i).Pairwise (· < ·) :=
    List.pairwise_lt_range.filter _
  have hall : ∀ i ∈ (List.range n).filter fun i => P i, P i := fun i hi => by
    simpa using (List.mem_filter.1 hi).2
  match hl : (List.range n).filter fun i => P i with
  | [] | [_] | [_, _] => simp
  | i :: j :: k :: rest =>
      rw [hl] at hsorted hall
      simp only [List.pairwise_cons, List.mem_cons, forall_eq_or_imp] at hsorted hall
      have hij := h i j hsorted.1.1 hall.1 hall.2.1
      have hik := h i k hsorted.1.2.1 hall.1 hall.2.2.1
      have hjk := hsorted.2.1.1
      omega

namespace WellFormed

variable {g : Grid} (h : g.WellFormed)

include h

theorem mem_columnOf_iff {label : String} :
    label ∈ g.columnOf ↔ ∃ col, col ≠ 0 ∧ g.get? ⟨0, col⟩ = some label := by
  rw [Std.ExtTreeMap.mem_iff_isSome_getElem?, Option.isSome_iff_exists]
  simp only [h.columnOf]

/-- Of the rows with a label there is a last one. -/
theorem mem_rowOf_iff {label : String} :
    label ∈ g.rowOf ↔ ∃ row, row ≠ 0 ∧ g.get? ⟨row, 0⟩ = some label := by
  rw [Std.ExtTreeMap.mem_iff_isSome_getElem?, Option.isSome_iff_exists]
  constructor
  · rintro ⟨row, hrow⟩
    obtain ⟨hne, hlabel, -⟩ := (h.rowOf label row).1 hrow
    exact ⟨row, hne, hlabel⟩
  · rintro ⟨row, hne, hlabel⟩
    -- induction on the number of rows below
    induction hk : g.rows.size - row using Nat.strongRecOn generalizing row with
    | _ k ih =>
        by_cases hlast : ∃ later, row < later ∧ g.get? ⟨later, 0⟩ = some label
        · obtain ⟨later, hlt, hlater⟩ := hlast
          have hin := (get?_isSome_iff (g := g) (p := ⟨later, 0⟩)).1 (by rw [hlater]; rfl)
          exact ih (g.rows.size - later) (by dsimp only at hin; omega) later (by omega) hlater rfl
        · push Not at hlast
          exact ⟨row, (h.rowOf label row).2 ⟨hne, hlabel, hlast⟩⟩

theorem isColumnLabel_of_mem {label : String} (hmem : label ∈ g.columnOf) :
    IsColumnLabel label := by
  obtain ⟨col, hcol, hlabel⟩ := h.mem_columnOf_iff.1 hmem
  exact h.columnLabel col label hcol hlabel

/-- A row label is a run of digits with at most one sign before it. -/
theorem exists_of_mem_rowOf {label : String} (hmem : label ∈ g.rowOf) :
    ∃ sign digits, label.toList = sign ++ digits ∧ Text.IsSign sign ∧ digits ≠ [] ∧
      ∀ c ∈ digits, c.isDigit = true := by
  obtain ⟨row, hrow, hlabel⟩ := h.mem_rowOf_iff.1 hmem
  exact Text.exists_of_integer? (Value.integer?_isSome_of_read? (h.rowLabel row label hrow hlabel))

theorem cutAt?_eq_some_iff {name : String} {i : Nat} {p : Position} :
    g.cutAt? name.toList i = some p ↔
      g.columnOf[String.ofList (name.toList.take i)]? = some p.col ∧
        g.rowOf[String.ofList (name.toList.drop i)]? = some p.row := by
  have hcolumn : ∀ label col, dataIndex? g.columnOf label = some col ↔
      g.columnOf[label]? = some col := by
    intro label col
    simp only [dataIndex?, Option.filter_eq_some_iff, decide_eq_true_eq, h.columnOf]
    tauto
  have hrow : ∀ label row, dataIndex? g.rowOf label = some row ↔
      g.rowOf[label]? = some row := by
    intro label row
    simp only [dataIndex?, Option.filter_eq_some_iff, decide_eq_true_eq, h.rowOf]
    tauto
  simp only [cutAt?, Option.bind_eq_some_iff, Option.map_eq_some_iff, hcolumn, hrow]
  constructor
  · rintro ⟨col, hcol, row, hrow, rfl⟩
    exact ⟨hcol, hrow⟩
  · rintro ⟨hcol, hrow⟩
    exact ⟨p.col, hcol, p.row, hrow, rfl⟩

theorem cutAt?_eq_none_iff {name : String} {i : Nat} :
    g.cutAt? name.toList i = none ↔ ¬ g.CutsAt name i := by
  rw [← Option.not_isSome_iff_eq_none, not_iff_not, Option.isSome_iff_exists]
  simp only [h.cutAt?_eq_some_iff, CutsAt, Std.ExtTreeMap.mem_iff_isSome_getElem?,
    Option.isSome_iff_exists]
  constructor
  · rintro ⟨p, hcol, hrow⟩
    exact ⟨⟨_, hcol⟩, ⟨_, hrow⟩⟩
  · rintro ⟨⟨col, hcol⟩, ⟨row, hrow⟩⟩
    exact ⟨⟨row, col⟩, hcol, hrow⟩

/-- A cut has something on both sides, and splits the name before its digits or before a sign that
stands there. -/
theorem exists_digits_of_cutsAt {name : String} {i : Nat} (hcut : g.CutsAt name i) :
    0 < i ∧ i < name.toList.length ∧ ∃ sign digits,
      name.toList.drop i = sign ++ digits ∧ Text.IsSign sign ∧
      (∀ c ∈ name.toList.take i ++ sign, c.isDigit = false) ∧ ∀ c ∈ digits, c.isDigit = true := by
  obtain ⟨hne, hcolumn⟩ := h.isColumnLabel_of_mem hcut.1
  obtain ⟨sign, digits, hrow, hsign, hdigits, hall⟩ := h.exists_of_mem_rowOf hcut.2
  rw [String.toList_ofList] at hcolumn hrow
  refine ⟨?_, ?_, sign, digits, hrow, hsign, ?_, hall⟩
  · rcases Nat.eq_zero_or_pos i with rfl | hpos
    · exact absurd rfl hne
    · exact hpos
  · by_contra hle
    rw [List.drop_eq_nil_of_le (by omega)] at hrow
    exact hdigits (List.append_eq_nil_iff.1 hrow.symm).2
  · intro c hc
    rcases List.mem_append.1 hc with hc | hc
    · exact hcolumn c hc
    · exact hsign.isDigit c hc

/-- **Two cuts of a name lie on the two sides of a sign.** -/
theorem adjacent_of_cutsAt {name : String} {i j : Nat} (hij : i < j) (hi : g.CutsAt name i)
    (hj : g.CutsAt name j) :
    j = i + 1 ∧ (name.toList[i]? = some '+' ∨ name.toList[i]? = some '-') := by
  obtain ⟨-, hilt, sign, digits, hdrop, hsign, hleft, hdigits⟩ := h.exists_digits_of_cutsAt hi
  obtain ⟨-, hjlt, sign', digits', hdrop', hsign', hleft', hdigits'⟩ := h.exists_digits_of_cutsAt hj
  have hname : name.toList.take i ++ sign ++ digits = name.toList.take j ++ sign' ++ digits' := by
    rw [List.append_assoc, List.append_assoc, ← hdrop, ← hdrop', List.take_append_drop,
      List.take_append_drop]
  obtain ⟨heq, -⟩ := Text.append_inj_of_digits hleft hleft' hdigits hdigits' hname
  have hlength := congrArg List.length heq
  rw [List.length_append, List.length_append, List.length_take, List.length_take] at hlength
  have hle := hsign.length_le
  -- the cut further left has the sign on its right, and the other one has none
  have hget : name.toList[i]? = (sign ++ digits)[0]? := by
    rw [← hdrop, List.getElem?_drop, Nat.add_zero]
  refine ⟨by omega, ?_⟩
  rcases hsign with rfl | rfl | rfl
  · simp only [List.length_nil] at hlength
    omega
  · exact .inl hget
  · exact .inr hget

/-! ### Names of cells -/

theorem mem_dataPositions_of_labels {p : Position} (hrow : p.row ≠ 0) (hcol : p.col ≠ 0)
    {column row : String} (hcolumn : g.get? ⟨0, p.col⟩ = some column)
    (hlabel : g.get? ⟨p.row, 0⟩ = some row) : p ∈ g.dataPositions := by
  refine mem_dataPositions.2 ⟨hrow, hcol, get?_isSome_iff.2 ?_⟩
  have hwidth := (get?_isSome_iff (g := g) (p := ⟨0, p.col⟩)).1 (by rw [hcolumn]; rfl)
  have hheight := (get?_isSome_iff (g := g) (p := ⟨p.row, 0⟩)).1 (by rw [hlabel]; rfl)
  rw [h.width p.row hheight.1]
  exact ⟨hheight.1, hwidth.2⟩

theorem exists_labels {p : Position} (hp : p ∈ g.dataPositions) :
    ∃ column row, g.get? ⟨0, p.col⟩ = some column ∧ g.get? ⟨p.row, 0⟩ = some row := by
  obtain ⟨-, hcol, hin⟩ := mem_dataPositions.1 hp
  obtain ⟨hheight, hwidth⟩ := get?_isSome_iff.1 hin
  rw [h.width p.row hheight] at hwidth
  have hcolumn := (get?_isSome_iff (g := g) (p := ⟨0, p.col⟩)).2 ⟨h.hasHeader, hwidth⟩
  have hlabel := (get?_isSome_iff (g := g) (p := ⟨p.row, 0⟩)).2
    ⟨hheight, by rw [h.width p.row hheight]; dsimp only; omega⟩
  exact ⟨_, _, Option.eq_some_of_isSome hcolumn, Option.eq_some_of_isSome hlabel⟩

theorem exists_labels_of_find {name : String} {p : Position} (hfind : g.find name = .ok p) :
    ∃ i, g.cutAt? name.toList i = some p ∧
      g.get? ⟨0, p.col⟩ = some (String.ofList (name.toList.take i)) ∧
      g.get? ⟨p.row, 0⟩ = some (String.ofList (name.toList.drop i)) := by
  obtain ⟨i, -, -, hi, -⟩ := find_eq_ok_iff.1 hfind
  obtain ⟨hcol, hrow⟩ := h.cutAt?_eq_some_iff.1 hi
  exact ⟨i, hi, ((h.columnOf _ _).1 hcol).2, ((h.rowOf _ _).1 hrow).2.1⟩

theorem mem_dataPositions_of_find {name : String} {p : Position} (hfind : g.find name = .ok p) :
    p ∈ g.dataPositions := by
  obtain ⟨hrow, hcol⟩ := ne_zero_of_find hfind
  obtain ⟨i, -, hcolumn, hlabel⟩ := h.exists_labels_of_find hfind
  exact h.mem_dataPositions_of_labels hrow hcol hcolumn hlabel

/-- **What a name stands for has that name.** -/
theorem nameOf?_of_find {name : String} {p : Position} (hfind : g.find name = .ok p) :
    g.nameOf? p = some name := by
  obtain ⟨hrow, hcol⟩ := ne_zero_of_find hfind
  obtain ⟨i, -, hcolumn, hlabel⟩ := h.exists_labels_of_find hfind
  refine nameOf?_eq_some_iff.2 ⟨hrow, hcol, _, _, hcolumn, hlabel, ?_⟩
  apply String.toList_inj.1
  simp

theorem find_inj {name name' : String} {p : Position} (hfind : g.find name = .ok p)
    (hfind' : g.find name' = .ok p) : name' = name :=
  Option.some.inj ((h.nameOf?_of_find hfind').symm.trans (h.nameOf?_of_find hfind))

theorem exists_lookUp_of_find {name : String} {p : Position} (hfind : g.find name = .ok p) :
    ∃ text, g.lookUp name = .ok (p, text) := by
  obtain ⟨-, -, hin⟩ := mem_dataPositions.1 (h.mem_dataPositions_of_find hfind)
  exact ⟨_, lookUp_eq_ok_iff.2 ⟨hfind, Option.eq_some_of_isSome hin⟩⟩

/-- The name of a cell can be cut earlier than behind the column label only by taking a sign over
to the row label. -/
theorem splitsEarlier_iff {column row : String}
    (hcut : g.CutsAt (column ++ row) column.toList.length) :
    g.SplitsEarlier column row ↔
      ∃ j, j < column.toList.length ∧ g.CutsAt (column ++ row) j := by
  constructor
  · rintro ⟨column', sign, hsign, rfl, hcolumn', hrow'⟩
    have hcut' := cutsAt_name (h.mem_columnOf_iff.2 hcolumn') (h.mem_rowOf_iff.2 hrow')
    rw [← String.append_assoc] at hcut'
    refine ⟨column'.toList.length, ?_, hcut'⟩
    rcases hsign with rfl | rfl
    · simp
    · simp
  · rintro ⟨j, hj, hcut'⟩
    obtain ⟨hnext, hsign⟩ := h.adjacent_of_cutsAt hj hcut' hcut
    obtain ⟨c, hc, hget⟩ : ∃ c, (c = '+' ∨ c = '-') ∧ (column ++ row).toList[j]? = some c := by
      rcases hsign with hsign | hsign
      · exact ⟨'+', .inl rfl, hsign⟩
      · exact ⟨'-', .inr rfl, hsign⟩
    have hleft : column.toList = (column ++ row).toList.take j ++ [c] := by
      have htake : (column ++ row).toList.take column.toList.length = column.toList := by simp
      rw [← htake, hnext, List.take_add_one, hget]
      rfl
    have hright : (column ++ row).toList.drop j = c :: row.toList := by
      have hdrop : (column ++ row).toList.drop column.toList.length = row.toList := by simp
      rw [← hdrop, hnext, List.drop_eq_getElem?_toList_append, hget]
      rfl
    obtain ⟨r, hr, hlabel⟩ := h.mem_rowOf_iff.1 hcut'.2
    refine ⟨String.ofList ((column ++ row).toList.take j), String.ofList [c], ?_, ?_,
      h.mem_columnOf_iff.1 hcut'.1, r, hr, hlabel.trans (congrArg some ?_)⟩
    · rcases hc with rfl | rfl
      · exact .inl rfl
      · exact .inr rfl
    · apply String.toList_inj.1
      rw [String.toList_append, String.toList_ofList, String.toList_ofList]
      exact hleft
    · apply String.toList_inj.1
      rw [String.toList_ofList, hright]
      simp

/-- **The name of a cell stands for that cell** unless a later row has the same label, or the name
can be cut earlier. -/
theorem find_name_iff {p : Position} (hp : p ∈ g.dataPositions) {column row : String}
    (hcolumn : g.get? ⟨0, p.col⟩ = some column) (hlabel : g.get? ⟨p.row, 0⟩ = some row) :
    g.find (column ++ row) = .ok p ↔
      (∀ later, p.row < later → g.get? ⟨later, 0⟩ ≠ some row) ∧ ¬ g.SplitsEarlier column row := by
  obtain ⟨hrow0, hcol0, -⟩ := mem_dataPositions.1 hp
  have hindex := (h.columnOf column p.col).2 ⟨hcol0, hcolumn⟩
  have hcut := cutsAt_name (h.mem_columnOf_iff.2 ⟨_, hcol0, hcolumn⟩)
    (h.mem_rowOf_iff.2 ⟨_, hrow0, hlabel⟩)
  have htake : (column ++ row).toList.take column.toList.length = column.toList := by simp
  have hdrop : (column ++ row).toList.drop column.toList.length = row.toList := by simp
  rw [h.splitsEarlier_iff hcut]
  constructor
  · intro hfind
    obtain ⟨i, hpos, hlt, hi, hfirst⟩ := find_eq_ok_iff.1 hfind
    obtain ⟨hcol, hrow⟩ := h.cutAt?_eq_some_iff.1 hi
    -- the cell lies in the column of the label, so the name was cut behind it
    have hleft : column = String.ofList ((column ++ row).toList.take i) :=
      Option.some.inj (hcolumn.symm.trans ((h.columnOf _ _).1 hcol).2)
    obtain rfl : i = column.toList.length := by
      have hlength := congrArg (fun s : String => s.toList.length) hleft
      simp only [String.toList_ofList, List.length_take] at hlength
      omega
    rw [hdrop, String.ofList_toList] at hrow
    refine ⟨((h.rowOf row p.row).1 hrow).2.2, ?_⟩
    rintro ⟨j, hj, hcut'⟩
    obtain ⟨hjpos, -⟩ := h.exists_digits_of_cutsAt hcut'
    exact h.cutAt?_eq_none_iff.1 (hfirst j hjpos hj) hcut'
  · rintro ⟨hlast, hfirst⟩
    obtain ⟨hpos, hlt, -⟩ := h.exists_digits_of_cutsAt hcut
    refine find_eq_ok_iff.2 ⟨_, hpos, hlt, ?_, fun j _ hj => ?_⟩
    · rw [h.cutAt?_eq_some_iff, htake, hdrop, String.ofList_toList, String.ofList_toList]
      exact ⟨hindex, (h.rowOf row p.row).2 ⟨hrow0, hlabel, hlast⟩⟩
    · exact h.cutAt?_eq_none_iff.2 fun hcut' => hfirst ⟨j, hj, hcut'⟩

/-- **The name of a cell is an integer** exactly if its column label is a sign and its row label
has none. -/
theorem read?_name_isSome_iff {col r : Nat} (hcol : col ≠ 0) (hr : r ≠ 0) {column row : String}
    (hcolumn : g.get? ⟨0, col⟩ = some column) (hlabel : g.get? ⟨r, 0⟩ = some row) :
    (Value.read? (column ++ row)).isSome = true ↔
      (column = "+" ∨ column = "-") ∧
        row.toList.head? ≠ some '+' ∧ row.toList.head? ≠ some '-' := by
  obtain ⟨hne, hplain⟩ := h.columnLabel col column hcol hcolumn
  have hread := h.rowLabel r row hr hlabel
  constructor
  · exact Value.sign_of_read?_append hne hplain hread
  · rintro ⟨hsign, hhead⟩
    exact Value.read?_append_of_sign hsign hread hhead

end WellFormed

/-- **Names in a grid that was loaded.**  What a name stands for is a data cell, has that name, and
has no other.  A name can be cut into labels in two places at most, on the two sides of a sign.
The name of a data cell stands for that cell unless a later row has the same label or the name can
be cut before a sign at the end of the column label; and it is an integer exactly if the column
label is a sign and the row label has none. -/
theorem names_of_ofLines {lines : List String} {g : Grid} (h : ofLines lines = .ok g) :
    (∀ name p, g.find name = .ok p →
      p ∈ g.dataPositions ∧ g.nameOf? p = some name ∧ (∃ text, g.lookUp name = .ok (p, text)) ∧
        ∀ name', g.find name' = .ok p → name' = name) ∧
    (∀ name : String,
      ((List.range (name.toList.length + 1)).filter fun i => g.CutsAt name i).length ≤ 2 ∧
        ∀ i j, i < j → g.CutsAt name i → g.CutsAt name j →
          j = i + 1 ∧ (name.toList[i]? = some '+' ∨ name.toList[i]? = some '-')) ∧
    ∀ p ∈ g.dataPositions, ∃ column row,
      g.get? ⟨0, p.col⟩ = some column ∧ g.get? ⟨p.row, 0⟩ = some row ∧
      (g.find (column ++ row) = .ok p ↔
        (∀ later, p.row < later → g.get? ⟨later, 0⟩ ≠ some row) ∧
          ¬ g.SplitsEarlier column row) ∧
      ((Value.read? (column ++ row)).isSome = true ↔
        (column = "+" ∨ column = "-") ∧
          row.toList.head? ≠ some '+' ∧ row.toList.head? ≠ some '-') := by
  obtain ⟨hg, -⟩ := ofLines_eq_ok_iff.1 h
  refine ⟨fun name p hfind => ?_, fun name => ?_, fun p hp => ?_⟩
  · exact ⟨hg.mem_dataPositions_of_find hfind, hg.nameOf?_of_find hfind,
      hg.exists_lookUp_of_find hfind, fun name' => hg.find_inj hfind⟩
  · have hadjacent : ∀ i j, i < j → g.CutsAt name i → g.CutsAt name j →
        j = i + 1 ∧ (name.toList[i]? = some '+' ∨ name.toList[i]? = some '-') :=
      fun i j => hg.adjacent_of_cutsAt
    exact ⟨length_filter_range_le_two (fun i j hij hi hj => (hadjacent i j hij hi hj).1) _,
      hadjacent⟩
  · obtain ⟨hrow, hcol, -⟩ := mem_dataPositions.1 hp
    obtain ⟨column, row, hcolumn, hlabel⟩ := hg.exists_labels hp
    exact ⟨column, row, hcolumn, hlabel, hg.find_name_iff hp hcolumn hlabel,
      hg.read?_name_isSome_iff hcol hrow hcolumn hlabel⟩

/-- The cell of the column `A-` in the row `1` has a name that is cut earlier: before the sign,
into the labels `A` and `-1`. -/
theorem names_of_signed_rows :
    ∃ g, ofLines [",A,A-", "1,1,2", "-1,3,4"] = .ok g ∧ (⟨1, 2⟩ : Position) ∈ g.dataPositions ∧
      g.find "A-1" ≠ .ok ⟨1, 2⟩ ∧ Value.read? "A-1" = none := by
  have hfacts : ((ofLines [",A,A-", "1,1,2", "-1,3,4"]).toOption.map fun g =>
      (g.get? ⟨0, 1⟩, g.get? ⟨0, 2⟩, g.get? ⟨1, 0⟩, g.get? ⟨2, 0⟩, (g.get? ⟨1, 2⟩).isSome)) =
        some (some "A", some "A-", some "1", some "-1", true) := by
    decide +kernel
  rcases h : ofLines [",A,A-", "1,1,2", "-1,3,4"] with e | g
  · rw [h] at hfacts
    cases hfacts
  · rw [h] at hfacts
    obtain ⟨hfirst, hsecond, hone, hminus, hcell⟩ : g.get? ⟨0, 1⟩ = some "A" ∧
        g.get? ⟨0, 2⟩ = some "A-" ∧ g.get? ⟨1, 0⟩ = some "1" ∧ g.get? ⟨2, 0⟩ = some "-1" ∧
        (g.get? ⟨1, 2⟩).isSome = true := by
      simpa [Except.toOption] using hfacts
    have hp : (⟨1, 2⟩ : Position) ∈ g.dataPositions :=
      mem_dataPositions.2 ⟨by decide, by decide, hcell⟩
    obtain ⟨column, row, hcolumn, hrow, hfind, hread⟩ := (names_of_ofLines h).2.2 ⟨1, 2⟩ hp
    obtain rfl := Option.some.inj (hsecond.symm.trans hcolumn)
    obtain rfl := Option.some.inj (hone.symm.trans hrow)
    refine ⟨g, rfl, hp, fun hok => ?_, ?_⟩
    · exact (hfind.1 hok).2 ⟨"A", "-", .inr rfl, rfl, ⟨1, by decide, hfirst⟩, 2, by decide, hminus⟩
    · rw [← Option.not_isSome_iff_eq_none]
      exact fun hsome => absurd (hread.1 hsome).1 (by decide)

end Grid

end FormulaGrid
