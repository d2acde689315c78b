/-
**The worth of operands and cells, said without an evaluator.**

An operand is worth a value if that can be derived: it is the integer, or the name of a cell that
holds the integer, or the name of a cell whose formula has the value on what its operands are
worth.  There is no order of evaluation, no memo and no bound here.  A second relation counts the
height of a derivation, so that bounds on nested formulas can be compared with it.

Main definitions:

* `Formula.WorthBy` — the value of a formula from the values of its operands;
* `Grid.Worth`, `Grid.WorthIn` — what an operand is worth, and with formulas nested at most so
  deep;
* `Grid.CellWorth`, `Grid.CellWorthIn` — the same for the text of a cell;
* `Grid.Awaits` — a cell is worth something only if an operand is, by a lower derivation.

Main results:

* `Grid.worth_iff_exists_worthIn` — a derivation is one of some height;
* `Grid.Worth.unique` — **an operand is worth at most one value**;
* `Grid.Awaits.not_worth` — **a cell that awaits its own name is worth nothing**;
* `Grid.CellWorth.cellWorthIn_length` — **a cell with a worth has it by a derivation no higher than
  the number of formula cells**.
-/

import FormulaGrid.Proofs.Cells
import Mathlib.Data.List.Perm.Subperm
import Mathlib.Data.Nat.Find

set_option relaxedAutoImplicit false
set_option autoImplicit false

namespace FormulaGrid

/-! ### Formulas -/

/-- The formula has the value `v` if `R` gives its operands values of which `v` is the exact
result.  Division drops the fraction, and division by zero has no result. -/
def Formula.WorthBy (f : Formula) (R : String → Value → Prop) (v : Value) : Prop :=
  ∃ a b, R f.left a ∧ R f.right b ∧ f.op.integerResult a.toInt b.toInt = some v.toInt

namespace Formula.WorthBy

variable {f : Formula} {R R' : String → Value → Prop} {v v' : Value}

theorem mono (h : f.WorthBy R v) (hR : ∀ operand u, R operand u → R' operand u) :
    f.WorthBy R' v := by
  obtain ⟨a, b, ha, hb, hv⟩ := h
  exact ⟨a, b, hR _ _ ha, hR _ _ hb, hv⟩

theorem unique (h : f.WorthBy R v) (h' : f.WorthBy R' v')
    (hR : ∀ operand u u', R operand u → R' operand u' → u = u') : v = v' := by
  obtain ⟨a, b, ha, hb, hv⟩ := h
  obtain ⟨a', b', ha', hb', hv'⟩ := h'
  obtain rfl := hR _ _ _ ha ha'
  obtain rfl := hR _ _ _ hb hb'
  exact Value.ext (Option.some.inj (hv.symm.trans hv'))

/-- Both operands of a formula with a value have values. -/
theorem of_mentions (h : f.WorthBy R v) {operand : String} (hm : f.Mentions operand) :
    ∃ u, R operand u := by
  obtain ⟨a, b, ha, hb, -⟩ := h
  rcases hm with rfl | rfl
  · exact ⟨a, ha⟩
  · exact ⟨b, hb⟩

end Formula.WorthBy

namespace Grid

/-! ### Operands -/

/-- What an operand is worth: there is a derivation, built from these rules. -/
inductive Worth (g : Grid) : String → Value → Prop
  /-- An integer is worth itself. -/
  | integer {operand : String} {v : Value} (h : Value.read? operand = some v) : Worth g operand v
  /-- The name of an integer cell is worth that integer. -/
  | cell {operand text : String} {p : Position} {v : Value} (hcell : g.Refers operand p text)
      (h : Value.read? text = some v) : Worth g operand v
  /-- The name of a formula cell is worth the result of the formula. -/
  | formula {operand text : String} {p : Position} {f : Formula} {a b v : Value}
      (hcell : g.Refers operand p text) (hparse : Formula.parse text = .ok f)
      (hleft : Worth g f.left a) (hright : Worth g f.right b)
      (hresult : f.op.integerResult a.toInt b.toInt = some v.toInt) : Worth g operand v

/-- What an operand is worth by a derivation in which at most so many formulas are nested. -/
inductive WorthIn (g : Grid) : Nat → String → Value → Prop
  | integer {n : Nat} {operand : String} {v : Value} (h : Value.read? operand = some v) :
      WorthIn g n operand v
  | cell {n : Nat} {operand text : String} {p : Position} {v : Value}
      (hcell : g.Refers operand p text) (h : Value.read? text = some v) : WorthIn g n operand v
  | formula {n : Nat} {operand text : String} {p : Position} {f : Formula} {a b v : Value}
      (hcell : g.Refers operand p text) (hparse : Formula.parse text = .ok f)
      (hleft : WorthIn g n f.left a) (hright : WorthIn g n f.right b)
      (hresult : f.op.integerResult a.toInt b.toInt = some v.toInt) : WorthIn g (n + 1) operand v

/-- A higher bound admits every derivation. -/
theorem WorthIn.mono {g : Grid} {n m : Nat} {operand : String} {v : Value}
    (h : g.WorthIn n operand v) (hnm : n ≤ m) : g.WorthIn m operand v := by
  induction h generalizing m with
  | integer h => exact .integer h
  | cell hcell h => exact .cell hcell h
  | formula hcell hparse _ _ hresult ihl ihr =>
      obtain ⟨k, rfl⟩ : ∃ k, m = k + 1 := ⟨m - 1, by omega⟩
      exact .formula hcell hparse (ihl (by omega)) (ihr (by omega)) hresult

/-- A derivation is one of some height. -/
theorem worth_iff_exists_worthIn {g : Grid} {operand : String} {v : Value} :
    g.Worth operand v ↔ ∃ n, g.WorthIn n operand v := by
  constructor
  · intro h
    induction h with
    | integer h => exact ⟨0, .integer h⟩
    | cell hcell h => exact ⟨0, .cell hcell h⟩
    | formula hcell hparse _ _ hresult ihl ihr =>
        -- the derivations of the two operands need not have one height
        obtain ⟨n, hn⟩ := ihl
        obtain ⟨m, hm⟩ := ihr
        exact ⟨max n m + 1, .formula hcell hparse (hn.mono (Nat.le_max_left n m))
          (hm.mono (Nat.le_max_right n m)) hresult⟩
  · rintro ⟨n, h⟩
    induction h with
    | integer h => exact .integer h
    | cell hcell h => exact .cell hcell h
    | formula hcell hparse _ _ hresult ihl ihr => exact .formula hcell hparse ihl ihr hresult

theorem WorthIn.worth {g : Grid} {n : Nat} {operand : String} {v : Value}
    (h : g.WorthIn n operand v) : g.Worth operand v :=
  worth_iff_exists_worthIn.2 ⟨n, h⟩

/-- Both operands of a formula can be derived under one bound. -/
theorem worthBy_iff_exists {g : Grid} {f : Formula} {v : Value} :
    f.WorthBy g.Worth v ↔ ∃ n, f.WorthBy (g.WorthIn n) v := by
  constructor
  · rintro ⟨a, b, ha, hb, hv⟩
    obtain ⟨n, hn⟩ := worth_iff_exists_worthIn.1 ha
    obtain ⟨m, hm⟩ := worth_iff_exists_worthIn.1 hb
    exact ⟨max n m, a, b, hn.mono (Nat.le_max_left n m), hm.mono (Nat.le_max_right n m), hv⟩
  · rintro ⟨n, h⟩
    exact h.mono fun _ _ => WorthIn.worth

/-! ### Cells -/

/-- What the text of a cell is worth: an integer itself, and a formula its result. -/
inductive CellWorth (g : Grid) : Position → Value → Prop
  | integer {p : Position} {text : String} {v : Value} (hget : g.get? p = some text)
      (h : Value.read? text = some v) : CellWorth g p v
  | formula {p : Position} {text : String} {f : Formula} {v : Value}
      (hget : g.get? p = some text) (hparse : Formula.parse text = .ok f)
      (h : f.WorthBy g.Worth v) : CellWorth g p v

/-- What the text of a cell is worth with at most so many nested formulas, its own included. -/
inductive CellWorthIn (g : Grid) : Nat → Position → Value → Prop
  | integer {n : Nat} {p : Position} {text : String} {v : Value} (hget : g.get? p = some text)
      (h : Value.read? text = some v) : CellWorthIn g n p v
  | formula {n : Nat} {p : Position} {text : String} {f : Formula} {v : Value}
      (hget : g.get? p = some text) (hparse : Formula.parse text = .ok f)
      (h : f.WorthBy (g.WorthIn n) v) : CellWorthIn g (n + 1) p v

theorem CellWorthIn.mono {g : Grid} {n m : Nat} {p : Position} {v : Value}
    (h : g.CellWorthIn n p v) (hnm : n ≤ m) : g.CellWorthIn m p v := by
  cases h with
  | integer hget h => exact .integer hget h
  | @formula n _ _ _ _ hget hparse h =>
      obtain ⟨k, rfl⟩ : ∃ k, m = k + 1 := ⟨m - 1, by omega⟩
      exact .formula hget hparse (h.mono fun _ _ hw => hw.mono (by omega))

theorem cellWorth_iff_exists_cellWorthIn {g : Grid} {p : Position} {v : Value} :
    g.CellWorth p v ↔ ∃ n, g.CellWorthIn n p v := by
  constructor
  · intro h
    cases h with
    | integer hget h => exact ⟨0, .integer hget h⟩
    | formula hget hparse h =>
        obtain ⟨n, hn⟩ := worthBy_iff_exists.1 h
        exact ⟨n + 1, .formula hget hparse hn⟩
  · rintro ⟨n, h⟩
    cases h with
    | integer hget h => exact .integer hget h
    | formula hget hparse h => exact .formula hget hparse (worthBy_iff_exists.2 ⟨_, h⟩)

section Texts

variable {g : Grid} {p : Position} {text : String} {v : Value}

/-- An integer cell is worth its integer. -/
theorem cellWorthIn_of_integer {u : Value} {n : Nat} (hget : g.get? p = some text)
    (h : Value.read? text = some u) : g.CellWorthIn n p v ↔ u = v := by
  constructor
  · intro hc
    cases hc with
    | integer hget' h' =>
        obtain rfl := Option.some.inj (hget.symm.trans hget')
        exact Option.some.inj (h.symm.trans h')
    | formula hget' hparse _ =>
        obtain rfl := Option.some.inj (hget.symm.trans hget')
        rw [Formula.read?_eq_none_of_parse hparse] at h
        cases h
  · rintro rfl
    exact .integer hget h

/-- A formula cell is worth what its formula is. -/
theorem cellWorthIn_of_formula {f : Formula} {n : Nat} (hget : g.get? p = some text)
    (hparse : Formula.parse text = .ok f) :
    g.CellWorthIn n p v ↔ ∃ m, n = m + 1 ∧ f.WorthBy (g.WorthIn m) v := by
  constructor
  · intro hc
    cases hc with
    | integer hget' h =>
        obtain rfl := Option.some.inj (hget.symm.trans hget')
        rw [Formula.read?_eq_none_of_parse hparse] at h
        cases h
    | @formula m _ _ _ _ hget' hparse' h =>
        obtain rfl := Option.some.inj (hget.symm.trans hget')
        obtain rfl := Except.ok.inj (hparse.symm.trans hparse')
        exact ⟨m, rfl, h⟩
  · rintro ⟨m, rfl, h⟩
    exact .formula hget hparse h

theorem cellWorth_of_formula {f : Formula} (hget : g.get? p = some text)
    (hparse : Formula.parse text = .ok f) : g.CellWorth p v ↔ f.WorthBy g.Worth v := by
  rw [cellWorth_iff_exists_cellWorthIn, worthBy_iff_exists]
  simp only [cellWorthIn_of_formula hget hparse]
  constructor
  · rintro ⟨_, m, -, h⟩
    exact ⟨m, h⟩
  · rintro ⟨m, h⟩
    exact ⟨m + 1, m, rfl, h⟩

theorem CellWorth.read_or_parse (h : g.CellWorth p v) (hget : g.get? p = some text) :
    Value.read? text = some v ∨ ∃ f, Formula.parse text = .ok f := by
  cases h with
  | integer hget' h =>
      obtain rfl := Option.some.inj (hget.symm.trans hget')
      exact .inl h
  | formula hget' hparse _ =>
      obtain rfl := Option.some.inj (hget.symm.trans hget')
      exact .inr ⟨_, hparse⟩

variable {operand : String}

/-- The name of a cell is worth what the cell is. -/
theorem Refers.worthIn_iff {n : Nat} (hcell : g.Refers operand p text) :
    g.WorthIn n operand v ↔ g.CellWorthIn n p v := by
  constructor
  · intro h
    cases h with
    | integer h =>
        rw [hcell.1] at h
        cases h
    | cell hcell' h =>
        obtain ⟨rfl, rfl⟩ := hcell.unique hcell'
        exact .integer hcell.get? h
    | formula hcell' hparse hl hr hv =>
        obtain ⟨rfl, rfl⟩ := hcell.unique hcell'
        exact .formula hcell.get? hparse ⟨_, _, hl, hr, hv⟩
  · intro h
    cases h with
    | integer hget h =>
        obtain rfl := Option.some.inj (hcell.get?.symm.trans hget)
        exact .cell hcell h
    | formula hget hparse h =>
        obtain rfl := Option.some.inj (hcell.get?.symm.trans hget)
        obtain ⟨a, b, hl, hr, hv⟩ := h
        exact .formula hcell hparse hl hr hv

theorem Refers.worth_iff (hcell : g.Refers operand p text) :
    g.Worth operand v ↔ g.CellWorth p v := by
  simp only [worth_iff_exists_worthIn, cellWorth_iff_exists_cellWorthIn, hcell.worthIn_iff]

end Texts

/-! ### At most one worth -/

theorem worthIn_of_read {g : Grid} {n : Nat} {operand : String} {u v : Value}
    (hread : Value.read? operand = some u) : g.WorthIn n operand v ↔ u = v := by
  constructor
  · intro h
    cases h with
    | integer h => exact Option.some.inj (hread.symm.trans h)
    | cell hcell _ | formula hcell _ _ _ _ =>
        rw [hcell.1] at hread
        cases hread
  · rintro rfl
    exact .integer hread

theorem WorthIn.unique {g : Grid} {n m : Nat} {operand : String} {v v' : Value}
    (h : g.WorthIn n operand v) (h' : g.WorthIn m operand v') : v = v' := by
  induction h generalizing m v' with
  | integer h => exact (worthIn_of_read h).1 h'
  | cell hcell h =>
      -- the name leads the other derivation to the same cell
      rw [hcell.worthIn_iff] at h'
      exact (cellWorthIn_of_integer hcell.get? h).1 h'
  | formula hcell hparse _ _ hv ihl ihr =>
      rw [hcell.worthIn_iff, cellWorthIn_of_formula hcell.get? hparse] at h'
      obtain ⟨k, rfl, a', b', hl', hr', hv'⟩ := h'
      obtain rfl := ihl hl'
      obtain rfl := ihr hr'
      exact Value.ext (Option.some.inj (hv.symm.trans hv'))

/-- **An operand is worth at most one value.** -/
theorem Worth.unique {g : Grid} {operand : String} {v v' : Value} (h : g.Worth operand v)
    (h' : g.Worth operand v') : v = v' := by
  obtain ⟨n, hn⟩ := worth_iff_exists_worthIn.1 h
  obtain ⟨m, hm⟩ := worth_iff_exists_worthIn.1 h'
  exact hn.unique hm

/-- A cell is worth at most one value. -/
theorem CellWorth.unique {g : Grid} {p : Position} {v v' : Value} (h : g.CellWorth p v)
    (h' : g.CellWorth p v') : v = v' := by
  cases h with
  | integer hget h =>
      obtain ⟨n, hn⟩ := cellWorth_iff_exists_cellWorthIn.1 h'
      exact (cellWorthIn_of_integer hget h).1 hn
  | formula hget hparse h =>
      rw [cellWorth_of_formula hget hparse] at h'
      exact h.unique h' fun _ _ _ => Worth.unique

/-! ### No worth comes from itself -/

/-- The cell is worth something only if the operand is, and by a lower derivation. -/
def Awaits (g : Grid) (p : Position) (operand : String) : Prop :=
  ∀ n v, g.CellWorthIn n p v → ∃ m < n, ∃ u, g.WorthIn m operand u

/-- A formula cell awaits the operands of its formula. -/
theorem awaits_of_mentions {g : Grid} {p : Position} {text operand : String} {f : Formula}
    (hget : g.get? p = some text) (hparse : Formula.parse text = .ok f)
    (hm : f.Mentions operand) : g.Awaits p operand := by
  intro n v h
  obtain ⟨m, rfl, hv⟩ := (cellWorthIn_of_formula hget hparse).1 h
  exact ⟨m, by omega, hv.of_mentions hm⟩

/-- What awaits the name of a cell awaits what that cell awaits. -/
theorem Awaits.trans {g : Grid} {p q : Position} {operand operand' text : String}
    (h : g.Awaits p operand) (hcell : g.Refers operand q text) (h' : g.Awaits q operand') :
    g.Awaits p operand' := by
  intro n v hv
  obtain ⟨m, hm, u, hu⟩ := h n v hv
  obtain ⟨k, hk, hw⟩ := h' m u (hcell.worthIn_iff.1 hu)
  exact ⟨k, by omega, hw⟩

/-- **A cell that awaits its own name is worth nothing**: each derivation would hold a lower
one. -/
theorem Awaits.not_worth {g : Grid} {p : Position} {operand text : String}
    (h : g.Awaits p operand) (hcell : g.Refers operand p text) (v : Value) :
    ¬ g.Worth operand v := by
  rw [worth_iff_exists_worthIn]
  rintro ⟨n, hn⟩
  induction n using Nat.strongRecOn generalizing v with
  | _ n ih =>
      obtain ⟨m, hm, u, hu⟩ := h n v (hcell.worthIn_iff.1 hn)
      exact ih m hm u hu

/-! ### How high a derivation gets -/

/-- If the value of a formula needs operands of some height, one of the operands needs it. -/
theorem exists_operand_of_worthBy {g : Grid} {n : Nat} {f : Formula} {v : Value}
    (h : f.WorthBy (g.WorthIn (n + 1)) v) (hlow : ¬ f.WorthBy (g.WorthIn n) v) :
    ∃ operand u, g.WorthIn (n + 1) operand u ∧ ∀ u', ¬ g.WorthIn n operand u' := by
  obtain ⟨a, b, ha, hb, hv⟩ := h
  by_cases hl : ∃ u, g.WorthIn n f.left u
  · by_cases hr : ∃ u, g.WorthIn n f.right u
    · obtain ⟨a', ha'⟩ := hl
      obtain ⟨b', hb'⟩ := hr
      obtain rfl := ha.unique ha'
      obtain rfl := hb.unique hb'
      exact absurd ⟨a, b, ha', hb', hv⟩ hlow
    · exact ⟨f.right, b, hb, fun u hu => hr ⟨u, hu⟩⟩
  · exact ⟨f.left, a, ha, fun u hu => hl ⟨u, hu⟩⟩

theorem exists_refers_of_worthIn {g : Grid} {n : Nat} {operand : String} {v : Value}
    (h : g.WorthIn (n + 1) operand v) (hlow : ∀ u, ¬ g.WorthIn n operand u) :
    ∃ p text, g.Refers operand p text := by
  cases h with
  | integer h => exact absurd (.integer h) (hlow v)
  | cell hcell h => exact absurd (.cell hcell h) (hlow v)
  | formula hcell _ _ _ _ => exact ⟨_, _, hcell⟩

/-- Below a cell of some height stand formula cells of all smaller heights, and so as many
different ones. -/
theorem exists_nodup_of_cellWorthIn {g : Grid} {n : Nat} {p : Position} {v : Value}
    (hp : p ∈ g.dataPositions) (h : g.CellWorthIn n p v)
    (hlow : ∀ m < n, ∀ u, ¬ g.CellWorthIn m p u) :
    ∃ ps : List Position, ps.length = n ∧ ps.Nodup ∧
      ∀ q ∈ ps, q ∈ g.formulaPositions ∧ ∃ u, g.CellWorthIn n q u := by
  -- induction on the height: an operand that needs all of it names the next cell
  induction n generalizing p v with
  | zero => exact ⟨[], rfl, List.nodup_nil, by simp⟩
  | succ n ih =>
      cases h with
      | integer hget h => exact absurd (.integer hget h) (hlow 0 (by omega) v)
      | @formula _ _ text f _ hget hparse h =>
          have hself : p ∈ g.formulaPositions := mem_formulaPositions_of_parse hp hget hparse
          have hworth : g.CellWorthIn (n + 1) p v := .formula hget hparse h
          cases n with
          | zero => exact ⟨[p], rfl, List.nodup_singleton p, by simpa using ⟨hself, v, hworth⟩⟩
          | succ k =>
              have hnot : ¬ f.WorthBy (g.WorthIn k) v := fun hf =>
                hlow (k + 1) (by omega) v (.formula hget hparse hf)
              obtain ⟨operand, u, hu, hlow'⟩ := exists_operand_of_worthBy h hnot
              obtain ⟨q, t, hcell⟩ := exists_refers_of_worthIn hu hlow'
              have hq : ∀ m < k + 1, ∀ u', ¬ g.CellWorthIn m q u' := fun m hm u' hc =>
                hlow' u' (hcell.worthIn_iff.2 (hc.mono (by omega)))
              obtain ⟨ps, hlen, hnodup, hps⟩ :=
                ih hcell.mem_dataPositions (hcell.worthIn_iff.1 hu) hq
              -- `p` itself is higher than every cell of the list
              have hmem : p ∉ ps := fun hmem => by
                obtain ⟨-, u', hu'⟩ := hps p hmem
                exact hlow (k + 1) (by omega) u' hu'
              refine ⟨p :: ps, by rw [List.length_cons, hlen],
                List.nodup_cons.2 ⟨hmem, hnodup⟩, ?_⟩
              intro r hr
              rcases List.mem_cons.1 hr with rfl | hr
              · exact ⟨hself, v, hworth⟩
              · obtain ⟨hf, u', hu'⟩ := hps r hr
                exact ⟨hf, u', hu'.mono (by omega)⟩

/-- **A data cell that is worth something is so by a derivation no higher than the number of
formula cells.** -/
theorem CellWorth.cellWorthIn_length {g : Grid} {p : Position} {v : Value}
    (h : g.CellWorth p v) (hp : p ∈ g.dataPositions) :
    g.CellWorthIn g.formulaPositions.length p v := by
  classical
  have hex : ∃ n, ∃ u, g.CellWorthIn n p u := by
    obtain ⟨n, hn⟩ := cellWorth_iff_exists_cellWorthIn.1 h
    exact ⟨n, v, hn⟩
  -- at the least height the cells below the cell are all different
  obtain ⟨u, hu⟩ := Nat.find_spec hex
  obtain rfl := h.unique (cellWorth_iff_exists_cellWorthIn.2 ⟨_, hu⟩)
  obtain ⟨ps, hlen, hnodup, hps⟩ := exists_nodup_of_cellWorthIn hp hu
    fun m hm u' hu' => Nat.find_min hex hm ⟨u', hu'⟩
  have hle : ps.length ≤ g.formulaPositions.length :=
    (List.subperm_of_subset hnodup fun q hq => (hps q hq).1).length_le
  exact hu.mono (by omega)

end Grid

end FormulaGrid
