/-
Settings of an evaluation.

Main definitions:

* `LoopPolicy` — which loops of references are looked for;
* `Settings` — the bound on nested formulas, the loop policy, and whether values are kept;
* `Settings.checkDepth` — the bounds that a run accepts;
* `Settings.stackBytes` — the call stack set aside for a bound.
-/

import FormulaGrid.Text.Lines

set_option relaxedAutoImplicit false
set_option autoImplicit false

namespace FormulaGrid

/-- Which loops of references are looked for. -/
inductive LoopPolicy
  /-- Only a formula that names its own cell.  Longer loops run into the depth bound. -/
  | selfOnly
  /-- Every loop, as soon as it closes. -/
  | full
deriving DecidableEq, Repr

/-- Why a setting is refused. -/
inductive SettingError
  | unknownPolicy (name : String)
  | depthOutOfRange (depth : Nat)
deriving DecidableEq, Repr

/-- The largest bound on nested formulas that a run accepts. -/
def Settings.greatestDepth : Nat := 4096

def SettingError.message : SettingError → String
  | unknownPolicy name => s!"Unknown cycle detection mode: {name} (expected self or full)"
  | depthOutOfRange depth =>
    s!"max depth must be between 1 and {Settings.greatestDepth}, got {depth}"

namespace LoopPolicy

def name : LoopPolicy → String
  | selfOnly => "self"
  | full => "full"

/-- Reads the name of a policy.  Blanks around it and the case of ASCII letters do not matter. -/
def ofName (text : String) : Except SettingError LoopPolicy :=
  let key := String.ofList ((Text.trim text.toList).map Char.toLower)
  if key = "self" ∨ key = "self-only" then .ok selfOnly
  else if key = "full" then .ok full
  else .error (.unknownPolicy key)

@[simp] theorem ofName_name (p : LoopPolicy) : ofName p.name = .ok p := by
  cases p <;> rfl

end LoopPolicy

/-- How formulas are evaluated. -/
structure Settings where
  maxDepth : Nat := 512
  loops : LoopPolicy := .selfOnly
  memoize : Bool := false
deriving DecidableEq, Repr

namespace Settings

/-- Admits a bound from 1 to `greatestDepth`. -/
def checkDepth (depth : Nat) : Except SettingError Nat :=
  if depth = 0 ∨ greatestDepth < depth then .error (.depthOutOfRange depth) else .ok depth

theorem checkDepth_eq_ok_iff {depth d : Nat} :
    checkDepth depth = .ok d ↔ d = depth ∧ 1 ≤ depth ∧ depth ≤ greatestDepth := by
  unfold checkDepth
  split
  · simp; omega
  · simp only [Except.ok.injEq]; omega

/-- The bytes of call stack set aside for a bound on nested formulas: a fixed part, and a part for
each formula up to the greatest bound. -/
def stackBytes (depth : Nat) : Nat := 1048576 + min depth greatestDepth * 16384

end Settings

end FormulaGrid
