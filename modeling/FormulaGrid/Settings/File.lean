/-
Settings files.

A settings file sets the bound on nested formulas, the loop policy and the use of a memo.  It sets
what it names and leaves the rest as it is.

Main definitions:

* `SettingsFile` — what a file sets;
* `SettingsFile.overlay` — lays the file over other settings.
-/

import FormulaGrid.Settings

set_option relaxedAutoImplicit false
set_option autoImplicit false

namespace FormulaGrid

/-- What a settings file sets.  Whether the bound and the name of the policy are admissible is
settled when the file is applied. -/
structure SettingsFile where
  maxDepth? : Option Nat := none
  cycles? : Option String := none
  memoize? : Option Bool := none
deriving DecidableEq, Repr

namespace SettingsFile

/-- Lays a file over settings: the bound first, then the policy, then the memo.  It stops at a
setting that is refused, and what was laid over before stays. -/
def overlay (file : SettingsFile) (s : Settings) : Except SettingError Unit × Settings :=
  match (file.maxDepth?.map Settings.checkDepth).getD (.ok s.maxDepth) with
  | .error e => (.error e, s)
  | .ok depth =>
    let s := { s with maxDepth := depth }
    match (file.cycles?.map LoopPolicy.ofName).getD (.ok s.loops) with
    | .error e => (.error e, s)
    | .ok loops =>
      let s := { s with loops := loops }
      (.ok (), { s with memoize := file.memoize?.getD s.memoize })

end SettingsFile

end FormulaGrid
