/-
Failures: why a grid could not be loaded, evaluated or written.

Main definitions:

* `Failure` — a failure of a file, of the layout of the lines, or of the pass;
* `Failure.message`, `Failure.chain` — its wording, and the wording followed by its cause.
-/

import FormulaGrid.Files
import FormulaGrid.Worksheet

set_option relaxedAutoImplicit false
set_option autoImplicit false

namespace FormulaGrid

/-- Why a grid could not be loaded, evaluated or written. -/
inductive Failure
  | file (e : FileError)
  | layout (e : LayoutError)
  | pass (e : PassError)
deriving DecidableEq, Repr

namespace Failure

def message : Failure → String
  | file e => s!"IO error: {e.message}"
  | layout e => e.message
  | pass e => e.message

/-- The wording of what lies behind a failure, where something does. -/
def cause? : Failure → Option String
  | file e => some e.message
  | pass (.inCell _ fault) => some fault.message
  | _ => none

/-- The wording of a failure, and after it that of its cause. -/
def chain (f : Failure) : String :=
  match f.cause? with
  | some cause => s!"{f.message}: {cause}"
  | none => f.message

end Failure

end FormulaGrid
