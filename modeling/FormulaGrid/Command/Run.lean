/-
Runs of the command that read their settings files as TOML documents.
-/

import FormulaGrid.Command.Procedure
import FormulaGrid.Settings.Reader

set_option relaxedAutoImplicit false
set_option autoImplicit false

namespace FormulaGrid

/-- A run of the command with the given arguments.  `own?` is the path of the user's own settings
file. -/
def run {m : Type → Type} [Monad m] [FileStore m] [Threads m] (args : List String)
    (own? : Option String) : m Outcome :=
  Environment.run { own?, read? := SettingsFile.ofText? } args

end FormulaGrid
