/-
Settings files as TOML documents.

A settings file is a TOML document with one table, `eval`, of up to three entries:

    [eval]
    max_depth = 512
    cycles = "self"
    memoize = false

Any other table or entry is refused, and so is an array in the place of the table.

Main definition: `SettingsFile.ofText?` — reads a settings file.
-/

import FormulaGrid.Settings.File
import FormulaGrid.Toml.Document

set_option relaxedAutoImplicit false
set_option autoImplicit false

namespace FormulaGrid

namespace SettingsFile

/-- The file with one more definition taken in, if it is one that a settings file may hold. -/
def add? (file : SettingsFile) : Toml.Key × Toml.Definition → Option SettingsFile
  | (["eval"], .scalar _) => none
  | (["eval"], _) => some file
  | (["eval", "max_depth"], .scalar (.integer (.ofNat n))) => some { file with maxDepth? := some n }
  | (["eval", "cycles"], .scalar (.text s)) => some { file with cycles? := some s }
  | (["eval", "memoize"], .scalar (.boolean b)) => some { file with memoize? := some b }
  | _ => none

/-- Reads a settings file. -/
def ofText? (text : String) : Option SettingsFile :=
  (Toml.Document.ofText? text).bind fun d => d.definitions.foldlM add? {}

end SettingsFile

end FormulaGrid
