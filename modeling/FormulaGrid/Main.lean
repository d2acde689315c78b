/-
The command.

Files are those of the operating system, and the user's own settings file is
`csvgrid/config.toml` in the directory for configuration files.
-/

import FormulaGrid.Command.Run

set_option relaxedAutoImplicit false
set_option autoImplicit false

namespace FormulaGrid

open System

/-- The number of an error of the system, which some of its calls report with the sign turned. -/
def errorNumber (code : UInt32) : Nat :=
  if code < 2147483648 then code.toNat else 4294967296 - code.toNat

/-- The reason behind an error with a number.  `words` is how the system tells it, where this
command has no words of its own. -/
def FileError.ofNumber (number : Nat) (words : String) : FileError :=
  match number with
  | 2 => .missing
  | 20 => .notDirectory
  | 21 => .directory
  | 13 => .other "Permission denied (os error 13)"
  | 28 => .other "No space left on device (os error 28)"
  | 36 => .other "File name too long (os error 36)"
  | n => .other s!"{words} (os error {n})"

/-- The reason behind an error of the system. -/
def FileError.ofSystem : IO.Error → FileError
  | .noFileOrDirectory _ _ _ => .missing
  | .inappropriateType _ code words | .permissionDenied _ code words
  | .resourceExhausted _ code words | .invalidArgument _ code words =>
    .ofNumber (errorNumber code) words
  | e => .other (toString e)

/-- The result of an action on a file. -/
def onFile {α : Type} (action : IO α) : IO (Except FileError α) := do
  match ← action.toBaseIO with
  | .ok a => return .ok a
  | .error e => return .error (.ofSystem e)

instance : FileStore IO where
  size path := onFile do
    return (← FilePath.metadata ⟨path⟩).byteSize.toNat
  isFile path := do
    match ← onFile (FilePath.metadata ⟨path⟩) with
    | .ok info => return info.type == .file
    | .error _ => return false
  readText path := do
    match ← onFile (IO.FS.readBinFile ⟨path⟩) with
    | .error e => return .error e
    | .ok bytes =>
      match String.fromUTF8? bytes with
      | some text => return .ok text
      | none => return .error .notText
  Handle := IO.FS.Handle
  create path := onFile (IO.FS.Handle.mk ⟨path⟩ .write)
  append file text := onFile do
    file.putStr text
    file.flush

-- the system settles how much stack a thread gets
instance : Threads IO where
  inThread _ x := IO.wait (Task.spawn x .dedicated)

/-- The path of the user's own settings file, if there is a place for it. -/
def ownSettingsFile : IO (Option String) := do
  let xdg := (← IO.getEnv "XDG_CONFIG_HOME").filter fun dir => dir.startsWith "/"
  let home := (← IO.getEnv "HOME").filter fun dir => !dir.isEmpty
  let base := xdg.orElse fun _ => home.map (· ++ "/.config")
  return base.map (· ++ "/csvgrid/config.toml")

end FormulaGrid

/-- Runs the command with the given arguments. -/
def main (args : List String) : IO UInt32 := do
  let outcome ← FormulaGrid.run (m := IO) args (← FormulaGrid.ownSettingsFile)
  if let some warning := outcome.warning? then
    IO.eprintln s!"WARN {warning}"
  IO.eprint outcome.errors
  IO.print outcome.output
  return UInt32.ofNat outcome.exitCode
