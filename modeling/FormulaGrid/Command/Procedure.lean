/-
Procedure: what a run of the command does.

A run scans its arguments, settles its settings, loads the grid, evaluates it, and writes it to the
standard output or to a file.  It writes nothing before the whole grid is evaluated.

Settings come from the arguments, else from a settings file, else from the defaults.  The settings
file is the one that the arguments name, or else the user's own.  A file that the arguments name
must be read and applied; of the user's own file any failure is a warning, and then nothing of the
file counts.

Main definitions:

* `RunError` — why a run fails, with `RunError.message` its wording;
* `Outcome` — the exit code and the texts that a run prints;
* `Environment` — what a run is given beside its arguments and the files, the reader of settings
  files among it;
* `fileSettings` — the settings from files, and `Arguments.overlay` lays those of the arguments over
  them;
* `Environment.run` — the run, in any monad with files and threads.
-/

import FormulaGrid.Command.Arguments
import FormulaGrid.Settings.File
import FormulaGrid.Worksheet.Storage

set_option relaxedAutoImplicit false
set_option autoImplicit false

namespace FormulaGrid

/-- Why a settings file does not count. -/
inductive SettingsFileError
  | noSize (path : String) (e : FileError)
  | tooLarge (path : String) (size : Nat)
  | unreadable (path : String) (e : FileError)
  | malformed (path : String)
  | refused (e : SettingError)
deriving DecidableEq, Repr

/-- The largest settings file that is read, in bytes. -/
def greatestSettingsFile : Nat := 1048576

def SettingsFileError.message : SettingsFileError → String
  | noSize path e => s!"Failed to read metadata for {path}: {e.message}"
  | tooLarge path size => (FileError.tooLarge path size greatestSettingsFile).message
  | unreadable path e => s!"Failed to read {path}: {e.message}"
  | malformed path => s!"Failed to parse {path}"
  | refused e => e.message

/-- Why a run fails. -/
inductive RunError
  | noInput
  | settings (e : SettingsFileError)
  | load (path : String) (f : Failure)
  | evaluate (f : Failure)
  | print (f : Failure)
  | write (path : String) (f : Failure)
deriving DecidableEq, Repr

/-- The wording of the reason, with its causes. -/
def RunError.message : RunError → String
  | noInput => "filename not provided"
  | settings e => e.message
  | load path f => s!"Failed to load {path}: {f.chain}"
  | evaluate f | print f => f.chain
  | write path f => s!"Failed to write {path}: {f.chain}"

/-- What a run leaves behind, its files apart. -/
structure Outcome where
  exitCode : Nat
  output : String := ""
  errors : String := ""
  /-- The warning about the user's settings file, which is no part of `errors`. -/
  warning? : Option String := none
deriving DecidableEq, Repr

def usage : String :=
  String.join <| [
    "Usage: csvgrid [OPTIONS] <FILE>",
    "",
    "Arguments:",
    "  <FILE>                    CSV grid to evaluate",
    "",
    "Options:",
    "  -o, --output <FILE>       Write the evaluated grid to FILE instead of stdout",
    "  --max-depth <N>           Maximum formula nesting depth (default 512, max 4096)",
    "  --cycles <MODE>           Cycle detection: self (default) or full",
    "  --memoize                 Cache computed formula values during the pass",
    "  --config <FILE>           Load settings from FILE",
    "  --no-config               Ignore configuration files",
    "  -h, --help                Print help",
    "",
    "Set CSVGRID_LOG (e.g. CSVGRID_LOG=debug) to control logging on stderr."].map (· ++ "\n")

/-- What a run is given beside its arguments and the files. -/
structure Environment where
  /-- The path of the user's own settings file, if there is a place for one. -/
  own? : Option String
  /-- What the text of a settings file sets, unless it is none. -/
  read? : String → Option SettingsFile

/-- The threads that a run needs. -/
class Threads (m : Type → Type) where
  /-- The value of a computation that has a thread of its own, with so many bytes of call stack. -/
  inThread {α : Type} : (stackBytes : Nat) → (Unit → α) → m α

instance {σ : Type} : Threads (StateM σ) where
  inThread _ x := pure (x ())

variable {m : Type → Type} [Monad m] [FileStore m]

def SettingsFile.ofFile (read? : String → Option SettingsFile) (path : String) :
    m (Except SettingsFileError SettingsFile) := do
  match ← FileStore.size path with
  | .error e => return .error (.noSize path e)
  | .ok size =>
    if greatestSettingsFile < size then return .error (.tooLarge path size)
    else match ← FileStore.readText path with
      | .error e => return .error (.unreadable path e)
      | .ok text =>
        match read? text with
        | none => return .error (.malformed path)
        | some file => return .ok file

/-- The default settings with a settings file laid over them. -/
def settingsOfFile (read? : String → Option SettingsFile) (path : String) :
    m (Except SettingsFileError Settings) := do
  match ← SettingsFile.ofFile read? path with
  | .error e => return .error e
  | .ok file =>
    match file.overlay {} with
    | (.error e, _) => return .error (.refused e)
    | (.ok (), s) => return .ok s

/-- The settings that files give to a run, and the reason why the user's own file does not count,
if it should have counted. -/
def fileSettings (a : Arguments) (env : Environment) :
    m (Except SettingsFileError (Settings × Option SettingsFileError)) := do
  if a.noConfig then return .ok ({}, none)
  else match a.config? with
    | some path =>
      match ← settingsOfFile env.read? path with
      | .error e => return .error e
      | .ok s => return .ok (s, none)
    | none =>
      match env.own? with
      | none => return .ok ({}, none)
      | some path =>
        if ← FileStore.isFile path then
          match ← settingsOfFile env.read? path with
          | .error e => return .ok ({}, some e)
          | .ok s => return .ok (s, none)
        else return .ok ({}, none)

/-- Settings with those of the arguments laid over them. -/
def Arguments.overlay (a : Arguments) (s : Settings) : Settings where
  maxDepth := a.maxDepth?.getD s.maxDepth
  loops := a.loops?.getD s.loops
  memoize := a.memoize || s.memoize

/-- Evaluates the grid of a file and writes it; returns what is printed on the standard output. -/
def evaluateFile [Threads m] (input : String) (output? : Option String) (s : Settings) :
    m (Except RunError String) := do
  match ← Worksheet.ofFile input s with
  | .error f => return .error (.load input f)
  | .ok w =>
    match ← Threads.inThread (Settings.stackBytes s.maxDepth) fun () => w.evaluateAll with
    | (.error e, _) => return .error (.evaluate (.pass e))
    | (.ok _, w) =>
      match output? with
      | none =>
        match w.grid.print (m := StateM String) "" with
        | (.error f, _) => return .error (.print f)
        | (.ok (), printed) => return .ok printed
      | some path =>
        match ← w.grid.toFile path with
        | .error f => return .error (.write path f)
        | .ok () => return .ok ""

/-- The outcome of a run that ends as `result` says. -/
def Outcome.ofResult (result : Except RunError String) (warning? : Option String) : Outcome :=
  match result with
  | .ok output => { exitCode := 0, output, warning? }
  | .error e => { exitCode := 1, errors := s!"Error: {e.message}\n", warning? }

namespace Environment

variable [Threads m]

/-- What a run does once its arguments are accepted. -/
def runAccepted (env : Environment) (a : Arguments) : m Outcome := do
  match a.input? with
  | none => return .ofResult (.error .noInput) none
  | some input =>
    match ← fileSettings a env with
    | .error e => return .ofResult (.error (.settings e)) none
    | .ok (s, ignored?) =>
      let result ← evaluateFile input a.output? (a.overlay s)
      return .ofResult result (ignored?.map fun e => s!"ignoring config file: {e.message}")

/-- A run of the command with the given arguments. -/
def run (env : Environment) (args : List String) : m Outcome :=
  match Arguments.scan args {} with
  | .help => return { exitCode := 0, errors := usage }
  | .refused e => return { exitCode := 1, errors := s!"Error: {e.message}\n" ++ usage }
  | .accepted a => env.runAccepted a

end Environment

end FormulaGrid
