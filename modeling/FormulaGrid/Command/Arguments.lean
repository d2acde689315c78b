/-
Command-line arguments.

The arguments are scanned from left to right.  An option that takes a value takes the next argument
as it stands, whatever it looks like; an option given twice counts where it stands last.  The scan
ends early at a request for help or at the first argument that it refuses.

Main definitions:

* `Arguments` — what a command line asks for;
* `ArgumentError` — why an argument is refused;
* `Arguments.scan` — the outcome of a command line.
-/

import FormulaGrid.Settings
import FormulaGrid.Text.Integer

set_option relaxedAutoImplicit false
set_option autoImplicit false

namespace FormulaGrid

/-- An option that takes a value. -/
inductive ValueOption
  | output
  | maxDepth
  | cycles
  | config
deriving DecidableEq, Repr

/-- What a command line asks for. -/
structure Arguments where
  input? : Option String := none
  output? : Option String := none
  maxDepth? : Option Nat := none
  loops? : Option LoopPolicy := none
  memoize : Bool := false
  config? : Option String := none
  noConfig : Bool := false
deriving DecidableEq, Repr

/-- Why an argument is refused; `unexpected` is a second input file. -/
inductive ArgumentError
  | noValue (option : ValueOption)
  | depthNotNumber (text : String)
  | depth (e : SettingError)
  | policy (e : SettingError)
  | unknownOption (arg : String)
  | unexpected (arg : String)
deriving DecidableEq, Repr

def ArgumentError.message : ArgumentError → String
  | noValue .output => "--output requires a file path"
  | noValue .maxDepth => "--max-depth requires a value"
  | noValue .cycles => "--cycles requires a value"
  | noValue .config => "--config requires a file path"
  | depthNotNumber text => s!"Invalid --max-depth: {text}"
  | depth e => s!"Invalid --max-depth: {e.message}"
  | policy e => e.message
  | unknownOption arg => s!"Unknown option: {arg}"
  | unexpected arg => s!"Unexpected argument: {arg}"

/-- What an argument is, where no value of an option is due. -/
inductive Word
  | help
  | memoize
  | noConfig
  | takes (option : ValueOption)
  | unknown
  | input
deriving DecidableEq, Repr

def Word.ofText (arg : String) : Word :=
  if arg = "-h" ∨ arg = "--help" then .help
  else if arg = "-o" ∨ arg = "--output" then .takes .output
  else if arg = "--max-depth" then .takes .maxDepth
  else if arg = "--cycles" then .takes .cycles
  else if arg = "--memoize" then .memoize
  else if arg = "--config" then .takes .config
  else if arg = "--no-config" then .noConfig
  else if arg.toList.head? = some '-' then .unknown
  else .input

/-- The outcome of a command line. -/
inductive Scan
  | help
  | refused (e : ArgumentError)
  | accepted (a : Arguments)
deriving DecidableEq, Repr

namespace Arguments

/-- Reads a natural number of 64 bits and checks it as a bound on nested formulas. -/
def depthOfText (text : String) : Except ArgumentError Nat :=
  match (Text.natural? text.toList).filter (· < 18446744073709551616) with
  | none => .error (.depthNotNumber text)
  | some n =>
    match Settings.checkDepth n with
    | .error e => .error (.depth e)
    | .ok n => .ok n

def setOption (a : Arguments) (option : ValueOption) (value : String) :
    Except ArgumentError Arguments :=
  match option with
  | .output => .ok { a with output? := some value }
  | .config => .ok { a with config? := some value }
  | .maxDepth =>
    match depthOfText value with
    | .error e => .error e
    | .ok n => .ok { a with maxDepth? := some n }
  | .cycles =>
    match LoopPolicy.ofName value with
    | .error e => .error (.policy e)
    | .ok p => .ok { a with loops? := some p }

/-- Scans arguments from the left, on top of what earlier arguments asked for. -/
def scan : List String → Arguments → Scan
  | [], a => .accepted a
  | arg :: args, a =>
    match Word.ofText arg with
    | .help => .help
    | .memoize => scan args { a with memoize := true }
    | .noConfig => scan args { a with noConfig := true }
    | .unknown => .refused (.unknownOption arg)
    | .input =>
      if a.input?.isNone then scan args { a with input? := some arg }
      else .refused (.unexpected arg)
    | .takes option =>
      match args with
      | [] => .refused (.noValue option)
      | value :: args =>
        match a.setOption option value with
        | .error e => .refused e
        | .ok a => scan args a

end Arguments

end FormulaGrid
