/-
The syntax of TOML documents, as far as settings use it.

A document is a list of statements, one to a line: the header of a table or a key with its value.
A key is one or more names with dots between them, each bare or in quotes.  A value is a string, an
integer, a truth value, or a table between braces that holds such values.  Arrays, fractions, dates
and tables within braces within braces are refused, as anything is that is no TOML.

Main definitions:

* `Toml.Scalar`, `Toml.Value`, `Toml.Statement` — what a document is made of;
* `Toml.key?`, `Toml.scalar?`, `Toml.value?` — readers, which return what is left of the text;
* `Toml.statements?` — the statements of a whole document.

Loops over the text take its length as their bound, and each round uses up a character at least.
-/

import FormulaGrid.Text.Lines

set_option relaxedAutoImplicit false
set_option autoImplicit false

namespace FormulaGrid

namespace Toml

inductive Scalar
  | text (s : String)
  | integer (n : Int)
  | boolean (b : Bool)
deriving DecidableEq, Repr

abbrev Key := List String

/-- A value: a scalar, or a table written between braces. -/
inductive Value
  | scalar (s : Scalar)
  | table (entries : List (Key × Scalar))
deriving DecidableEq, Repr

inductive Statement
  /-- `[key]` -/
  | header (key : Key)
  /-- `key = value` -/
  | entry (key : Key) (value : Value)
deriving DecidableEq, Repr

/-- Reads something from the front of a text and returns the rest. -/
abbrev Reader (α : Type) := List Char → Option (α × List Char)

/-! ### Blanks and ends of lines -/

def isSpace (c : Char) : Bool := c == ' ' || c == '\t'

/-- A character that may stand in a comment or in a literal string: a tab, or anything that is no
control character. -/
def isPrintable (c : Char) : Bool := c == '\t' || (0x20 ≤ c.toNat && c.toNat ≠ 0x7F)

def skipSpaces (cs : List Char) : List Char := cs.dropWhile isSpace

def newline? : List Char → Option (List Char)
  | '\n' :: cs => some cs
  | '\r' :: '\n' :: cs => some cs
  | _ => none

/-- The text after the end of a line: spaces, a comment, and a line break or the end of the
text. -/
def lineEnd? (cs : List Char) : Option (List Char) :=
  let cs := match skipSpaces cs with
    | '#' :: cs => cs.dropWhile isPrintable
    | cs => cs
  if cs = [] then some [] else newline? cs

/-! ### Digits -/

def isHexDigit (c : Char) : Bool := c.isDigit || ('a' ≤ c && c ≤ 'f') || ('A' ≤ c && c ≤ 'F')

def digitValue (c : Char) : Nat :=
  if c.isDigit then c.toNat - '0'.toNat else c.toLower.toNat - 'a'.toNat + 10

def ofDigits (base : Nat) (cs : List Char) : Nat :=
  cs.foldl (fun n c => base * n + digitValue c) 0

/-! ### Strings -/

def codePoint? (count : Nat) : Reader Char := fun cs =>
  let digits := cs.take count
  if digits.length = count ∧ digits.all isHexDigit then
    let n := ofDigits 16 digits
    if n.isValidChar then some (Char.ofNat n, cs.drop count) else none
  else none

def escape? : Reader Char
  | 'b' :: cs => some ('\x08', cs)
  | 't' :: cs => some ('\t', cs)
  | 'n' :: cs => some ('\n', cs)
  | 'f' :: cs => some ('\x0c', cs)
  | 'r' :: cs => some ('\r', cs)
  | '"' :: cs => some ('"', cs)
  | '\\' :: cs => some ('\\', cs)
  | 'u' :: cs => codePoint? 4 cs
  | 'U' :: cs => codePoint? 8 cs
  | _ => none

/-- The rest of a string in double quotes, read after its opening quote. -/
def basic? (cs : List Char) : Option (String × List Char) := go cs.length cs []
where
  /-- `taken` holds the characters so far, the last one first. -/
  go : Nat → List Char → List Char → Option (String × List Char)
    | _, '"' :: cs, taken => some (String.ofList taken.reverse, cs)
    | bound + 1, '\\' :: cs, taken =>
      match escape? cs with
      | some (c, cs) => go bound cs (c :: taken)
      | none => none
    | bound + 1, c :: cs, taken => if isPrintable c then go bound cs (c :: taken) else none
    | _, _, _ => none

/-- The rest of a string in single quotes, read after its opening quote. -/
def literal? (cs : List Char) : Option (String × List Char) :=
  match cs.dropWhile fun c => isPrintable c && c != '\'' with
  | '\'' :: rest => some (String.ofList (cs.takeWhile fun c => isPrintable c && c != '\''), rest)
  | _ => none

def dropNewline (cs : List Char) : List Char := (newline? cs).getD cs

def skipBreaks : List Char → List Char
  | ' ' :: cs => skipBreaks cs
  | '\t' :: cs => skipBreaks cs
  | '\n' :: cs => skipBreaks cs
  | '\r' :: '\n' :: cs => skipBreaks cs
  | cs => cs

/-- The text after a backslash that ends its line: spaces, a line break, and all spaces and line
breaks that follow. -/
def lineContinuation? (cs : List Char) : Option (List Char) :=
  (newline? (skipSpaces cs)).map skipBreaks

/-- The rest of a string over several lines, read after its three opening quotes.  It ends at
three quotes, and up to two more directly before them belong to it.  Only double quotes open a
string with escape sequences.  Line breaks of either kind stand for `\n`. -/
def multiline? (quote : Char) (cs : List Char) : Option (String × List Char) :=
  go cs.length (dropNewline cs) []
where
  /-- `taken` holds the characters so far, the last one first. -/
  go : Nat → List Char → List Char → Option (String × List Char)
    | bound + 1, c :: cs, taken =>
      if c = quote then
        let quotes := (c :: cs).takeWhile (· = quote)
        let rest := (c :: cs).dropWhile (· = quote)
        if quotes.length < 3 then go bound rest (quotes ++ taken)
        else if quotes.length ≤ 5 then
          some (String.ofList ((quotes.drop 3 ++ taken).reverse), rest)
        else none
      else if quote = '"' ∧ c = '\\' then
        match lineContinuation? cs with
        | some cs => go bound cs taken
        | none =>
          match escape? cs with
          | some (c, cs) => go bound cs (c :: taken)
          | none => none
      else match newline? (c :: cs) with
        | some cs => go bound cs ('\n' :: taken)
        | none => if isPrintable c then go bound cs (c :: taken) else none
    | _, _, _ => none

/-! ### Keys -/

def isBare (c : Char) : Bool := c.isAlphanum || c == '_' || c == '-'

def name? : Reader String
  | '"' :: cs => basic? cs
  | '\'' :: cs => literal? cs
  | cs =>
    match cs.takeWhile isBare with
    | [] => none
    | name => some (String.ofList name, cs.dropWhile isBare)

/-- A key, with the spaces around and between its names. -/
def key? (cs : List Char) : Option (Key × List Char) := go (cs.length + 1) cs []
where
  /-- `taken` holds the names so far, the last one first. -/
  go : Nat → List Char → Key → Option (Key × List Char)
    | 0, _, _ => none
    | bound + 1, cs, taken =>
      match name? (skipSpaces cs) with
      | none => none
      | some (name, cs) =>
        match skipSpaces cs with
        | '.' :: cs => go bound cs (name :: taken)
        | cs => some ((name :: taken).reverse, cs)

/-! ### Values -/

/-- The number that digits write to a base.  A `_` may stand between two digits. -/
def grouped? (base : Nat) (isDigit : Char → Bool) (cs : List Char) : Option Nat :=
  let groups := Text.pieces '_' cs
  if groups.all fun g => !g.isEmpty && g.all isDigit then
    some (ofDigits base groups.flatten)
  else none

def decimal? (cs : List Char) : Option Nat :=
  if cs.head? = some '0' ∧ cs ≠ ['0'] then none else grouped? 10 Char.isDigit cs

/-- An integer of 64 bits: decimal with a sign or without one, or hexadecimal, octal or binary
behind `0x`, `0o` or `0b`. -/
def integer? (cs : List Char) : Option Int :=
  let n := match cs with
    | '0' :: 'x' :: cs => (grouped? 16 isHexDigit cs).map Int.ofNat
    | '0' :: 'o' :: cs => (grouped? 8 (fun c => '0' ≤ c && c ≤ '7') cs).map Int.ofNat
    | '0' :: 'b' :: cs => (grouped? 2 (fun c => c == '0' || c == '1') cs).map Int.ofNat
    | '+' :: cs => (decimal? cs).map Int.ofNat
    | '-' :: cs => (decimal? cs).map fun n => -Int.ofNat n
    | cs => (decimal? cs).map Int.ofNat
  n.filter fun n => -9223372036854775808 ≤ n ∧ n ≤ 9223372036854775807

def isWord (c : Char) : Bool := isBare c || c == '+' || c == '.'

/-- A truth value or an integer. -/
def word? (cs : List Char) : Option Scalar :=
  if cs = ['t', 'r', 'u', 'e'] then some (.boolean true)
  else if cs = ['f', 'a', 'l', 's', 'e'] then some (.boolean false)
  else (integer? cs).map .integer

/-- A string, an integer or a truth value. -/
def scalar? : Reader Scalar
  | '"' :: '"' :: '"' :: cs => (multiline? '"' cs).map fun (s, cs) => (.text s, cs)
  | '\'' :: '\'' :: '\'' :: cs => (multiline? '\'' cs).map fun (s, cs) => (.text s, cs)
  | '"' :: cs => (basic? cs).map fun (s, cs) => (.text s, cs)
  | '\'' :: cs => (literal? cs).map fun (s, cs) => (.text s, cs)
  | cs => (word? (cs.takeWhile isWord)).map fun s => (s, cs.dropWhile isWord)

/-- A key, `=`, and a value read by `value`. -/
def pair? {α : Type} (value : Reader α) : Reader (Key × α) := fun cs =>
  match key? cs with
  | some (key, '=' :: cs) => (value (skipSpaces cs)).map fun (v, cs) => ((key, v), cs)
  | _ => none

/-- The rest of a table between braces, read after its opening brace.  It stands on one line, and
a comma stands between two entries. -/
def braced? (cs : List Char) : Option (List (Key × Scalar) × List Char) :=
  match skipSpaces cs with
  | '\x7d' :: cs => some ([], cs)
  | cs => go (cs.length + 1) cs []
where
  /-- `taken` holds the entries so far, the last one first. -/
  go : Nat → List Char → List (Key × Scalar) → Option (List (Key × Scalar) × List Char)
    | 0, _, _ => none
    | bound + 1, cs, taken =>
      match pair? scalar? cs with
      | none => none
      | some (entry, cs) =>
        match skipSpaces cs with
        | ',' :: cs => go bound cs (entry :: taken)
        | '\x7d' :: cs => some ((entry :: taken).reverse, cs)
        | _ => none

def value? : Reader Value
  | '\x7b' :: cs => (braced? cs).map fun (entries, cs) => (.table entries, cs)
  | cs => (scalar? cs).map fun (s, cs) => (.scalar s, cs)

/-! ### Documents -/

def header? (cs : List Char) : Option (Key × List Char) :=
  match key? cs with
  | some (key, ']' :: cs) => some (key, cs)
  | _ => none

/-- One statement up to the end of its line. -/
def statement? (cs : List Char) : Option (Statement × List Char) :=
  let read := match cs with
    | '[' :: cs => (header? cs).map fun (key, cs) => (Statement.header key, cs)
    | cs => (pair? value? cs).map fun ((key, v), cs) => (Statement.entry key v, cs)
  match read with
  | some (s, cs) => (lineEnd? cs).map fun cs => (s, cs)
  | none => none

/-- The statements of a document, in order.  Lines may be empty or hold a comment alone. -/
def statements? (document : String) : Option (List Statement) :=
  let cs := document.toList
  go (cs.length + 1) (if cs.head? = some '\uFEFF' then cs.tail else cs) []
where
  /-- `taken` holds the statements so far, the last one first. -/
  go : Nat → List Char → List Statement → Option (List Statement)
    | 0, _, _ => none
    | bound + 1, cs, taken =>
      match skipSpaces cs with
      | [] => some taken.reverse
      | c :: cs =>
        if c = '#' ∨ c = '\n' ∨ c = '\r' then
          match lineEnd? (c :: cs) with
          | some cs => go bound cs taken
          | none => none
        else match statement? (c :: cs) with
          | some (s, cs) => go bound cs (s :: taken)
          | none => none

end Toml

end FormulaGrid
