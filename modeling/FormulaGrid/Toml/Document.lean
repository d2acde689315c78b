/-
TOML documents as tables.

The statements of a document define tables and values, each at a path of names.  A path is defined
once: a table has one header at most, a table between braces and a table made by dotted keys take
no header and no entries from elsewhere, and a value is no table.

Main definitions:

* `Toml.Definition`, `Toml.Document` — what is defined at which path;
* `Toml.Document.define?` — the document with one more statement, unless it defines something
  again;
* `Toml.Document.ofText?` — the document that a text writes.
-/

import FormulaGrid.Toml.Syntax

set_option relaxedAutoImplicit false
set_option autoImplicit false

namespace FormulaGrid

namespace Toml

/-- What is defined at a path. -/
inductive Definition
  | scalar (s : Scalar)
  | braced
  | headed
  /-- A table made by the names before the last one of a dotted key. -/
  | dotted
  /-- A table that only the headers of tables inside it imply. -/
  | implied
deriving DecidableEq, Repr

/-- The definitions of a document, in the order of their first mention. -/
structure Document where
  definitions : List (Key × Definition) := []
deriving DecidableEq, Repr

namespace Document

/-- What is defined at a path. -/
def get? (d : Document) (path : Key) : Option Definition := d.definitions.lookup path

/-- The document with a definition at a path, in the place of an earlier one. -/
def put (d : Document) (path : Key) (x : Definition) : Document :=
  if (d.get? path).isSome then
    ⟨d.definitions.map fun (p, y) => if p = path then (p, x) else (p, y)⟩
  else ⟨d.definitions ++ [(path, x)]⟩

/-- The paths from one name down to the last but one of `path`, each after `base`. -/
def parents (base path : Key) : List Key :=
  (List.range' 1 (path.length - 1)).map fun n => base ++ path.take n

/-- Defines the tables at some paths as `kind`, where nothing is defined.  What is defined already
must be of one of the `opened` kinds. -/
def defineParents? (kind : Definition) (opened : List Definition) :
    List Key → Document → Option Document
  | [], d => some d
  | path :: paths, d =>
    match d.get? path with
    | none => defineParents? kind opened paths (d.put path kind)
    | some x => if x ∈ opened then defineParents? kind opened paths d else none

def defineHeader? (path : Key) (d : Document) : Option Document :=
  (defineParents? .implied [.implied, .headed, .dotted] (parents [] path) d).bind fun d =>
    match d.get? path with
    | none | some .implied => some (d.put path .headed)
    | some _ => none

/-- Defines a path by an entry of the table at `base`. -/
def defineValue? (base path : Key) (x : Definition) (d : Document) : Option Document :=
  (defineParents? .dotted [.dotted] (parents base path) d).bind fun d =>
    match d.get? (base ++ path) with
    | none => some (d.put (base ++ path) x)
    | some _ => none

/-- Defines the entries of the table between braces at `base`. -/
def defineBraced? (base : Key) : List (Key × Scalar) → Document → Option Document
  | [], d => some d
  | (path, s) :: entries, d =>
    (defineValue? base path (.scalar s) d).bind (defineBraced? base entries)

/-- Adds statements to a document.  `base` is the table of the last header. -/
def define? : (base : Key) → List Statement → Document → Option Document
  | _, [], d => some d
  | _, .header path :: ss, d => (defineHeader? path d).bind (define? path ss)
  | base, .entry path (.scalar s) :: ss, d =>
    (defineValue? base path (.scalar s) d).bind (define? base ss)
  | base, .entry path (.table entries) :: ss, d =>
    ((defineValue? base path .braced d).bind (defineBraced? (base ++ path) entries)).bind
      (define? base ss)

def ofText? (text : String) : Option Document :=
  (statements? text).bind fun ss => define? [] ss {}

end Document

end Toml

end FormulaGrid
