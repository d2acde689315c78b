/-
Files: what a run reads and writes.

Main definitions:

* `FileError` — why a file cannot be read or written;
* `FileStore` — the operations on files that a run needs, in any monad that has them;
* `FileStore.writeText` — how a text is put into a file;
* `TextWriter` — what text can be printed on, and `StateM String`, which takes all of it;
* `FileTree` — files and directories as a value, with what the system refuses;
* `FileTree.walk` — where the names of a path lead, step by step.

Main results:

* `FileTree.writeText_cases` — the ways in which writing a file ends, and what it leaves behind;
* `FileTree.place_put` — a file that is put in place is where its path leads.

`FileTree` makes a run a function: it takes a tree to an outcome and the tree after it.  A file is
opened first, which empties it, and then written.  The system can refuse either, and when it refuses
the second it has done the first.
-/

import FormulaGrid.Text.Lines

set_option relaxedAutoImplicit false
set_option autoImplicit false

namespace FormulaGrid

/-- Why a file cannot be read or written. -/
inductive FileError
  | missing
  | notDirectory
  | directory
  | notText
  | tooLarge (path : String) (size limit : Nat)
  /-- Any other refusal of the system, in the system's words. -/
  | other (reason : String)
deriving DecidableEq, Repr

def FileError.message : FileError → String
  | missing => "No such file or directory (os error 2)"
  | notDirectory => "Not a directory (os error 20)"
  | directory => "Is a directory (os error 21)"
  | notText => "stream did not contain valid UTF-8"
  | tooLarge path size limit =>
    s!"Refusing to read {path}: file too large ({size} bytes, max {limit})"
  | other reason => reason

/-- The operations on files that a run needs.  `Handle` is what it has of a file that is open. -/
class FileStore (m : Type → Type) where
  Handle : Type
  /-- The number of bytes behind a path, which may lead to a directory. -/
  size : (path : String) → m (Except FileError Nat)
  isFile : (path : String) → m Bool
  readText : (path : String) → m (Except FileError String)
  /-- Opens a file for writing.  It is made if there is none, and is empty then in any case. -/
  create : (path : String) → m (Except FileError Handle)
  /-- Writes a text to the end of an open file. -/
  append : Handle → (text : String) → m (Except FileError Unit)

/-- Makes the text the whole content of a file, which need not exist yet. -/
def FileStore.writeText {m : Type → Type} [Monad m] [FileStore m] (path text : String) :
    m (Except FileError Unit) := do
  match ← FileStore.create path with
  | .error e => return .error e
  | .ok file => FileStore.append file text

/-- Something on which text is printed, one piece after another. -/
class TextWriter (m : Type → Type) where
  write : (text : String) → m (Except FileError Unit)
  /-- Waits until all pieces have arrived. -/
  flush : m (Except FileError Unit)

instance : TextWriter (StateM String) where
  write text := fun printed => (.ok (), printed ++ text)
  flush := pure (.ok ())

/-! ### Files and directories as a value -/

inductive FileContent
  | text (s : String)
  /-- Bytes that are no text in UTF-8. -/
  | binary (size : Nat)
  /-- A hole: zero bytes that take no space. -/
  | hole (size : Nat)
deriving DecidableEq, Repr

namespace FileContent

def size : FileContent → Nat
  | text s => s.utf8ByteSize
  | binary n => n
  | hole n => n

/-- The content as text. -/
def text? : FileContent → Option String
  | text s => some s
  | binary _ => none
  | hole n => some (String.ofList (List.replicate n '\x00'))

/-- The content with a text at its end. -/
def append (c : FileContent) (s : String) : FileContent :=
  match c.text? with
  | some t => text (t ++ s)
  | none => binary (c.size + s.utf8ByteSize)

@[simp] theorem append_empty (s : String) : (text "").append s = text s := by
  simp [append, text?]

end FileContent

inductive FileEntry
  | file (content : FileContent)
  | directory
deriving DecidableEq, Repr

/-- What a system refuses to do with files, beside what their paths rule out. -/
structure Refusals where
  finding : (place : List String) → Option FileError := fun _ => none
  reading : (place : List String) → Option FileError := fun _ => none
  opening : (place : List String) → Option FileError := fun _ => none
  /-- Why a text is not written to an open file, or not as a whole, and what the file holds then. -/
  writing : (place : List String) → (text : String) → Option (FileError × FileContent) :=
    fun _ _ => none

/-- Files and directories by the names on the way to them from the root.  A path that does not
start at the root starts at the directory `start`. -/
structure FileTree where
  start : List String
  get? : List String → Option FileEntry
  refusals : Refusals := {}

namespace FileTree

/-- The tree that holds nothing but the directory where paths start, and those on the way to
it. -/
def empty (start : List String) : FileTree where
  start
  get? place := if place.isPrefixOf start then some .directory else none

/-- The tree with an entry put in place. -/
def put (t : FileTree) (place : List String) (e : FileEntry) : FileTree :=
  { t with get? := fun p => if p = place then some e else t.get? p }

@[simp] theorem start_put (t : FileTree) (place : List String) (e : FileEntry) :
    (t.put place e).start = t.start := rfl

@[simp] theorem refusals_put (t : FileTree) (place : List String) (e : FileEntry) :
    (t.put place e).refusals = t.refusals := rfl

@[simp] theorem get?_put (t : FileTree) (place p : List String) (e : FileEntry) :
    (t.put place e).get? p = if p = place then some e else t.get? p := rfl

/-- Of two entries that are put in one place the second counts. -/
@[simp] theorem put_put (t : FileTree) (place : List String) (e e' : FileEntry) :
    (t.put place e).put place e' = t.put place e' := by
  simp only [put, mk.injEq, true_and, and_true]
  funext p
  split <;> rfl

/-! ### Paths -/

/-- The names in a path, between its slashes. -/
def names (path : String) : List String :=
  ((Text.pieces '/' path.toList).filter (· ≠ [])).map String.ofList

/-- A path that starts with a slash leads from the root. -/
def startsAtRoot (path : String) : Bool := path.toList.head? == some '/'

/-- A path that ends in a slash can lead to nothing but a directory. -/
def asksForDirectory (path : String) : Bool := path.toList.getLast? == some '/'

/-- The place one name further.  A single dot stays where it is, and two dots go one name back;
the root has nothing behind it. -/
def step (place : List String) (name : String) : List String :=
  if name = "." then place
  else if name = ".." then place.dropLast
  else place ++ [name]

/-- The place to which some names lead.  Each step needs a directory to step from, also a step
back; whether there is anything at the end of the walk is left open. -/
def walk (t : FileTree) : (place names : List String) → Except FileError (List String)
  | place, [] => .ok place
  | place, name :: names =>
    match t.get? place with
    | some .directory => t.walk (step place name) names
    | some (.file _) => .error .notDirectory
    | none => .error .missing

/-- The place to which a path leads.  The empty path leads nowhere. -/
def place (t : FileTree) (path : String) : Except FileError (List String) :=
  if path.isEmpty then .error .missing
  else t.walk (if startsAtRoot path then [] else t.start) (names path)

/-- Where a path leads, and what is there. -/
def find (t : FileTree) (path : String) : Except FileError (List String × FileEntry) :=
  match t.place path with
  | .error e => .error e
  | .ok place =>
    match t.refusals.finding place, t.get? place with
    | some e, _ => .error e
    | none, none => .error .missing
    | none, some .directory => .ok (place, .directory)
    | none, some (.file c) =>
      if asksForDirectory path then .error .notDirectory else .ok (place, .file c)

/-! ### Operations -/

/-- The tree with an entry put at the end of a path from the starting directory, and directories
on the way to it where nothing is. -/
def add (t : FileTree) (path : String) (e : FileEntry) : FileTree :=
  let place := (names path).foldl step t.start
  let parents := (List.range place.length).map place.take
  (parents.foldl (fun t p => if (t.get? p).isNone then t.put p .directory else t) t).put place e

/-- The number of bytes behind a path.  A directory takes one block. -/
def size (t : FileTree) (path : String) : Except FileError Nat :=
  match t.find path with
  | .error e => .error e
  | .ok (_, .directory) => .ok 4096
  | .ok (_, .file c) => .ok c.size

def isFile (t : FileTree) (path : String) : Bool :=
  match t.find path with
  | .ok (_, .file _) => true
  | _ => false

def readText (t : FileTree) (path : String) : Except FileError String :=
  match t.find path with
  | .error e => .error e
  | .ok (_, .directory) => .error .directory
  | .ok (place, .file c) =>
    match t.refusals.reading place with
    | some e => .error e
    | none =>
      match c.text? with
      | some s => .ok s
      | none => .error .notText

/-- Opens a file for writing.  It is made if there is none, and is empty then in any case.  Under a
path that asks for a directory no file is made. -/
def create (t : FileTree) (path : String) : Except FileError (List String × FileTree) :=
  match t.place path with
  | .error e => .error e
  | .ok place =>
    if asksForDirectory path ∨ t.get? place = some .directory then .error .directory
    else match t.refusals.opening place with
      | some e => .error e
      | none => .ok (place, t.put place (.file (.text "")))

/-- Writes a text to the end of the file in a place.  What is written to a file that is no longer
there is lost. -/
def append (t : FileTree) (place : List String) (text : String) :
    Except FileError Unit × FileTree :=
  match t.get? place with
  | some (.file c) =>
    match t.refusals.writing place text with
    | some (e, left) => (.error e, t.put place (.file left))
    | none => (.ok (), t.put place (.file (c.append text)))
  | _ => (.ok (), t)

/-- Makes the text the whole content of a file. -/
def writeText (t : FileTree) (path text : String) : Except FileError Unit × FileTree :=
  match t.create path with
  | .error e => (.error e, t)
  | .ok (place, t) => t.append place text

/-- Opening a file for writing puts an empty file where the path leads. -/
theorem create_eq_ok_iff {t t' : FileTree} {path : String} {place : List String} :
    t.create path = .ok (place, t') ↔
      t.place path = .ok place ∧ asksForDirectory path = false ∧
        t.get? place ≠ some .directory ∧ t.refusals.opening place = none ∧
        t' = t.put place (.file (.text "")) := by
  unfold create
  cases t.place path with
  | error e => simp
  | ok q =>
      by_cases h : asksForDirectory path ∨ t.get? q = some .directory
      · simp only [h, if_true, reduceCtorEq, false_iff, Except.ok.injEq]
        rintro ⟨rfl, hp, hd, -⟩
        exact h.elim (by simp [hp]) hd
      · simp only [h, if_false, Except.ok.injEq]
        rw [not_or, Bool.not_eq_true] at h
        cases hopen : t.refusals.opening q with
        | some e =>
            simp only [reduceCtorEq, false_iff]
            rintro ⟨rfl, -, -, hnone, -⟩
            cases hopen.symm.trans hnone
        | none =>
            simp only [Except.ok.injEq, Prod.mk.injEq]
            constructor
            · rintro ⟨rfl, rfl⟩
              exact ⟨rfl, h.1, h.2, hopen, rfl⟩
            · rintro ⟨rfl, -, -, -, rfl⟩
              exact ⟨rfl, rfl⟩

/-- **The ways in which writing a file ends.**  The file is not opened, and nothing has changed; or
it is opened, and it holds the whole text, or what the system has left there when it refused the
text. -/
theorem writeText_cases (t : FileTree) (path text : String) :
    (∃ e, t.create path = .error e ∧ t.writeText path text = (.error e, t)) ∨
    ∃ place t₁, t.create path = .ok (place, t₁) ∧
      ((t.refusals.writing place text = none ∧
          t.writeText path text = (.ok (), t.put place (.file (.text text)))) ∨
        ∃ e left, t.refusals.writing place text = some (e, left) ∧
          t.writeText path text = (.error e, t.put place (.file left))) := by
  unfold writeText
  cases hcreate : t.create path with
  | error e => exact .inl ⟨e, rfl, rfl⟩
  | ok r =>
      obtain ⟨place, t₁⟩ := r
      obtain ⟨-, -, -, -, rfl⟩ := create_eq_ok_iff.1 hcreate
      refine .inr ⟨place, _, rfl, ?_⟩
      simp only [append, get?_put, if_true, refusals_put]
      cases t.refusals.writing place text with
      | none => exact .inl ⟨rfl, by simp⟩
      | some r =>
          obtain ⟨e, left⟩ := r
          exact .inr ⟨e, left, rfl, by simp⟩

end FileTree

instance : FileStore (StateM FileTree) where
  Handle := List String
  size path := fun t => (t.size path, t)
  isFile path := fun t => (t.isFile path, t)
  readText path := fun t => (t.readText path, t)
  create path := fun t =>
    match t.create path with
    | .ok (place, t') => (.ok place, t')
    | .error e => (.error e, t)
  append place text := fun t => t.append place text

end FormulaGrid
