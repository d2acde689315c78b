/-
Lines and fields of text.

Text comes in as lines that end in `\n` or `\r\n`, and a line is a row of fields between commas.
There is no quoting: a comma always separates.  Blanks count for nothing at the ends of a name only.

Main definitions:

* `Text.pieces` — the stretches of text between the occurrences of one separator;
* `Text.lines` — the lines of a text, with their ends taken off;
* `Text.fields`, `Text.joinFields` — the fields of a line, and the line that some fields make;
* `Text.trim` — a text without the blanks at its ends.

Main results:

* `Text.intercalate_pieces` — **splitting loses nothing**: the pieces, joined by the separator,
  are the text again;
* `Text.pieces_intercalate` — **joining loses nothing**: pieces free of the separator come back;
* `Text.joinFields_fields` — a line is the join of its fields.
-/

set_option relaxedAutoImplicit false
set_option autoImplicit false

namespace FormulaGrid

namespace Text

/-! ### Pieces between separators -/

/-- Puts one more character in front of the first piece, or starts a new piece at a separator. -/
def consPiece (separator c : Char) : List (List Char) → List (List Char)
  | [] => if c = separator then [[], []] else [[c]]
  | piece :: pieces => if c = separator then [] :: piece :: pieces else (c :: piece) :: pieces

/-- The pieces of `cs` between the occurrences of `separator`, empty ones included.  There is
always one piece more than there are separators. -/
def pieces (separator : Char) (cs : List Char) : List (List Char) :=
  cs.foldr (consPiece separator) [[]]

@[simp] theorem pieces_nil (s : Char) : pieces s [] = [[]] := rfl

@[simp] theorem pieces_cons (s c : Char) (cs : List Char) :
    pieces s (c :: cs) = consPiece s c (pieces s cs) := rfl

theorem pieces_ne_nil (s : Char) (cs : List Char) : pieces s cs ≠ [] := by
  cases cs with
  | nil => simp
  | cons c cs =>
      rw [pieces_cons]
      cases pieces s cs <;> simp only [consPiece] <;> split <;> simp

theorem pieces_cons_separator (s : Char) (cs : List Char) :
    pieces s (s :: cs) = [] :: pieces s cs := by
  rw [pieces_cons]
  cases h : pieces s cs with
  | nil => exact absurd h (pieces_ne_nil s cs)
  | cons p ps => simp [consPiece]

/-- No piece holds the separator. -/
theorem not_mem_of_mem_pieces {s : Char} {cs p : List Char} (h : p ∈ pieces s cs) : s ∉ p := by
  induction cs generalizing p with
  | nil => simp_all
  | cons c cs ih =>
      rw [pieces_cons] at h
      cases hp : pieces s cs with
      | nil => exact absurd hp (pieces_ne_nil s cs)
      | cons q qs =>
          rw [hp] at h ih
          simp only [consPiece] at h
          split at h
          · rcases List.mem_cons.1 h with rfl | h
            · simp
            · exact ih h
          · next hc =>
            rcases List.mem_cons.1 h with rfl | h
            · have := ih (p := q) (by simp)
              simp only [List.mem_cons, not_or]
              exact ⟨fun e => hc e.symm, this⟩
            · exact ih (by simp [h])

/-- **Splitting loses nothing**: the pieces joined by the separator are the text. -/
theorem intercalate_pieces (s : Char) (cs : List Char) : [s].intercalate (pieces s cs) = cs := by
  induction cs with
  | nil => rfl
  | cons c cs ih =>
      rw [pieces_cons]
      cases hp : pieces s cs with
      | nil => exact absurd hp (pieces_ne_nil s cs)
      | cons q qs =>
          rw [hp] at ih
          simp only [consPiece]
          split
          · next hc =>
            subst hc
            cases qs <;> simp_all [List.intercalate]
          · cases qs <;> simp_all [List.intercalate]

/-- A separator cuts the text at its place. -/
theorem pieces_append_cons (s : Char) (p cs : List Char) :
    pieces s (p ++ s :: cs) = pieces s p ++ pieces s cs := by
  induction p with
  | nil => exact pieces_cons_separator s cs
  | cons c p ih =>
      rw [List.cons_append, pieces_cons, ih, pieces_cons]
      cases hp : pieces s p with
      | nil => exact absurd hp (pieces_ne_nil s p)
      | cons q qs =>
          simp only [List.cons_append, consPiece]
          split <;> rfl

theorem pieces_of_not_mem {s : Char} {p : List Char} (h : s ∉ p) : pieces s p = [p] := by
  induction p with
  | nil => rfl
  | cons c p ih =>
      simp only [List.mem_cons, not_or] at h
      rw [pieces_cons, ih h.2]
      simp [consPiece, Ne.symm h.1]

/-- **Joining loses nothing**: pieces that are free of the separator come back. -/
theorem pieces_intercalate {s : Char} {ps : List (List Char)} (hne : ps ≠ [])
    (h : ∀ p ∈ ps, s ∉ p) : pieces s ([s].intercalate ps) = ps := by
  induction ps with
  | nil => exact absurd rfl hne
  | cons p ps ih =>
      cases ps with
      | nil => simpa [List.intercalate] using pieces_of_not_mem (h p (by simp))
      | cons q qs =>
          have hq := ih (by simp) (fun r hr => h r (by simp [hr]))
          have hp : s ∉ p := h p (by simp)
          have e : [s].intercalate (p :: q :: qs) = p ++ s :: [s].intercalate (q :: qs) := by
            simp [List.intercalate]
          rw [e, pieces_append_cons, pieces_of_not_mem hp, hq, List.singleton_append]

/-! ### Lines -/

/-- The line without the carriage return at its end, if it has one. -/
def dropReturn (cs : List Char) : List Char :=
  if cs.getLast? = some '\r' then cs.dropLast else cs

/-- The lines of a text.  A line ends at `\n`, and one `\r` before that `\n` belongs to the end
of the line.  What follows the last `\n` is a line of its own, kept as it stands, unless it is
empty. -/
def lines (text : String) : List String :=
  let stretches := pieces '\n' text.toList
  let ended := stretches.dropLast.map dropReturn
  let rest := stretches.getLast?.toList.filter (· ≠ [])
  (ended ++ rest).map String.ofList

/-! ### Fields -/

/-- The fields of a line: what stands between its commas. -/
def fields (line : String) : List String := (pieces ',' line.toList).map String.ofList

/-- The line that holds the given fields. -/
def joinFields (fs : List String) : String := ",".intercalate fs

theorem fields_ne_nil (line : String) : fields line ≠ [] := by
  simp [fields, pieces_ne_nil]

theorem map_toList_fields (line : String) :
    (fields line).map String.toList = pieces ',' line.toList := by
  simp [fields, Function.comp_def]

/-- A field never holds a comma. -/
theorem comma_not_mem_of_mem_fields {line f : String} (h : f ∈ fields line) : ',' ∉ f.toList := by
  obtain ⟨p, hp, rfl⟩ := List.mem_map.1 h
  simpa using not_mem_of_mem_pieces hp

/-- A line is the join of its fields. -/
theorem joinFields_fields (line : String) : joinFields (fields line) = line := by
  apply String.toList_inj.1
  rw [joinFields, String.toList_intercalate, map_toList_fields]
  exact intercalate_pieces ',' line.toList

/-- Fields that hold no comma are the fields of the line they make. -/
theorem fields_joinFields {fs : List String} (hne : fs ≠ []) (h : ∀ f ∈ fs, ',' ∉ f.toList) :
    fields (joinFields fs) = fs := by
  have e : pieces ',' (joinFields fs).toList = fs.map String.toList := by
    rw [joinFields, String.toList_intercalate]
    refine pieces_intercalate (by simpa using hne) ?_
    intro p hp
    obtain ⟨f, hf, rfl⟩ := List.mem_map.1 hp
    exact h f hf
  rw [fields, e]
  simp [Function.comp_def]

/-! ### Blanks -/

/-- The character has the Unicode property `White_Space`: there are 25 of them, six in ASCII. -/
def isBlank (c : Char) : Bool :=
  let n := c.toNat
  (0x09 ≤ n && n ≤ 0x0D) || n == 0x20 || n == 0x85 || n == 0xA0 || n == 0x1680 ||
    (0x2000 ≤ n && n ≤ 0x200A) || n == 0x2028 || n == 0x2029 || n == 0x202F || n == 0x205F ||
    n == 0x3000

/-- The text without the blanks at its two ends. -/
def trim (cs : List Char) : List Char :=
  ((cs.dropWhile isBlank).reverse.dropWhile isBlank).reverse

end Text

end FormulaGrid
