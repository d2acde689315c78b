/-
**Which texts are formulas, and what each of the others lacks.**

A formula text is `=`, an operand without operation symbols, a symbol, and any further text.  The
parser accepts exactly these texts, each as the one formula that it writes, and it gives each other
text exactly one fault.  The checks overlap, so the conditions here say what the earlier checks
leave over.  The check of the length comes before the text is cut, and it is made in bytes, but it
turns away no formula.

The parser here goes over characters.  A parser on text that is kept as bytes finds the operation
at an offset in bytes and takes slices of bytes there, which would be no text if a cut fell inside
a character.  Such a parser is written down as well, and it comes to the same result: the symbols
take one byte each, and what precedes the first of them are whole characters.

Main definitions:

* `Formula.Written` — the formulas that a text can write;
* `Formula.Refusal` — what a text lacks that writes none;
* `Text.slice?` — a slice of the bytes of a text, if it is a text itself;
* `Formula.parseBytes?` — the parser by offsets and slices.

Main results:

* `Formula.parse_of_written`, `Formula.parse_of_refusal`, `Formula.writes_or_refusal` — every text
  falls under one of the two;
* `Formula.parseBytes?_eq` — **no slice cuts a character**, and the result is the same;
* `Formula.parse_grammar` — **the parser accepts exactly the grammar and undoes the printer**.
-/

import FormulaGrid.Proofs.Cells
import Mathlib.Data.List.TakeWhile

set_option relaxedAutoImplicit false
set_option autoImplicit false

namespace FormulaGrid

/-- The character is the symbol of an operation. -/
def Operation.IsSymbol (c : Char) : Prop := c = '+' ∨ c = '-' ∨ c = '*' ∨ c = '/'

theorem Operation.isSymbol_iff {c : Char} : IsSymbol c ↔ ∃ op : Operation, c = op.symbol := by
  constructor
  · rintro (rfl | rfl | rfl | rfl)
    exacts [⟨.add, rfl⟩, ⟨.sub, rfl⟩, ⟨.mul, rfl⟩, ⟨.div, rfl⟩]
  · rintro ⟨op, rfl⟩
    cases op <;> simp [IsSymbol, symbol]

namespace Formula

/-! ### The first symbol -/

theorem isPlain_iff {c : Char} : isPlain c = true ↔ ¬ Operation.IsSymbol c := by
  rw [Operation.isSymbol_iff, isPlain, Option.isNone_iff_eq_none,
    Option.eq_none_iff_forall_ne_some]
  simp only [ne_eq, Operation.ofSymbol?_eq_some_iff, not_exists]

/-- A text is cut character by character. -/
theorem cut?_cons (c : Char) (cs : List Char) :
    cut? (c :: cs) = match Operation.ofSymbol? c with
      | some op => some ([], op, cs)
      | none => (cut? cs).map fun (left, op, right) => (c :: left, op, right) := by
  cases hc : Operation.ofSymbol? c with
  | some op => simp [cut?, isPlain, hc]
  | none =>
      have hplain : isPlain c = true := by simp [isPlain, hc]
      simp only [cut?, List.dropWhile_cons_of_pos hplain, List.takeWhile_cons_of_pos hplain]
      cases cs.dropWhile isPlain with
      | nil => rfl
      | cons d right => cases hd : Operation.ofSymbol? d <;> simp [hd]

theorem cut?_eq_none_iff {body : List Char} :
    cut? body = none ↔ ∀ c ∈ body, ¬ Operation.IsSymbol c := by
  induction body with
  | nil => simp [cut?]
  | cons c cs ih =>
      rw [cut?_cons, List.forall_mem_cons, ← isPlain_iff, isPlain]
      cases Operation.ofSymbol? c with
      | some op => simp
      | none => simpa using ih

/-- The first symbol cuts: in front of it there is none. -/
theorem cut?_eq_some_iff {body left right : List Char} {op : Operation} :
    cut? body = some (left, op, right) ↔
      body = left ++ op.symbol :: right ∧ ∀ c ∈ left, ¬ Operation.IsSymbol c := by
  constructor
  · intro h
    refine ⟨eq_append_of_cut? h, fun c hc => ?_⟩
    unfold cut? at h
    split at h
    · cases h
    · obtain ⟨op', -, heq⟩ := Option.map_eq_some_iff.1 h
      obtain rfl := (Prod.mk.inj heq).1
      exact isPlain_iff.1 (List.mem_takeWhile_imp hc)
  · rintro ⟨rfl, hplain⟩
    induction left with
    | nil => simp [cut?_cons]
    | cons c left ih =>
        rw [List.forall_mem_cons] at hplain
        have hc : Operation.ofSymbol? c = none := by
          simpa [isPlain] using isPlain_iff.2 hplain.1
        rw [List.cons_append, cut?_cons, hc, ih hplain.2]
        rfl

/-! ### The grammar -/

/-- The formulas that a text can write: both operands are there, and the left one holds no
symbol. -/
structure Written (f : Formula) : Prop where
  left_ne : f.left ≠ ""
  left_plain : ∀ c ∈ f.left.toList, ¬ Operation.IsSymbol c
  right_ne : f.right ≠ ""

/-- What a text lacks that writes no formula. -/
inductive Refusal (text : String) : Fault → Prop
  | notFormula (h : ∀ body, text ≠ "=" ++ body) : Refusal text (.notFormula text)
  | tooShort {body : String} (h : text = "=" ++ body) (hsize : text.utf8ByteSize < 4) :
      Refusal text (.formulaTooShort text)
  | noOperation {body : String} (h : text = "=" ++ body) (hsize : 4 ≤ text.utf8ByteSize)
      (hplain : ∀ c ∈ body.toList, ¬ Operation.IsSymbol c) : Refusal text (.noOperation body)
  /-- The text after the `=` starts with a symbol. -/
  | noLeft {body : String} {c : Char} {cs : List Char} (h : text = "=" ++ body)
      (hsize : 4 ≤ text.utf8ByteSize) (hbody : body.toList = c :: cs)
      (hc : Operation.IsSymbol c) : Refusal text (.noLeftOperand body)
  /-- The first symbol ends the text, and something else stands before it. -/
  | noRight {body : String} {c : Char} {cs : List Char} (h : text = "=" ++ body)
      (hsize : 4 ≤ text.utf8ByteSize) (hbody : body.toList = cs ++ [c]) (hne : cs ≠ [])
      (hplain : ∀ d ∈ cs, ¬ Operation.IsSymbol d) (hc : Operation.IsSymbol c) :
      Refusal text (.noRightOperand body)

/-- The `=`, the symbol and two operands take four bytes at least. -/
theorem Written.four_le_size {f : Formula} (h : f.Written) :
    4 ≤ ("=" ++ f.text).utf8ByteSize := by
  have hpos : ∀ s : String, s ≠ "" → 0 < s.utf8ByteSize := by
    intro s hs
    exact Nat.pos_of_ne_zero fun hzero => hs (String.utf8ByteSize_eq_zero_iff.1 hzero)
  have hleft := hpos f.left h.left_ne
  have hright := hpos f.right h.right_ne
  have hop : f.op.symbol.toString.utf8ByteSize = 1 := by
    cases f.op <;> rfl
  have heq : "=".utf8ByteSize = 1 := rfl
  simp only [text, String.utf8ByteSize_append, hop, heq]
  omega

section

variable {text body : String}

theorem eq_append_iff : text = "=" ++ body ↔ text.toList = '=' :: body.toList := by
  rw [← String.toList_inj]
  simp

/-- After the `=` and the check of the length, all depends on the first symbol. -/
theorem parse_of_size (h : text = "=" ++ body) (hsize : 4 ≤ text.utf8ByteSize) :
    parse text = match cut? body.toList with
      | none => .error (.noOperation body)
      | some ([], _, _) => .error (.noLeftOperand body)
      | some (_, _, []) => .error (.noRightOperand body)
      | some (left, op, right) => .ok ⟨String.ofList left, op, String.ofList right⟩ := by
  have hsize : ¬ text.utf8ByteSize < 4 := by omega
  rcases hcut : cut? body.toList with _ | ⟨_ | _, op, _ | _⟩ <;>
    simp only [parse, eq_append_iff.1 h, if_neg hsize, String.ofList_toList, hcut]

/-- **A text that writes a formula is read as that formula.** -/
theorem parse_of_written {f : Formula} (h : f.Written) : parse ("=" ++ f.text) = .ok f := by
  rw [parse_of_size rfl h.four_le_size]
  have hcut : cut? f.text.toList = some (f.left.toList, f.op, f.right.toList) := by
    refine cut?_eq_some_iff.2 ⟨?_, h.left_plain⟩
    simp [Formula.text]
  have hleft : f.left.toList ≠ [] := by simpa using h.left_ne
  have hright : f.right.toList ≠ [] := by simpa using h.right_ne
  rw [hcut]
  split
  · next heq => cases heq
  · next heq =>
    obtain ⟨heq, -⟩ := Prod.mk.inj (Option.some.inj heq)
    exact absurd heq hleft
  · next heq =>
    obtain ⟨-, heq⟩ := Prod.mk.inj (Option.some.inj heq)
    exact absurd (Prod.mk.inj heq).2 hright
  · next heq =>
    cases heq
    simp

/-- **A text that lacks something is refused for it.** -/
theorem parse_of_refusal {e : Fault} (h : Refusal text e) : parse text = .error e := by
  cases h with
  | notFormula h =>
      unfold parse
      split
      · next cs hcs =>
        refine absurd ?_ (h (String.ofList cs))
        simpa [eq_append_iff] using hcs
      · rfl
  | tooShort h hsize => simp only [parse, eq_append_iff.1 h, if_pos hsize]
  | noOperation h hsize hplain => rw [parse_of_size h hsize, cut?_eq_none_iff.2 hplain]
  | noLeft h hsize hbody hc =>
      obtain ⟨op, rfl⟩ := Operation.isSymbol_iff.1 hc
      rw [parse_of_size h hsize, hbody, cut?_cons, Operation.ofSymbol?_symbol]
  | @noRight body c cs h hsize hbody hne hplain hc =>
      obtain ⟨op, rfl⟩ := Operation.isSymbol_iff.1 hc
      rw [parse_of_size h hsize, hbody, cut?_eq_some_iff.2 ⟨rfl, hplain⟩]
      cases cs with
      | nil => exact absurd rfl hne
      | cons d cs => rfl

/-- Every text writes a formula or lacks something. -/
theorem writes_or_refusal (text : String) :
    (∃ f : Formula, f.Written ∧ text = "=" ++ f.text) ∨ ∃ e, Refusal text e := by
  by_cases hstart : ∃ body, text = "=" ++ body
  · obtain ⟨body, hbody⟩ := hstart
    rcases Nat.lt_or_ge text.utf8ByteSize 4 with hsize | hsize
    · exact .inr ⟨_, .tooShort hbody hsize⟩
    · rcases hcut : cut? body.toList with _ | ⟨left, op, right⟩
      · exact .inr ⟨_, .noOperation hbody hsize (cut?_eq_none_iff.1 hcut)⟩
      · obtain ⟨heq, hplain⟩ := cut?_eq_some_iff.1 hcut
        have hop : Operation.IsSymbol op.symbol := Operation.isSymbol_iff.2 ⟨op, rfl⟩
        by_cases hleft : left = []
        · subst hleft
          exact .inr ⟨_, .noLeft hbody hsize heq hop⟩
        by_cases hright : right = []
        · subst hright
          exact .inr ⟨_, .noRight hbody hsize heq hleft hplain hop⟩
        refine .inl ⟨⟨String.ofList left, op, String.ofList right⟩, ⟨?_, ?_, ?_⟩, ?_⟩
        · simpa using hleft
        · simpa using hplain
        · simpa using hright
        · rw [hbody, ← String.toList_inj]
          simp [Formula.text, heq]
  · exact .inr ⟨_, .notFormula fun body hbody => hstart ⟨body, hbody⟩⟩

end

end Formula

/-! ### Texts as bytes -/

namespace Text

/-- The first `offset` bytes of a text as a text; there is none if the cut falls inside a character
or behind the end. -/
def upTo? (text : String) (offset : Nat) : Option String :=
  if offset ≤ text.utf8ByteSize then String.fromUTF8? (text.toByteArray.extract 0 offset) else none

/-- The bytes of a text from `offset` on as a text; there is none if the cut falls inside a
character or behind the end. -/
def from? (text : String) (offset : Nat) : Option String :=
  if offset ≤ text.utf8ByteSize then
    String.fromUTF8? (text.toByteArray.extract offset text.utf8ByteSize)
  else none

/-- The characters of a text, each with the number of bytes before it, where `offset` bytes come
before the first. -/
def charOffsets (offset : Nat) : List Char → List (Nat × Char)
  | [] => []
  | c :: cs => (offset, c) :: charOffsets (offset + c.utf8Size) cs

theorem fromUTF8?_toByteArray (text : String) : String.fromUTF8? text.toByteArray = some text := by
  rw [String.fromUTF8?, dif_pos text.isValidUTF8]
  rfl

theorem upTo?_append (a b : String) : upTo? (a ++ b) a.utf8ByteSize = some a := by
  have hle : a.utf8ByteSize ≤ (a ++ b).utf8ByteSize := by
    rw [String.utf8ByteSize_append]
    omega
  rw [upTo?, if_pos hle, String.toByteArray_append,
    ByteArray.extract_append_eq_left String.size_toByteArray.symm, fromUTF8?_toByteArray]

theorem from?_append (a b : String) : from? (a ++ b) a.utf8ByteSize = some b := by
  have hsize := String.utf8ByteSize_append (s := a) (t := b)
  have hle : a.utf8ByteSize ≤ (a ++ b).utf8ByteSize := by omega
  have hstop : (a ++ b).utf8ByteSize = a.toByteArray.size + b.toByteArray.size := by
    rw [String.size_toByteArray, String.size_toByteArray, hsize]
  rw [from?, if_pos hle, String.toByteArray_append,
    ByteArray.extract_append_eq_right String.size_toByteArray.symm hstop, fromUTF8?_toByteArray]

end Text

namespace Formula

/-- The first symbol of a text, with the number of bytes before it, where `offset` bytes come
before the text. -/
def firstSymbol? (offset : Nat) (cs : List Char) : Option (Nat × Operation) :=
  (Text.charOffsets offset cs).findSome? fun entry => (Operation.ofSymbol? entry.2).map (entry.1, ·)

/-- The parser on bytes: the first symbol is found at an offset, and the operands are the slices
before it and behind its one byte.  There is no result if a slice is no text. -/
def parseBytes? (text : String) : Option (Except Fault Formula) :=
  match text.toList with
  | '=' :: cs =>
    let body := String.ofList cs
    if text.utf8ByteSize < 4 then some (.error (.formulaTooShort text))
    else match firstSymbol? 0 cs with
      | none => some (.error (.noOperation body))
      | some (offset, op) =>
        (Text.upTo? body offset).bind fun left =>
          if left.isEmpty then some (.error (.noLeftOperand body))
          else (Text.from? body (offset + 1)).map fun right =>
            if right.isEmpty then .error (.noRightOperand body) else .ok ⟨left, op, right⟩
  | _ => some (.error (.notFormula text))

/-- The offset of the first symbol is the number of bytes before it. -/
theorem firstSymbol?_eq (offset : Nat) (cs : List Char) :
    firstSymbol? offset cs =
      (cut? cs).map fun parts => (offset + (String.ofList parts.1).utf8ByteSize, parts.2.1) := by
  induction cs generalizing offset with
  | nil => rfl
  | cons c cs ih =>
      have hstep : firstSymbol? offset (c :: cs) =
          match Operation.ofSymbol? c with
          | some op => some (offset, op)
          | none => firstSymbol? (offset + c.utf8Size) cs := by
        rw [firstSymbol?, Text.charOffsets, List.findSome?_cons]
        cases Operation.ofSymbol? c <;> rfl
      rw [hstep, cut?_cons]
      cases Operation.ofSymbol? c with
      | some op => simp
      | none =>
          dsimp only
          rw [ih, Option.map_map]
          refine congrArg (fun k => (cut? cs).map k) (funext fun parts => ?_)
          simp [String.ofList_cons, String.utf8ByteSize_append, Nat.add_assoc]

/-- **No slice cuts a character**, and the parser on bytes comes to the same result. -/
theorem parseBytes?_eq (text : String) : parseBytes? text = some (parse text) := by
  unfold parseBytes?
  split
  · next cs hcs =>
    simp only [parse, hcs]
    split
    · rfl
    rcases hcut : cut? cs with _ | ⟨left, op, right⟩
    · simp [firstSymbol?_eq, hcut]
    have hbody : String.ofList cs =
        String.ofList left ++ op.symbol.toString ++ String.ofList right := by
      rw [← String.toList_inj, (cut?_eq_some_iff.1 hcut).1]
      simp
    -- the left operand ends where the symbol is, and the right one starts a byte later
    have hleft : Text.upTo? (String.ofList cs) (String.ofList left).utf8ByteSize =
        some (String.ofList left) := by
      rw [hbody, String.append_assoc]
      exact Text.upTo?_append _ _
    have hright : Text.from? (String.ofList cs) ((String.ofList left).utf8ByteSize + 1) =
        some (String.ofList right) := by
      have hop : (String.ofList left).utf8ByteSize + 1 =
          (String.ofList left ++ op.symbol.toString).utf8ByteSize := by
        rw [String.utf8ByteSize_append]
        cases op <;> rfl
      rw [hop, hbody]
      exact Text.from?_append _ _
    simp only [firstSymbol?_eq, hcut, Option.map_some, Nat.zero_add, hleft, hright,
      Option.bind_some]
    rcases left with _ | ⟨c, left⟩
    · rfl
    · rcases right with _ | ⟨d, right⟩
      · simp
      · simp
  · next hstart =>
    have hparse : parse text = .error (.notFormula text) := by
      unfold parse
      split
      · next cs hcs => exact absurd hcs (hstart cs)
      · rfl
    rw [hparse]

/-- **The parser accepts exactly the grammar and undoes the printer.**  A text is read as a formula
exactly if it is `=`, a left operand without symbols, a symbol and a right operand; and the text of
that formula is the text without the `=`.  Each other text is refused for the first thing that it
lacks.  The printer and the parser undo each other on the formulas that can be written, and the
length turns none of them away.  On bytes the result is the same. -/
theorem parse_grammar (text : String) :
    (∀ f : Formula, parse text = .ok f ↔
      f.Written ∧ text = "=" ++ f.left ++ f.op.symbol.toString ++ f.right) ∧
    (∀ f : Formula, parse text = .ok f → text = "=" ++ f.text) ∧
    (∀ e, parse text = .error e ↔ Refusal text e) ∧
    (∀ f : Formula, parse ("=" ++ f.text) = .ok f ↔ f.Written) ∧
    (∀ f : Formula, f.Written → 4 ≤ ("=" ++ f.text).utf8ByteSize) ∧
    parseBytes? text = some (parse text) := by
  have hshape : ∀ f : Formula,
      "=" ++ f.left ++ f.op.symbol.toString ++ f.right = "=" ++ f.text := by
    intro f
    simp only [Formula.text, String.append_assoc]
  have hwritten : ∀ {text : String} {f : Formula}, parse text = .ok f → f.Written := by
    intro text f h
    rcases writes_or_refusal text with ⟨f', hf', rfl⟩ | ⟨e, he⟩
    · obtain rfl := Except.ok.inj ((parse_of_written hf').symm.trans h)
      exact hf'
    · cases (parse_of_refusal he).symm.trans h
  refine ⟨fun f => ?_, fun f => text_of_parse, fun e => ⟨fun h => ?_, parse_of_refusal⟩,
    fun f => ⟨hwritten, parse_of_written⟩, fun f => Written.four_le_size, parseBytes?_eq text⟩
  · rw [hshape]
    constructor
    · intro h
      exact ⟨hwritten h, text_of_parse h⟩
    · rintro ⟨hf, rfl⟩
      exact parse_of_written hf
  · rcases writes_or_refusal text with ⟨f, hf, rfl⟩ | ⟨e', he'⟩
    · cases (parse_of_written hf).symm.trans h
    · obtain rfl := Except.error.inj ((parse_of_refusal he').symm.trans h)
      exact he'

/-- The first of two symbols is the operation, a second one goes to the right operand, and a letter
of two bytes stands before them. -/
theorem parse_grammar_two_symbols :
    parse "=é1*-2" = .ok ⟨"é1", .mul, "-2"⟩ ∧
      "=é1*-2" = "=" ++ (⟨"é1", .mul, "-2"⟩ : Formula).text := by
  have hparse : parse "=é1*-2" = .ok ⟨"é1", .mul, "-2"⟩ := by
    refine ((parse_grammar "=é1*-2").1 _).2 ⟨⟨by decide, ?_, by decide⟩, rfl⟩
    simp [Operation.IsSymbol]
  exact ⟨hparse, (parse_grammar "=é1*-2").2.1 _ hparse⟩

end Formula

end FormulaGrid
