/-
**The order of groups does not matter.**

What a group looks like is said here word by word, apart from the scan, and so is what groups ask
for.  Arguments are accepted if and only if they are groups, one after the other, with one input
file at most.  Otherwise the scan ends behind the groups that it finds: at a request for help, or at
an argument where no group starts that may follow.

So two command lines come to the same if one has the groups of the other in another order, as long
as groups of one kind keep theirs.

Main definitions:

* `Text.Writes`, `LoopPolicy.Names` — the values of options, apart from their readers;
* `Group.Proper`, `IsCommandLine` — the groups that there are, and which of them go together;
* `Arguments.AskedBy` — what groups ask for, each option with the value of its last group;
* `Arguments.AsksHelp`, `Arguments.Breaks` — how else a scan ends;
* `Group.kind`, `Reorders` — another order of the groups that keeps the order within each kind.

Main results:

* `Group.valid_iff_proper` — **the scan takes in the groups that there are**;
* `Arguments.exists_scan_refused_iff` — **an argument is refused if no group starts there**;
* `Reorders.isCommandLine`, `Reorders.ofGroups_eq` — **the order of groups does not matter**;
* `Arguments.scan_groups` — **the outcome of a command line, said by its groups**.
-/

import FormulaGrid.Command.Procedure
import FormulaGrid.Proofs.Scanning
import Mathlib.Data.List.Basic

set_option relaxedAutoImplicit false
set_option autoImplicit false

namespace FormulaGrid

/-! ### Values of options -/

namespace Text

/-- The text writes a natural number: one or more ASCII digits, with at most one `+` before them. -/
inductive Writes : List Char → Nat → Prop
  | digits {cs : List Char} (hne : cs ≠ []) (hcs : ∀ c ∈ cs, c.isDigit = true) :
      Writes cs (Nat.ofDigitChars 10 cs 0)
  | plus {cs : List Char} (hne : cs ≠ []) (hcs : ∀ c ∈ cs, c.isDigit = true) :
      Writes ('+' :: cs) (Nat.ofDigitChars 10 cs 0)

theorem digits?_eq_some_iff {cs : List Char} {n : Nat} :
    digits? cs = some n ↔
      (cs ≠ [] ∧ ∀ c ∈ cs, c.isDigit = true) ∧ Nat.ofDigitChars 10 cs 0 = n := by
  rw [digits?, Option.ite_none_right_eq_some, List.all_eq_true, Option.some.injEq]

/-- Text that starts with a digit is read without a sign. -/
theorem natural?_of_isDigit_head {c : Char} {cs : List Char} (h : c.isDigit = true) :
    natural? (c :: cs) = digits? (c :: cs) := by
  unfold natural?
  split
  · next heq =>
      cases heq
      exact absurd h (by decide)
  · rfl

theorem natural?_eq_some_iff {cs : List Char} {n : Nat} : natural? cs = some n ↔ Writes cs n := by
  constructor
  · intro h
    unfold natural? at h
    split at h
    all_goals obtain ⟨⟨hne, hcs⟩, rfl⟩ := digits?_eq_some_iff.1 h
    · exact .plus hne hcs
    · exact .digits hne hcs
  · rintro (⟨hne, hcs⟩ | ⟨hne, hcs⟩)
    · obtain ⟨c, cs, rfl⟩ := List.exists_cons_of_ne_nil hne
      rw [natural?_of_isDigit_head (hcs c List.mem_cons_self)]
      exact digits?_eq_some_iff.2 ⟨⟨hne, hcs⟩, rfl⟩
    · exact digits?_eq_some_iff.2 ⟨⟨hne, hcs⟩, rfl⟩

/-- A text writes one number at most. -/
theorem Writes.unique {cs : List Char} {m n : Nat} (hm : Writes cs m) (hn : Writes cs n) : m = n :=
  Option.some.inj ((natural?_eq_some_iff.2 hm).symm.trans (natural?_eq_some_iff.2 hn))

end Text

namespace LoopPolicy

/-- The names of a policy, in small letters. -/
def names : LoopPolicy → List String
  | selfOnly => ["self", "self-only"]
  | full => ["full"]

/-- The text names the policy, blanks around it and the case of its ASCII letters apart. -/
def Names (p : LoopPolicy) (text : String) : Prop :=
  String.ofList ((Text.trim text.toList).map Char.toLower) ∈ p.names

theorem ofName_eq_ok_iff {text : String} {p : LoopPolicy} : ofName text = .ok p ↔ p.Names text := by
  unfold ofName Names
  cases p <;> grind [names]

end LoopPolicy

/-- A bound on nested formulas is accepted if it is written as a natural number and is one from 1 to
`Settings.greatestDepth`.  All of these have 64 bits. -/
theorem Arguments.depthOfText_eq_ok_iff {text : String} {n : Nat} :
    depthOfText text = .ok n ↔ Text.Writes text.toList n ∧ 1 ≤ n ∧ n ≤ Settings.greatestDepth := by
  rw [← Text.natural?_eq_some_iff]
  constructor
  · intro h
    unfold depthOfText at h
    split at h
    · cases h
    next d hd =>
      obtain ⟨htext, -⟩ := Option.filter_eq_some_iff.1 hd
      split at h
      · cases h
      next k hk =>
        cases h
        obtain ⟨rfl, hrange⟩ := Settings.checkDepth_eq_ok_iff.1 hk
        exact ⟨htext, hrange⟩
  · rintro ⟨htext, hrange⟩
    have hcheck : Settings.checkDepth n = .ok n := Settings.checkDepth_eq_ok_iff.2 ⟨rfl, hrange⟩
    have hbits : n < 18446744073709551616 := Nat.lt_of_le_of_lt hrange.2 (by decide)
    simp only [depthOfText, htext, Option.filter_some, decide_eq_true hbits, if_true, hcheck]

/-! ### Groups, word by word -/

namespace Group

/-- What each group is made of. -/
def Proper : Group → Prop
  | memoize | noConfig => True
  | value .output flag _ => flag = "-o" ∨ flag = "--output"
  | value .config flag _ => flag = "--config"
  | value .maxDepth flag text =>
    flag = "--max-depth" ∧ ∃ n, Text.Writes text.toList n ∧ 1 ≤ n ∧ n ≤ Settings.greatestDepth
  | value .cycles flag text => flag = "--cycles" ∧ ∃ p : LoopPolicy, p.Names text
  | input path => path.toList.head? ≠ some '-'

/-- What the first word of a group is. -/
def kind : Group → Word
  | memoize => .memoize
  | noConfig => .noConfig
  | value option _ _ => .takes option
  | input _ => .input

end Group

theorem Word.ofText_eq_input_iff {arg : String} :
    ofText arg = .input ↔ arg.toList.head? ≠ some '-' := by
  constructor
  · intro h
    unfold ofText at h
    grind
  · intro h
    -- every option starts with a hyphen
    have hne : ∀ flag : String, flag.toList.head? = some '-' → arg ≠ flag :=
      fun _ hflag heq => h (heq ▸ hflag)
    simp only [ofText, hne "-h" rfl, hne "--help" rfl, hne "-o" rfl, hne "--output" rfl,
      hne "--max-depth" rfl, hne "--cycles" rfl, hne "--memoize" rfl, hne "--config" rfl,
      hne "--no-config" rfl, h, or_self, if_false]

namespace Group

/-- **The scan takes in the groups that there are.** -/
theorem valid_iff_proper {g : Group} : g.Valid ↔ g.Proper := by
  cases g with
  | memoize | noConfig => exact Iff.rfl
  | input path => exact Word.ofText_eq_input_iff
  | value option flag text =>
      cases option <;>
        simp [Valid, Proper, ValueOption.flags, ValueOption.Takes, LoopPolicy.ofName_eq_ok_iff,
          Arguments.depthOfText_eq_ok_iff]

/-- A group is known by its first word. -/
theorem ofText_eq_kind {g : Group} (hg : g.Valid) {word : String} {rest rest' : List String}
    (h : word :: rest = g.words ++ rest') : Word.ofText word = g.kind := by
  cases g with
  | memoize | noConfig =>
      obtain ⟨rfl, -⟩ := List.cons.inj h
      decide
  | value option flag text =>
      obtain ⟨rfl, -⟩ := List.cons.inj h
      exact Word.ofText_eq_takes_iff.2 hg.1
  | input path =>
      obtain ⟨rfl, -⟩ := List.cons.inj h
      exact hg

theorem mem_filterMap_input? {gs : List Group} {path : String} :
    path ∈ gs.filterMap input? ↔ .input path ∈ gs := by
  rw [List.mem_filterMap]
  constructor
  · rintro ⟨g, hg, hpath⟩
    cases g <;> cases hpath
    exact hg
  · exact fun h => ⟨_, h, rfl⟩

end Group

/-- The groups make up a command line: each is one of those that there are, and one of them at most
is the name of an input file. -/
def IsCommandLine (gs : List Group) : Prop :=
  (∀ g ∈ gs, g.Proper) ∧ (gs.filterMap Group.input?).length ≤ 1

namespace Arguments

theorem admits_iff_isCommandLine {gs : List Group} :
    ({} : Arguments).Admits gs ↔ IsCommandLine gs := by
  simp [Admits, IsCommandLine, Group.valid_iff_proper]

theorem admits_append {a : Arguments} {gs hs : List Group} :
    a.Admits (gs ++ hs) ↔ a.Admits gs ∧ (gs.foldl take a).Admits hs := by
  induction gs generalizing a with
  | nil => simp [admits_nil]
  | cons g gs ih => simp only [List.cons_append, admits_cons, ih, List.foldl_cons, and_assoc]

/-! ### How a scan ends early -/

/-- No group starts here that may follow what `a` asks for. -/
theorem Refuses.not_admits {a : Arguments} {args rest : List String} {e : ArgumentError}
    {g : Group} (h : a.Refuses args e) (hargs : args = g.words ++ rest) : ¬ a.Admits [g] := by
  intro hadmits
  obtain ⟨hg, hinput, -⟩ := admits_cons.1 hadmits
  cases h with
  | @noValue option flag hflag =>
      have hkind := Group.ofText_eq_kind hg hargs
      rw [Word.ofText_eq_takes_iff.2 hflag] at hkind
      cases g <;> cases hkind
      -- the option and its value are two words
      simp [Group.words] at hargs
  | @badValue option flag value e hflag he =>
      have hkind := Group.ofText_eq_kind hg hargs
      rw [Word.ofText_eq_takes_iff.2 hflag] at hkind
      cases g <;> cases hkind
      simp only [Group.words, List.cons_append, List.nil_append, List.cons.injEq] at hargs
      obtain ⟨-, rfl, -⟩ := hargs
      obtain ⟨b, hb⟩ := (takes_iff_exists_setOption a).1 hg.2
      rw [hb] at he
      cases he
  | unknownOption harg =>
      have hkind := Group.ofText_eq_kind hg hargs
      rw [harg] at hkind
      cases g <;> cases hkind
  | unexpected harg hsecond =>
      have hkind := Group.ofText_eq_kind hg hargs
      rw [harg] at hkind
      cases g <;> cases hkind
      exact hsecond (hinput _ rfl)

/-- Behind some groups the next argument asks for help. -/
def AsksHelp (args : List String) : Prop :=
  ∃ gs word rest, IsCommandLine gs ∧ args = gs.flatMap Group.words ++ word :: rest ∧
    (word = "-h" ∨ word = "--help")

/-- Behind some groups the next argument neither asks for help nor starts a group that may follow
them. -/
def Breaks (args : List String) : Prop :=
  ∃ gs word rest, IsCommandLine gs ∧ args = gs.flatMap Group.words ++ word :: rest ∧
    ¬ (word = "-h" ∨ word = "--help") ∧
    ∀ g rest', word :: rest = g.words ++ rest' → ¬ IsCommandLine (gs ++ [g])

theorem scan_eq_help_iff_asksHelp {args : List String} : scan args {} = .help ↔ AsksHelp args := by
  rw [scan_eq_help_iff]
  simp only [AsksHelp, admits_iff_isCommandLine, and_left_comm]

/-- **An argument is refused if no group starts there that may follow those before it.** -/
theorem exists_scan_refused_iff {args : List String} :
    (∃ e, scan args {} = .refused e) ↔ Breaks args := by
  constructor
  · rintro ⟨e, h⟩
    obtain ⟨gs, rest, rfl, hgs, he⟩ := scan_eq_refused_iff.1 h
    have hnone : ∀ g rest', rest = g.words ++ rest' → ¬ IsCommandLine (gs ++ [g]) := by
      intro g rest' hrest hg
      exact he.not_admits hrest (admits_append.1 (admits_iff_isCommandLine.2 hg)).2
    have hscan := scan_of_stops (.refused he)
    obtain ⟨word, rest, rfl⟩ : ∃ word words, rest = word :: words := by
      cases he <;> exact ⟨_, _, rfl⟩
    refine ⟨gs, word, rest, admits_iff_isCommandLine.1 hgs, rfl, fun hword => ?_, hnone⟩
    rw [scan_of_stops (.help hword rest)] at hscan
    cases hscan
  · rintro ⟨gs, word, rest, hgs, rfl, hword, hnone⟩
    have hadmits := admits_iff_isCommandLine.2 hgs
    rw [scan_flatMap_append hadmits]
    -- the scan of the rest takes in no group, for the first would be one that may follow
    obtain ⟨hs, rest', hrest, hhs, hstops⟩ := exists_groups (word :: rest) (gs.foldl take {})
    cases hs with
    | cons g hs =>
        rw [List.flatMap_cons, List.append_assoc] at hrest
        obtain ⟨hg, hinput, -⟩ := admits_cons.1 hhs
        have hnext : ({} : Arguments).Admits (gs ++ [g]) :=
          admits_append.2 ⟨hadmits, admits_cons.2 ⟨hg, hinput, admits_nil _⟩⟩
        exact absurd (admits_iff_isCommandLine.1 hnext) (hnone g _ hrest)
    | nil =>
        obtain rfl : word :: rest = rest' := hrest
        generalize scan (word :: rest) _ = r at hstops
        cases hstops with
        | help hhelp => exact absurd hhelp hword
        | @refused _ e _ => exact ⟨e, rfl⟩

/-! ### What groups ask for -/

theorem toOption_eq_some_iff {ε α : Type} {r : Except ε α} {x : α} :
    r.toOption = some x ↔ r = .ok x := by
  cases r <;> simp [Except.toOption]

/-- What groups ask for, each option with the value of its last group. -/
structure AskedBy (gs : List Group) (a : Arguments) : Prop where
  input : ∀ path, a.input? = some path ↔ .input path ∈ gs
  output : a.output? = lastValue .output gs
  maxDepth : ∀ n, a.maxDepth? = some n ↔
    ∃ text, lastValue .maxDepth gs = some text ∧ Text.Writes text.toList n
  loops : ∀ p : LoopPolicy, a.loops? = some p ↔
    ∃ text, lastValue .cycles gs = some text ∧ p.Names text
  memoize : a.memoize = true ↔ .memoize ∈ gs
  config : a.config? = lastValue .config gs
  noConfig : a.noConfig = true ↔ .noConfig ∈ gs

theorem AskedBy.eq {gs : List Group} {a b : Arguments} (ha : AskedBy gs a) (hb : AskedBy gs b) :
    a = b := by
  have hinput : a.input? = b.input? :=
    Option.ext fun path => (ha.input path).trans (hb.input path).symm
  have houtput : a.output? = b.output? := ha.output.trans hb.output.symm
  have hmaxDepth : a.maxDepth? = b.maxDepth? :=
    Option.ext fun n => (ha.maxDepth n).trans (hb.maxDepth n).symm
  have hloops : a.loops? = b.loops? := Option.ext fun p => (ha.loops p).trans (hb.loops p).symm
  have hmemoize : a.memoize = b.memoize := Bool.eq_iff_iff.2 (ha.memoize.trans hb.memoize.symm)
  have hconfig : a.config? = b.config? := ha.config.trans hb.config.symm
  have hnoConfig : a.noConfig = b.noConfig :=
    Bool.eq_iff_iff.2 (ha.noConfig.trans hb.noConfig.symm)
  cases a
  cases b
  simp_all only

/-- The value of the last group of an option is one that the option can have. -/
theorem takes_of_lastValue {gs : List Group} (h : IsCommandLine gs) {option : ValueOption}
    {text : String} (htext : lastValue option gs = some text) : option.Takes text := by
  obtain ⟨g, hg, hvalue⟩ := List.mem_filterMap.1 (List.mem_of_getLast? htext)
  have hvalid : g.Valid := Group.valid_iff_proper.2 (h.1 g hg)
  cases g with
  | memoize | noConfig | input => cases hvalue
  | value o flag text' =>
      obtain ⟨rfl, rfl⟩ : o = option ∧ text' = text := by simpa [Group.valueOf?] using hvalue
      exact hvalid.2

theorem askedBy_ofGroups {gs : List Group} (h : IsCommandLine gs) : AskedBy gs (ofGroups gs) where
  input path := by
    rw [← Group.mem_filterMap_input?]
    match hinputs : gs.filterMap Group.input?, h.2 with
    | [], _ => simp [ofGroups, hinputs]
    | [path'], _ => simp [ofGroups, hinputs, eq_comm]
  output := rfl
  maxDepth n := by
    simp only [ofGroups, Option.bind_eq_some_iff, toOption_eq_some_iff]
    refine exists_congr fun text => and_congr_right fun htext => ?_
    rw [depthOfText_eq_ok_iff]
    refine ⟨And.left, fun hwrites => ⟨hwrites, ?_⟩⟩
    obtain ⟨d, hd⟩ : ∃ d, depthOfText text = .ok d := takes_of_lastValue h htext
    obtain ⟨hwrites', hrange⟩ := depthOfText_eq_ok_iff.1 hd
    rwa [hwrites.unique hwrites']
  loops p := by
    simp only [ofGroups, Option.bind_eq_some_iff, toOption_eq_some_iff,
      LoopPolicy.ofName_eq_ok_iff]
  memoize := decide_eq_true_iff
  config := rfl
  noConfig := decide_eq_true_iff

theorem scan_flatMap_words {gs : List Group} (h : IsCommandLine gs) :
    scan (gs.flatMap Group.words) {} = .accepted (ofGroups gs) :=
  scan_eq_accepted_iff.2 ⟨gs, rfl, admits_iff_isCommandLine.2 h,
    foldl_take fun g hg => Group.valid_iff_proper.2 (h.1 g hg)⟩

/-- **Arguments are accepted if they are groups that make up a command line.** -/
theorem scan_eq_accepted_iff_askedBy {args : List String} {a : Arguments} :
    scan args {} = .accepted a ↔
      ∃ gs, IsCommandLine gs ∧ args = gs.flatMap Group.words ∧ AskedBy gs a := by
  constructor
  · intro h
    obtain ⟨gs, rfl, hgs, -⟩ := scan_eq_accepted_iff.1 h
    have hline := admits_iff_isCommandLine.1 hgs
    rw [scan_flatMap_words hline] at h
    cases h
    exact ⟨gs, hline, rfl, askedBy_ofGroups hline⟩
  · rintro ⟨gs, hline, rfl, ha⟩
    rw [scan_flatMap_words hline, ha.eq (askedBy_ofGroups hline)]

end Arguments

/-! ### Another order -/

/-- The second list has the groups of the first, in an order that may be another but for groups of
one kind. -/
def Reorders (gs gs' : List Group) : Prop :=
  ∀ kind, gs'.filter (·.kind = kind) = gs.filter (·.kind = kind)

namespace Reorders

variable {gs gs' : List Group}

theorem perm (h : Reorders gs gs') : gs'.Perm gs := by
  refine List.perm_iff_count.2 fun g => ?_
  calc gs'.count g = (gs'.filter (·.kind = g.kind)).count g :=
        by rw [List.count_filter (by simp)]
    _ = (gs.filter (·.kind = g.kind)).count g := by rw [h]
    _ = gs.count g := by rw [List.count_filter (by simp)]

/-- What is taken from groups of one kind alone is taken in the same order. -/
theorem filterMap_eq (h : Reorders gs gs') {α : Type} {f : Group → Option α} (kind : Word)
    (hf : ∀ g, g.kind ≠ kind → f g = none) : gs'.filterMap f = gs.filterMap f := by
  have hkind : ∀ hs : List Group, (hs.filter (·.kind = kind)).filterMap f = hs.filterMap f := by
    intro hs
    rw [List.filterMap_filter]
    refine List.filterMap_congr fun g _ => ?_
    by_cases hg : g.kind = kind
    · simp [hg]
    · simp [hg, hf g hg]
  rw [← hkind gs', h kind, hkind gs]

theorem input?_eq (h : Reorders gs gs') :
    gs'.filterMap Group.input? = gs.filterMap Group.input? := by
  refine h.filterMap_eq .input fun g hg => ?_
  cases g with
  | memoize | noConfig | value => rfl
  | input path => exact absurd rfl hg

theorem lastValue_eq (h : Reorders gs gs') (option : ValueOption) :
    lastValue option gs' = lastValue option gs := by
  refine congrArg List.getLast? (h.filterMap_eq (.takes option) fun g hg => ?_)
  cases g with
  | memoize | noConfig | input => rfl
  | value o flag text => exact if_neg fun ho => hg (congrArg Word.takes ho)

theorem isCommandLine (h : Reorders gs gs') (hgs : IsCommandLine gs) : IsCommandLine gs' :=
  ⟨fun g hg => hgs.1 g (h.perm.mem_iff.1 hg), by rw [h.input?_eq]; exact hgs.2⟩

/-- **The order of groups does not matter.** -/
theorem ofGroups_eq (h : Reorders gs gs') : Arguments.ofGroups gs' = Arguments.ofGroups gs := by
  simp only [Arguments.ofGroups, h.input?_eq, h.lastValue_eq, h.perm.mem_iff]

end Reorders

namespace Arguments

/-! ### The outcome of a command line -/

/-- **The outcome of a command line, said by its groups.**

It is accepted if and only if it is made of groups that make up a command line, and then it asks for
what the groups ask for.  Otherwise the scan ends at the first argument behind such groups that asks
for help or starts no group that may follow; the run then ends there too, with the exit code 0 or
1.  A command line with its groups in another order has the same outcome. -/
theorem scan_groups (args : List String) :
    (∀ a, scan args {} = .accepted a ↔
      ∃ gs, IsCommandLine gs ∧ args = gs.flatMap Group.words ∧ AskedBy gs a) ∧
    (scan args {} = .help ↔ AsksHelp args) ∧
    ((∃ e, scan args {} = .refused e) ↔ Breaks args) ∧
    (∀ (m : Type → Type) [Monad m] [FileStore m] [Threads m] (env : Environment),
      (AsksHelp args → (env.run args : m Outcome) = pure { exitCode := 0, errors := usage }) ∧
      (Breaks args → ∃ message : String, (env.run args : m Outcome) =
        pure { exitCode := 1, errors := s!"Error: {message}\n" ++ usage })) ∧
    (∀ gs gs', IsCommandLine gs → args = gs.flatMap Group.words → Reorders gs gs' →
      scan (gs'.flatMap Group.words) {} = scan args {}) := by
  refine ⟨fun a => scan_eq_accepted_iff_askedBy, scan_eq_help_iff_asksHelp,
    exists_scan_refused_iff, fun m _ _ _ env => ⟨fun hhelp => ?_, fun hbreaks => ?_⟩, ?_⟩
  · rw [Environment.run, scan_eq_help_iff_asksHelp.2 hhelp]
  · obtain ⟨e, he⟩ := exists_scan_refused_iff.2 hbreaks
    exact ⟨e.message, by rw [Environment.run, he]⟩
  · rintro gs gs' hgs rfl horder
    rw [scan_flatMap_words hgs, scan_flatMap_words (horder.isCommandLine hgs), horder.ofGroups_eq]

/-- A value may look like an option, and then it goes with its option to another place. -/
theorem scan_groups_reordered :
    scan ["in.csv", "-o", "--help", "--max-depth", "+07", "--output", "--memoize", "--memoize"] {} =
      scan ["--memoize", "--max-depth", "+07", "-o", "--help", "in.csv", "--output", "--memoize"]
        {} := by
  let gs : List Group := [.memoize, .value .maxDepth "--max-depth" "+07",
    .value .output "-o" "--help", .input "in.csv", .value .output "--output" "--memoize"]
  let gs' : List Group := [.input "in.csv", .value .output "-o" "--help",
    .value .maxDepth "--max-depth" "+07", .value .output "--output" "--memoize", .memoize]
  have hproper : ∀ g ∈ gs, g.Proper := by
    have hdepth : Text.Writes "+07".toList 7 := Text.natural?_eq_some_iff.1 (by decide)
    have hpath : "in.csv".toList.head? ≠ some '-' := by decide
    simp only [gs, List.forall_mem_cons]
    exact ⟨trivial, ⟨rfl, 7, hdepth, by decide⟩, .inl rfl, hpath, .inr rfl, by simp⟩
  have hline : IsCommandLine gs := ⟨hproper, by decide⟩
  have horder : Reorders gs gs' := by
    intro kind
    cases kind with
    | takes option => cases option <;> rfl
    | help | memoize | noConfig | unknown | input => rfl
  exact (scan_groups _).2.2.2.2 gs gs' hline rfl horder

end Arguments

end FormulaGrid
