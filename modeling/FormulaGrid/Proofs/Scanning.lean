/-
**Arguments fall into groups.**

A group is an option with its value, an option that takes none, or the name of the input file.  The
scan takes in one group after the other, each on top of those before it, and it stops where the
arguments end, where help is asked for, or where no group starts.  So what a command line comes to
is said by its groups: accepted arguments are made of groups alone, and what an option is set to is
the value of its last group.

Main definitions:

* `Group` — what belongs together, with its words `Group.words`;
* `Arguments.take`, `Arguments.Admits` — what a group asks for, and which groups may follow;
* `Arguments.Refuses`, `Arguments.Stops` — why no group starts, and where a scan stops;
* `lastValue` — the value of the last group of an option, and `Arguments.ofGroups` what groups ask
  for.

Main results:

* `Arguments.scan_flatMap_append` — **groups are taken in one after the other**;
* `Arguments.scan_eq_iff` — **a scan takes in groups and stops where none starts**;
* `Arguments.scan_eq_accepted_iff` — **which arguments are accepted**;
* `Arguments.scan_eq_help_iff` — **when help is asked for**;
* `Arguments.scan_eq_refused_iff` — **which argument is refused, and why**;
* `Arguments.foldl_take` — **what an option is set to is the value of its last group**.
-/

import FormulaGrid.Command.Arguments
import Mathlib.Data.List.Induction

set_option relaxedAutoImplicit false
set_option autoImplicit false

namespace FormulaGrid

/-! ### Groups -/

/-- The words that stand for an option with a value. -/
def ValueOption.flags : ValueOption → List String
  | output => ["-o", "--output"]
  | maxDepth => ["--max-depth"]
  | cycles => ["--cycles"]
  | config => ["--config"]

/-- The option can have this value. -/
def ValueOption.Takes : ValueOption → String → Prop
  | output, _ | config, _ => True
  | maxDepth, value => ∃ n, Arguments.depthOfText value = .ok n
  | cycles, value => ∃ p, LoopPolicy.ofName value = .ok p

/-- Arguments that belong together. -/
inductive Group
  | memoize
  | noConfig
  /-- An option, as it is written, and its value. -/
  | value (option : ValueOption) (flag text : String)
  /-- The name of the input file. -/
  | input (path : String)
deriving DecidableEq, Repr

namespace Group

/-- The arguments that the group is made of. -/
def words : Group → List String
  | memoize => ["--memoize"]
  | noConfig => ["--no-config"]
  | value _ flag text => [flag, text]
  | input path => [path]

/-- The group is one that the scan takes in.  The name of the input file is no option and does not
look like one. -/
def Valid : Group → Prop
  | memoize | noConfig => True
  | value option flag text => flag ∈ option.flags ∧ option.Takes text
  | input path => Word.ofText path = .input

/-- The input file that the group names. -/
def input? : Group → Option String
  | input path => some path
  | _ => none

/-- The value that the group has for an option. -/
def valueOf? (option : ValueOption) : Group → Option String
  | value o _ text => if o = option then some text else none
  | _ => none

end Group

/-- The value of the last group of an option. -/
def lastValue (option : ValueOption) (gs : List Group) : Option String :=
  (gs.filterMap (Group.valueOf? option)).getLast?

/-! ### Words -/

namespace Word

theorem ofText_eq_takes_iff {arg : String} {option : ValueOption} :
    ofText arg = .takes option ↔ arg ∈ option.flags := by
  constructor
  · intro h
    unfold ofText at h
    cases option <;> grind [ValueOption.flags]
  · intro h
    cases option <;> simp only [ValueOption.flags, List.mem_cons, List.not_mem_nil, or_false] at h
    case output => rcases h with rfl | rfl <;> decide
    all_goals subst h; decide

theorem ofText_eq_help_iff {arg : String} : ofText arg = .help ↔ arg = "-h" ∨ arg = "--help" := by
  constructor
  · intro h
    unfold ofText at h
    grind
  · rintro (rfl | rfl) <;> decide

theorem eq_of_ofText_memoize {arg : String} (h : ofText arg = .memoize) : arg = "--memoize" := by
  unfold ofText at h
  grind

theorem eq_of_ofText_noConfig {arg : String} (h : ofText arg = .noConfig) :
    arg = "--no-config" := by
  unfold ofText at h
  grind

end Word

/-! ### The scan of groups -/

namespace Arguments

/-- What an option with a value sets. -/
theorem setOption_eq_ok_iff {a b : Arguments} {option : ValueOption} {value : String} :
    a.setOption option value = .ok b ↔
      match option with
      | .output => b = { a with output? := some value }
      | .config => b = { a with config? := some value }
      | .maxDepth => ∃ n, depthOfText value = .ok n ∧ b = { a with maxDepth? := some n }
      | .cycles => ∃ p, LoopPolicy.ofName value = .ok p ∧ b = { a with loops? := some p } := by
  cases option with
  | output | config => simp [setOption, eq_comm]
  | maxDepth => cases h : depthOfText value <;> simp [setOption, h, eq_comm]
  | cycles => cases h : LoopPolicy.ofName value <;> simp [setOption, h, eq_comm]

theorem takes_iff_exists_setOption {option : ValueOption} {value : String} (a : Arguments) :
    option.Takes value ↔ ∃ b, a.setOption option value = .ok b := by
  simp only [setOption_eq_ok_iff]
  cases option with
  | output | config => simp [ValueOption.Takes]
  | maxDepth | cycles =>
      constructor
      · rintro ⟨x, hx⟩
        exact ⟨_, x, hx, rfl⟩
      · rintro ⟨_, x, hx, -⟩
        exact ⟨x, hx⟩

theorem input?_setOption {a b : Arguments} {option : ValueOption} {value : String}
    (h : a.setOption option value = .ok b) : b.input? = a.input? := by
  rw [setOption_eq_ok_iff] at h
  cases option with
  | output | config => rw [h]
  | maxDepth | cycles =>
      obtain ⟨_, -, rfl⟩ := h
      rfl

/-- What the arguments ask for, one more group included. -/
def take (a : Arguments) : Group → Arguments
  | .memoize => { a with memoize := true }
  | .noConfig => { a with noConfig := true }
  | .value option _ text =>
    match a.setOption option text with
    | .ok b => b
    | .error _ => a
  | .input path => { a with input? := some path }

/-- The groups may follow: each is one that the scan takes in, and there is one input file at
most. -/
def Admits (a : Arguments) (gs : List Group) : Prop :=
  (∀ g ∈ gs, g.Valid) ∧ (a.input?.toList ++ gs.filterMap Group.input?).length ≤ 1

theorem input?_take (a : Arguments) (g : Group) : (a.take g).input? = g.input?.or a.input? := by
  cases g with
  | memoize | noConfig | input => rfl
  | value option flag text =>
      simp only [take, Group.input?, Option.none_or]
      split
      next b hb => exact input?_setOption hb
      · rfl

theorem admits_cons {a : Arguments} {g : Group} {gs : List Group} :
    a.Admits (g :: gs) ↔
      g.Valid ∧ (∀ path, g = .input path → a.input? = none) ∧ (a.take g).Admits gs := by
  unfold Admits
  rw [List.forall_mem_cons, input?_take]
  cases g with
  | memoize | noConfig | value => simp [Group.input?, List.filterMap_cons, and_assoc]
  | input path => cases h : a.input? <;> simp [Group.input?, and_assoc]

/-- **One group is taken in.** -/
theorem scan_words_append {a : Arguments} {g : Group} (hg : g.Valid)
    (hinput : ∀ path, g = .input path → a.input? = none) (rest : List String) :
    scan (g.words ++ rest) a = scan rest (a.take g) := by
  cases g with
  | memoize => rfl
  | noConfig => rfl
  | value option flag text =>
      obtain ⟨b, hb⟩ := (takes_iff_exists_setOption a).1 hg.2
      simp [Group.words, scan, take, Word.ofText_eq_takes_iff.2 hg.1, hb]
  | input path =>
      have hword : Word.ofText path = .input := hg
      simp [Group.words, scan, take, hword, hinput path rfl]

/-- **Groups are taken in one after the other.** -/
theorem scan_flatMap_append {a : Arguments} {gs : List Group} (h : a.Admits gs)
    (rest : List String) :
    scan (gs.flatMap Group.words ++ rest) a = scan rest (gs.foldl take a) := by
  induction gs generalizing a with
  | nil => rfl
  | cons g gs ih =>
      obtain ⟨hg, hinput, hgs⟩ := admits_cons.1 h
      rw [List.flatMap_cons, List.append_assoc, scan_words_append hg hinput, ih hgs,
        List.foldl_cons]

/-- The first argument starts no group that may follow. -/
inductive Refuses (a : Arguments) : List String → ArgumentError → Prop
  | noValue {option : ValueOption} {flag : String} (hflag : flag ∈ option.flags) :
      Refuses a [flag] (.noValue option)
  | badValue {option : ValueOption} {flag value : String} {e : ArgumentError}
      (hflag : flag ∈ option.flags) (he : a.setOption option value = .error e)
      (rest : List String) : Refuses a (flag :: value :: rest) e
  | unknownOption {arg : String} (harg : Word.ofText arg = .unknown) (rest : List String) :
      Refuses a (arg :: rest) (.unknownOption arg)
  /-- It would be a second input file. -/
  | unexpected {arg : String} (harg : Word.ofText arg = .input) (hinput : a.input? ≠ none)
      (rest : List String) : Refuses a (arg :: rest) (.unexpected arg)

/-- Where a scan stops that has taken in groups, and what it comes to there. -/
inductive Stops (a : Arguments) : List String → Scan → Prop
  | accepted : Stops a [] (.accepted a)
  | help {word : String} (hword : word = "-h" ∨ word = "--help") (rest : List String) :
      Stops a (word :: rest) .help
  | refused {rest : List String} {e : ArgumentError} (h : a.Refuses rest e) :
      Stops a rest (.refused e)

theorem scan_of_stops {a : Arguments} {args : List String} {r : Scan} (h : a.Stops args r) :
    scan args a = r := by
  cases h with
  | accepted => rfl
  | help hword rest => rw [scan, Word.ofText_eq_help_iff.2 hword]
  | refused he =>
      cases he with
      | noValue hflag => rw [scan, Word.ofText_eq_takes_iff.2 hflag]
      | badValue hflag he rest =>
          rw [scan, Word.ofText_eq_takes_iff.2 hflag]
          simp only [he]
      | unknownOption harg rest => rw [scan, harg]
      | unexpected harg hinput rest =>
          rw [scan, harg]
          exact if_neg fun hnone => hinput (Option.isNone_iff_eq_none.1 hnone)

theorem admits_nil (a : Arguments) : a.Admits [] := by
  cases h : a.input? <;> simp [Admits, h]

/-- All arguments before the place where the scan stops fall into groups. -/
theorem exists_groups (args : List String) (a : Arguments) :
    ∃ gs rest, args = gs.flatMap Group.words ++ rest ∧ a.Admits gs ∧
      (gs.foldl take a).Stops rest (scan args a) := by
  -- one group in front of those of the recursive call
  have hstep : ∀ {a : Arguments} {g : Group} {args : List String} {r : Scan}, g.Valid →
      (∀ path, g = .input path → a.input? = none) →
      (∃ gs rest, args = gs.flatMap Group.words ++ rest ∧ (a.take g).Admits gs ∧
        (gs.foldl take (a.take g)).Stops rest r) →
      ∃ gs rest, g.words ++ args = gs.flatMap Group.words ++ rest ∧ a.Admits gs ∧
        (gs.foldl take a).Stops rest r := by
    rintro a g args r hg hinput ⟨gs, rest, rfl, hgs, hstops⟩
    refine ⟨g :: gs, rest, ?_, admits_cons.2 ⟨hg, hinput, hgs⟩, hstops⟩
    rw [List.flatMap_cons, List.append_assoc]
  have hhere : ∀ {a : Arguments} {args : List String} {r : Scan}, a.Stops args r →
      ∃ gs rest, args = gs.flatMap Group.words ++ rest ∧ a.Admits gs ∧
        (gs.foldl take a).Stops rest r :=
    fun {a} {args} _ hstops => ⟨[], args, rfl, a.admits_nil, hstops⟩
  fun_induction scan args a with
  | case1 a => exact hhere .accepted
  | case2 arg args a hword => exact hhere (.help (Word.ofText_eq_help_iff.1 hword) args)
  | case3 arg args a hword ih =>
      obtain rfl := Word.eq_of_ofText_memoize hword
      exact hstep (g := .memoize) trivial (by simp) ih
  | case4 arg args a hword ih =>
      obtain rfl := Word.eq_of_ofText_noConfig hword
      exact hstep (g := .noConfig) trivial (by simp) ih
  | case5 arg args a hword => exact hhere (.refused (.unknownOption hword args))
  | case6 arg args a hword hnone ih =>
      exact hstep (g := .input arg) hword (fun _ _ => Option.isNone_iff_eq_none.1 hnone) ih
  | case7 arg args a hword hsome =>
      exact hhere (.refused (.unexpected hword
        (fun hnone => hsome (Option.isNone_iff_eq_none.2 hnone)) args))
  | case8 arg a option hword =>
      exact hhere (.refused (.noValue (Word.ofText_eq_takes_iff.1 hword)))
  | case9 arg a option hword value args e he =>
      exact hhere (.refused (.badValue (Word.ofText_eq_takes_iff.1 hword) he args))
  | case10 arg a option hword value args b hb ih =>
      have hvalid : (Group.value option arg value).Valid :=
        ⟨Word.ofText_eq_takes_iff.1 hword, (takes_iff_exists_setOption a).2 ⟨b, hb⟩⟩
      refine hstep hvalid (by simp) ?_
      rwa [take, hb]

/-- **A scan takes in groups and stops where none starts.** -/
theorem scan_eq_iff {args : List String} {a : Arguments} {r : Scan} :
    scan args a = r ↔
      ∃ gs rest, args = gs.flatMap Group.words ++ rest ∧ a.Admits gs ∧
        (gs.foldl take a).Stops rest r := by
  constructor
  · rintro rfl
    exact exists_groups args a
  · rintro ⟨gs, rest, rfl, hgs, hstops⟩
    rw [scan_flatMap_append hgs, scan_of_stops hstops]

/-- **Arguments are accepted if they are made of groups that may follow each other.** -/
theorem scan_eq_accepted_iff {args : List String} {a b : Arguments} :
    scan args a = .accepted b ↔
      ∃ gs, args = gs.flatMap Group.words ∧ a.Admits gs ∧ gs.foldl take a = b := by
  rw [scan_eq_iff]
  constructor
  · rintro ⟨gs, rest, rfl, hgs, hstops⟩
    cases hstops
    exact ⟨gs, List.append_nil _, hgs, rfl⟩
  · rintro ⟨gs, rfl, hgs, rfl⟩
    exact ⟨gs, [], (List.append_nil _).symm, hgs, .accepted⟩

/-- **Help is asked for if the word for it stands behind groups that may follow each other.** -/
theorem scan_eq_help_iff {args : List String} {a : Arguments} :
    scan args a = .help ↔
      ∃ gs word rest, args = gs.flatMap Group.words ++ word :: rest ∧ a.Admits gs ∧
        (word = "-h" ∨ word = "--help") := by
  rw [scan_eq_iff]
  constructor
  · rintro ⟨gs, rest, rfl, hgs, hstops⟩
    cases hstops with
    | @help word hword rest => exact ⟨gs, word, rest, rfl, hgs, hword⟩
  · rintro ⟨gs, word, rest, rfl, hgs, hword⟩
    exact ⟨gs, word :: rest, rfl, hgs, .help hword rest⟩

/-- **An argument is refused if no group starts there that may follow those before it.** -/
theorem scan_eq_refused_iff {args : List String} {a : Arguments} {e : ArgumentError} :
    scan args a = .refused e ↔
      ∃ gs rest, args = gs.flatMap Group.words ++ rest ∧ a.Admits gs ∧
        (gs.foldl take a).Refuses rest e := by
  rw [scan_eq_iff]
  constructor
  · rintro ⟨gs, rest, rfl, hgs, hstops⟩
    cases hstops with
    | refused he => exact ⟨gs, rest, rfl, hgs, he⟩
  · rintro ⟨gs, rest, rfl, hgs, he⟩
    exact ⟨gs, rest, rfl, hgs, .refused he⟩

/-! ### What groups ask for -/

/-- What groups ask for, each option set to the value of its last group. -/
def ofGroups (gs : List Group) : Arguments where
  input? := (gs.filterMap Group.input?).getLast?
  output? := lastValue .output gs
  maxDepth? := (lastValue .maxDepth gs).bind fun text => (depthOfText text).toOption
  loops? := (lastValue .cycles gs).bind fun text => (LoopPolicy.ofName text).toOption
  memoize := .memoize ∈ gs
  config? := lastValue .config gs
  noConfig := .noConfig ∈ gs

/-- One more group at the end. -/
theorem ofGroups_append {g : Group} (hg : g.Valid) (gs : List Group) :
    ofGroups (gs ++ [g]) = (ofGroups gs).take g := by
  cases g with
  | memoize | noConfig | input => simp [ofGroups, take, lastValue, Group.input?, Group.valueOf?]
  | value option flag text =>
      obtain ⟨-, htakes⟩ := hg
      cases option with
      | output | config =>
          simp [ofGroups, take, setOption, lastValue, Group.input?, Group.valueOf?]
      | maxDepth | cycles =>
          obtain ⟨x, hx⟩ := htakes
          simp [ofGroups, take, setOption, lastValue, Group.input?, Group.valueOf?, hx,
            Except.toOption]

/-- **What an option is set to is the value of its last group.** -/
theorem foldl_take {gs : List Group} (hgs : ∀ g ∈ gs, g.Valid) :
    gs.foldl take {} = ofGroups gs := by
  induction gs using List.reverseRecOn with
  | nil => rfl
  | append_singleton gs g ih =>
      obtain ⟨hgs, hg⟩ := List.forall_mem_append.1 hgs
      rw [List.foldl_append, ih hgs, ofGroups_append (hg g (List.mem_singleton_self g))]
      rfl

end Arguments

end FormulaGrid
