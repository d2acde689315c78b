/-
**The settings of a run, and where they come from.**

Each setting of a run has the value that the arguments give it last; else the value in the settings
file of the run, if there is one that sets it; else its default.  The file is none if the run is
told to read none; else it is the one that the arguments name, and else the user's own.  A file
counts as a whole or not at all: if the one that the arguments name is not read or not applied, the
run fails before it touches any other file, and if it is the user's own, the run goes on as if it
had been told to read none.

Main definitions:

* `SettingsFile.Admissible` — a file whose settings are all accepted;
* `FileTree.settingsFile?` — what a settings file sets, if it is read and applied;
* `selectedFile?`, `usedFile` — the settings file of a run, and what it sets;
* `Settings.effective` — the settings of a run, setting by setting;
* `FileAccess` — an access to a file, as it is written down in a log.

Main results:

* `SettingsFile.overlay_eq_ok_iff` — a file is applied exactly if it is admissible;
* `Settings.depth_of_effective` — the bound of a run is one that a run accepts;
* `Environment.run_of_namedFile` — a run reads the settings file that its arguments name before any
  other file;
* `Environment.run_noConfig` — a run that passes over the user's own file is as if it had none to
  read;
* `Environment.run_effective` — **the settings of a run**, under which it evaluates its lines.
-/

import FormulaGrid.Proofs.LoopPolicy
import FormulaGrid.Proofs.Runs

set_option relaxedAutoImplicit false
set_option autoImplicit false

namespace FormulaGrid

/-! ### Settings files -/

namespace SettingsFile

/-- The loop policy that the file names. -/
def loops? (file : SettingsFile) : Option LoopPolicy :=
  file.cycles?.bind fun name => (LoopPolicy.ofName name).toOption

/-- All settings of the file are accepted. -/
def Admissible (file : SettingsFile) : Prop :=
  (∀ depth ∈ file.maxDepth?, 1 ≤ depth ∧ depth ≤ Settings.greatestDepth) ∧
    (file.cycles?.isSome = true → file.loops?.isSome = true)

instance (file : SettingsFile) : Decidable file.Admissible := inferInstanceAs (Decidable (_ ∧ _))

/-- The default settings with those of the file in their place. -/
def settings (file : SettingsFile) : Settings where
  maxDepth := file.maxDepth?.getD 512
  loops := file.loops?.getD .selfOnly
  memoize := file.memoize?.getD false

theorem getD_checkDepth_eq_ok_iff {depth? : Option Nat} {d depth : Nat} :
    (depth?.map Settings.checkDepth).getD (.ok d) = .ok depth ↔
      (∀ n ∈ depth?, 1 ≤ n ∧ n ≤ Settings.greatestDepth) ∧ depth = depth?.getD d := by
  cases depth? with
  | none => simp [eq_comm]
  | some n => simp [Settings.checkDepth_eq_ok_iff, and_comm]

theorem getD_ofName_eq_ok_iff {name? : Option String} {p policy : LoopPolicy} :
    (name?.map LoopPolicy.ofName).getD (.ok p) = .ok policy ↔
      (name?.isSome = true →
        (name?.bind fun name => (LoopPolicy.ofName name).toOption).isSome = true) ∧
      policy = (name?.bind fun name => (LoopPolicy.ofName name).toOption).getD p := by
  cases name? with
  | none => simp [eq_comm]
  | some name => cases h : LoopPolicy.ofName name <;> simp [h, Except.toOption, eq_comm]

/-- **A file is applied exactly if it is admissible.** -/
theorem overlay_eq_ok_iff {file : SettingsFile} {s : Settings} :
    file.overlay {} = (.ok (), s) ↔ file.Admissible ∧ s = file.settings := by
  unfold overlay Admissible loops?
  split
  next e hdepth =>
    simp only [Prod.mk.injEq, reduceCtorEq, false_and, false_iff]
    rintro ⟨⟨hbounds, -⟩, -⟩
    rw [getD_checkDepth_eq_ok_iff.2 ⟨hbounds, rfl⟩] at hdepth
    cases hdepth
  next depth hdepth =>
    obtain ⟨hbounds, rfl⟩ := getD_checkDepth_eq_ok_iff.1 hdepth
    dsimp only
    split
    next e hloops =>
      simp only [Prod.mk.injEq, reduceCtorEq, false_and, false_iff]
      rintro ⟨⟨-, hname⟩, -⟩
      rw [getD_ofName_eq_ok_iff.2 ⟨hname, rfl⟩] at hloops
      cases hloops
    next loops hloops =>
      obtain ⟨hname, rfl⟩ := getD_ofName_eq_ok_iff.1 hloops
      rw [Prod.mk.injEq, eq_self_iff_true, true_and]
      exact ⟨fun hs => ⟨⟨hbounds, hname⟩, hs.symm⟩, fun hs => hs.2.symm⟩

end SettingsFile

/-- What a settings file sets, if it is read and all of it is accepted. -/
def FileTree.settingsFile? (t : FileTree) (read? : String → Option SettingsFile) (path : String) :
    Option SettingsFile :=
  ((t.text? path greatestSettingsFile).bind read?).filter fun file => file.Admissible

theorem FileTree.settings?_eq_map (t : FileTree) (read? : String → Option SettingsFile)
    (path : String) :
    t.settings? read? path = (t.settingsFile? read? path).map SettingsFile.settings := by
  unfold settings? settingsFile?
  cases t.text? path greatestSettingsFile with
  | none => rfl
  | some text =>
      dsimp only [Option.bind_some]
      cases read? text with
      | none => rfl
      | some file =>
          rw [Option.bind_some, Option.filter_some]
          rcases hover : file.overlay {} with ⟨e | ⟨⟩, s⟩
          · have hfile : ¬ file.Admissible := fun hfile => by
              rw [SettingsFile.overlay_eq_ok_iff.2 ⟨hfile, rfl⟩] at hover
              cases hover
            simp [hfile]
          · obtain ⟨hfile, rfl⟩ := SettingsFile.overlay_eq_ok_iff.1 hover
            simp [hfile]

/-! ### The file of a run -/

/-- The settings file that the arguments name, unless they say that none is to be read. -/
def namedFile? (gs : List Group) : Option String :=
  if .noConfig ∈ gs then none else lastValue .config gs

/-- The settings file of a run: none if the arguments say so, else the one that they name, else the
user's own, if there is such a file. -/
def selectedFile? (gs : List Group) (env : Environment) (t : FileTree) : Option String :=
  if .noConfig ∈ gs then none
  else (lastValue .config gs).or (env.own?.filter fun path => t.isFile path)

/-- What the settings file of a run sets; nothing if there is none or if it does not count. -/
def usedFile (gs : List Group) (env : Environment) (t : FileTree) : SettingsFile :=
  ((selectedFile? gs env t).bind (t.settingsFile? env.read?)).getD {}

/-- The settings of a run: each has the value that the arguments give it last, else the one in the
settings file, else its default. -/
def Settings.effective (gs : List Group) (file : SettingsFile) : Settings where
  maxDepth := (((lastValue .maxDepth gs).bind fun text =>
    (Arguments.depthOfText text).toOption).or file.maxDepth?).getD 512
  loops := (((lastValue .cycles gs).bind fun text =>
    (LoopPolicy.ofName text).toOption).or file.loops?).getD .selfOnly
  memoize := .memoize ∈ gs ∨ file.memoize? = some true

theorem Settings.overlay_ofGroups (gs : List Group) (file : SettingsFile) :
    (Arguments.ofGroups gs).overlay file.settings = effective gs file := by
  simp only [Arguments.overlay, Arguments.ofGroups, SettingsFile.settings, effective,
    Option.getD_or]
  cases file.memoize? with
  | none => simp
  | some b => simp

theorem Arguments.bounds_of_depthOfText {text : String} {depth : Nat}
    (h : (depthOfText text).toOption = some depth) :
    1 ≤ depth ∧ depth ≤ Settings.greatestDepth := by
  unfold depthOfText at h
  split at h
  · cases h
  next n _ =>
  split at h
  · cases h
  next depth' hcheck =>
  obtain rfl := Option.some.inj h
  obtain ⟨rfl, hbounds⟩ := Settings.checkDepth_eq_ok_iff.1 hcheck
  exact hbounds

/-- **The bound of a run is one that a run accepts**, wherever it comes from. -/
theorem Settings.depth_of_effective (gs : List Group) {file : SettingsFile}
    (hfile : file.Admissible) :
    1 ≤ (effective gs file).maxDepth ∧ (effective gs file).maxDepth ≤ greatestDepth := by
  unfold effective
  dsimp only
  cases hflag : (lastValue .maxDepth gs).bind fun text =>
    (Arguments.depthOfText text).toOption with
  | some depth =>
      obtain ⟨text, -, hdepth⟩ := Option.bind_eq_some_iff.1 hflag
      exact Arguments.bounds_of_depthOfText hdepth
  | none =>
      cases hset : file.maxDepth? with
      | some depth => exact hfile.1 depth hset
      | none => decide

theorem FileTree.admissible_of_settingsFile? {t : FileTree} {read? : String → Option SettingsFile}
    {path : String} {file : SettingsFile} (h : t.settingsFile? read? path = some file) :
    file.Admissible :=
  of_decide_eq_true (Option.filter_eq_some_iff.1 h).2

theorem admissible_usedFile (gs : List Group) (env : Environment) (t : FileTree) :
    (usedFile gs env t).Admissible := by
  unfold usedFile
  cases hfile : (selectedFile? gs env t).bind (t.settingsFile? env.read?) with
  | none => exact ⟨nofun, nofun⟩
  | some file =>
      obtain ⟨path, -, hpath⟩ := Option.bind_eq_some_iff.1 hfile
      exact FileTree.admissible_of_settingsFile? hpath

/-- The settings that files give to a run are those of its settings file, unless the arguments name
one that fails. -/
theorem fileSettings?_ofGroups {gs : List Group} {env : Environment} {t : FileTree}
    (h : ∀ path, namedFile? gs = some path → t.settingsFile? env.read? path ≠ none) :
    (Arguments.ofGroups gs).fileSettings? env t = some (usedFile gs env t).settings := by
  unfold Arguments.fileSettings? usedFile selectedFile?
  unfold namedFile? at h
  by_cases hno : .noConfig ∈ gs
  · simp only [Arguments.ofGroups, hno, decide_true, if_true]
    rfl
  · simp only [if_neg hno] at h ⊢
    simp only [Arguments.ofGroups, hno, decide_false, Bool.false_eq_true, if_false]
    cases hconfig : lastValue .config gs with
    | some path =>
        obtain ⟨file, hfile⟩ := Option.ne_none_iff_exists'.1 (h path hconfig)
        simp only [Option.some_or, Option.bind_some, t.settings?_eq_map, hfile, Option.map_some,
          Option.getD_some]
    | none =>
        dsimp only
        rw [Option.none_or]
        cases env.own?.filter fun path => t.isFile path with
        | none => rfl
        | some path =>
            rw [Option.bind_some, Option.bind_some, t.settings?_eq_map]
            cases t.settingsFile? env.read? path <;> rfl

/-! ### Runs in a store that keeps a log -/

/-- An access to a file. -/
inductive FileAccess
  | size (path : String)
  | isFile (path : String)
  | readText (path : String)
  | create (path : String)
  | append (place : List String)
deriving DecidableEq, Repr

/-- Files, with the accesses to them in the order in which they come. -/
abbrev Logged := StateM (FileTree × List FileAccess)

instance : FileStore Logged where
  Handle := List String
  size path := fun (t, log) => (t.size path, t, log ++ [.size path])
  isFile path := fun (t, log) => (t.isFile path, t, log ++ [.isFile path])
  readText path := fun (t, log) => (t.readText path, t, log ++ [.readText path])
  create path := fun (t, log) =>
    match t.create path with
    | .ok (place, t') => (.ok place, t', log ++ [.create path])
    | .error e => (.error e, t, log ++ [.create path])
  append place text := fun (t, log) =>
    let (r, t') := t.append place text
    (r, t', log ++ [.append place])

section Logged

variable (read? : String → Option SettingsFile) (path : String) (t : FileTree)
  (log : List FileAccess)

theorem Logged.bind_apply {α β : Type} (x : Logged α) (f : α → Logged β) :
    (x >>= f) (t, log) = f (x (t, log)).1 (x (t, log)).2 := rfl

theorem Logged.size_apply :
    (FileStore.size path : Logged (Except FileError Nat)) (t, log) =
      (t.size path, t, log ++ [.size path]) := rfl

theorem Logged.readText_apply :
    (FileStore.readText path : Logged (Except FileError String)) (t, log) =
      (t.readText path, t, log ++ [.readText path]) := rfl

theorem SettingsFile.ofFile_logged :
    ∃ more, more <+: [FileAccess.size path, .readText path] ∧
      SettingsFile.ofFile (m := Logged) read? path (t, log) =
        ((SettingsFile.ofFile (m := StateM FileTree) read? path t).1, t, log ++ more) := by
  have hsize : [FileAccess.size path] <+: [.size path, .readText path] := ⟨[.readText path], rfl⟩
  unfold SettingsFile.ofFile
  rw [Logged.bind_apply, Logged.size_apply, FileTree.bind_apply, FileTree.size_apply]
  cases t.size path with
  | error e => exact ⟨_, hsize, rfl⟩
  | ok size =>
      dsimp only
      by_cases hlimit : greatestSettingsFile < size
      · rw [if_pos hlimit, if_pos hlimit]
        exact ⟨_, hsize, rfl⟩
      · rw [if_neg hlimit, if_neg hlimit, Logged.bind_apply, Logged.readText_apply,
          FileTree.bind_apply, FileTree.readText_apply, List.append_assoc]
        refine ⟨_, List.prefix_rfl, ?_⟩
        cases t.readText path with
        | error e => rfl
        | ok text =>
            dsimp only
            cases read? text <;> rfl

/-- The settings of a file are settled by that file alone. -/
theorem settingsOfFile_logged :
    ∃ more, more <+: [FileAccess.size path, .readText path] ∧
      settingsOfFile (m := Logged) read? path (t, log) =
        ((settingsOfFile (m := StateM FileTree) read? path t).1, t, log ++ more) := by
  obtain ⟨more, hmore, hlogged⟩ := SettingsFile.ofFile_logged read? path t log
  refine ⟨more, hmore, ?_⟩
  unfold settingsOfFile
  rw [Logged.bind_apply, hlogged, FileTree.bind_apply]
  rcases (SettingsFile.ofFile (m := StateM FileTree) read? path t).1 with e | file
  · rfl
  · dsimp only
    rcases file.overlay {} with ⟨e | ⟨⟩, s⟩ <;> rfl

end Logged

namespace Environment

section Accepted

variable {gs : List Group} (hgs : Arguments.Admits {} gs) (env : Environment)

include hgs

theorem run_eq_runAccepted {m : Type → Type} [Monad m] [FileStore m] [Threads m] :
    env.run (m := m) (gs.flatMap Group.words) = env.runAccepted (.ofGroups gs) := by
  rw [run, Arguments.scan_eq_accepted_iff.2 ⟨gs, rfl, hgs, Arguments.foldl_take hgs.1⟩]

/-- A run with a settings file that its arguments name reads that file first. -/
theorem run_of_namedFile {m : Type → Type} [Monad m] [LawfulMonad m] [FileStore m] [Threads m]
    {path input : String} (hpath : namedFile? gs = some path)
    (hinput : (Arguments.ofGroups gs).input? = some input) :
    env.run (m := m) (gs.flatMap Group.words) = do
      match ← settingsOfFile env.read? path with
      | .error e => return .ofResult (.error (.settings e)) none
      | .ok s =>
        let result ← evaluateFile input (lastValue .output gs) ((Arguments.ofGroups gs).overlay s)
        return .ofResult result none := by
  obtain ⟨hno, hconfig⟩ : .noConfig ∉ gs ∧ lastValue .config gs = some path := by
    unfold namedFile? at hpath
    split at hpath
    · cases hpath
    · exact ⟨‹_›, hpath⟩
  have hsettings : fileSettings (m := m) (.ofGroups gs) env = do
      match ← settingsOfFile env.read? path with
      | .error e => return .error e
      | .ok s => return .ok (s, none) := by
    unfold fileSettings
    rw [if_neg (by simpa [Arguments.ofGroups] using hno)]
    split
    next path' hpath' =>
      obtain rfl := Option.some.inj (hconfig.symm.trans hpath')
      exact bind_congr fun r => by cases r <;> rfl
    next hnone => cases hconfig.symm.trans hnone
  rw [run_eq_runAccepted hgs, runAccepted, hinput]
  dsimp only
  rw [hsettings, bind_assoc]
  refine bind_congr fun r => ?_
  cases r with
  | error e => simp
  | ok s => simp [Arguments.ofGroups]

omit env in
/-- The input file of a run is the one that its arguments name. -/
theorem input?_ofGroups {input : String} (h : .input input ∈ gs) :
    (Arguments.ofGroups gs).input? = some input := by
  have hmem : input ∈ gs.filterMap Group.input? := List.mem_filterMap.2 ⟨_, h, rfl⟩
  have hone : (gs.filterMap Group.input?).length ≤ 1 := hgs.2
  unfold Arguments.ofGroups
  cases hinputs : gs.filterMap Group.input? with
  | nil =>
      rw [hinputs] at hmem
      cases hmem
  | cons first rest =>
      rw [hinputs] at hmem hone
      obtain rfl : rest = [] := List.eq_nil_of_length_eq_zero (by simpa using hone)
      simpa [eq_comm] using hmem

/-- A run whose settings file fails, which its arguments name, ends before it looks at any other
file. -/
theorem run_of_settingsFile?_eq_none {t : FileTree} {path : String}
    (hpath : namedFile? gs = some path) (hfile : t.settingsFile? env.read? path = none) :
    ∃ e log, log <+: [FileAccess.size path, .readText path] ∧
      env.run (m := StateM FileTree) (gs.flatMap Group.words) t =
        (.ofResult (.error e) none, t) ∧
      env.run (m := Logged) (gs.flatMap Group.words) (t, []) =
        (.ofResult (.error e) none, t, log) := by
  cases hinput : (Arguments.ofGroups gs).input? with
  | none =>
      refine ⟨.noInput, [], List.nil_prefix, ?_, ?_⟩
      all_goals
        rw [run_eq_runAccepted hgs, runAccepted, hinput]
        rfl
  | some input =>
      obtain ⟨more, hmore, hlogged⟩ := settingsOfFile_logged env.read? path t []
      obtain ⟨r, hr, hs⟩ := settingsOfFile_apply env.read? path t
      rw [t.settings?_eq_map, hfile, Option.map_none] at hs
      rw [hr] at hlogged
      cases r with
      | ok s => cases hs
      | error e =>
          refine ⟨.settings e, more, hmore, ?_, ?_⟩
          · rw [run_of_namedFile hgs env hpath hinput, FileTree.bind_apply, hr]
            rfl
          · rw [run_of_namedFile hgs env hpath hinput, Logged.bind_apply, hlogged]
            rfl

end Accepted

theorem runAccepted_apply {a : Arguments} {env : Environment} {t : FileTree} {input : String}
    {s : Settings} {ignored? : Option SettingsFileError} (hinput : a.input? = some input)
    (hfile : fileSettings (m := StateM FileTree) a env t = (.ok (s, ignored?), t)) :
    ∃ warning?, (ignored? = none → warning? = none) ∧
      env.runAccepted (m := StateM FileTree) a t =
        (.ofResult (evaluateFile (m := StateM FileTree) input a.output? (a.overlay s) t).1 warning?,
          (evaluateFile (m := StateM FileTree) input a.output? (a.overlay s) t).2) := by
  rw [runAccepted, hinput]
  dsimp only
  rw [FileTree.bind_apply, hfile]
  refine ⟨_, ?_, rfl⟩
  rintro rfl
  rfl

theorem exists_fileSettings {a : Arguments} {env : Environment} {t : FileTree} {s : Settings}
    (hs : a.fileSettings? env t = some s) :
    ∃ ignored?, fileSettings (m := StateM FileTree) a env t = (.ok (s, ignored?), t) := by
  obtain ⟨r, hr, hsame⟩ := fileSettings_apply a env t
  rw [hs] at hsame
  rcases r with e | ⟨s', ignored?⟩
  · cases hsame
  · obtain rfl := Option.some.inj hsame
    exact ⟨ignored?, hr⟩

theorem ofResult_without_warning (r : Except RunError String) (warning? : Option String) :
    { Outcome.ofResult r warning? with warning? := none } = .ofResult r none := by
  cases r <;> rfl

/-- A run that passes over the user's own file goes on as if it had been told to read none. -/
theorem run_noConfig {gs₁ gs₂ : List Group} (hgs : Arguments.Admits {} (gs₁ ++ gs₂))
    {env : Environment} {t : FileTree} {path : String}
    (hconfig : lastValue .config (gs₁ ++ gs₂) = none) (hown : env.own? = some path)
    (hfile : t.settingsFile? env.read? path = none) :
    let result := env.run (m := StateM FileTree) ((gs₁ ++ gs₂).flatMap Group.words) t
    env.run (m := StateM FileTree) ((gs₁ ++ .noConfig :: gs₂).flatMap Group.words) t =
      ({ result.1 with warning? := none }, result.2) := by
  have hgs' : Arguments.Admits {} (gs₁ ++ .noConfig :: gs₂) := by
    simpa [Arguments.Admits, Group.Valid, Group.input?, List.filterMap_cons, or_imp,
      forall_and] using hgs
  have ha : Arguments.ofGroups (gs₁ ++ .noConfig :: gs₂) =
      { Arguments.ofGroups (gs₁ ++ gs₂) with noConfig := true } := by
    simp [Arguments.ofGroups, lastValue, Group.input?, Group.valueOf?]
  -- neither of the two runs has settings from a file
  have hs : (Arguments.ofGroups (gs₁ ++ gs₂)).fileSettings? env t = some {} := by
    have hnamed : namedFile? (gs₁ ++ gs₂) = none := by
      rw [namedFile?, hconfig, ite_self]
    have hused : usedFile (gs₁ ++ gs₂) env t = {} := by
      rw [usedFile, selectedFile?, hconfig, hown, Option.filter_some]
      split
      · rfl
      · split
        · rw [Option.none_or, Option.bind_some, hfile, Option.getD_none]
        · rfl
    rw [fileSettings?_ofGroups (by simp [hnamed]), hused]
    rfl
  obtain ⟨ignored?, hignored⟩ := exists_fileSettings hs
  have hnone : fileSettings (m := StateM FileTree)
      (Arguments.ofGroups (gs₁ ++ .noConfig :: gs₂)) env t = (.ok ({}, none), t) := by
    rw [ha]
    rfl
  rw [run_eq_runAccepted hgs, run_eq_runAccepted hgs']
  cases hinput : (Arguments.ofGroups (gs₁ ++ gs₂)).input? with
  | none =>
      rw [ha, runAccepted, runAccepted, hinput]
      rfl
  | some input =>
      have hinput' : (Arguments.ofGroups (gs₁ ++ .noConfig :: gs₂)).input? = some input := by
        rw [ha]
        exact hinput
      obtain ⟨warning?, -, hrun⟩ := runAccepted_apply hinput hignored
      obtain ⟨_, hwarning, hrun'⟩ := runAccepted_apply hinput' hnone
      rw [hrun, hrun', hwarning rfl, ha]
      exact Prod.ext (ofResult_without_warning _ warning?).symm rfl

/-- **The settings of a run.**  They are within the bounds.  A run evaluates the lines of its input
file under them, unless its arguments name a settings file that fails: then the run fails before it
looks at any other file, and changes none.  If it is the user's own file that fails, the run goes on
as if it had been told to read none, and differs from that run in its warning alone. -/
theorem run_effective {gs : List Group} (hgs : Arguments.Admits {} gs) (env : Environment)
    (t : FileTree) :
    let result := env.run (m := StateM FileTree) (gs.flatMap Group.words) t
    let s := Settings.effective gs (usedFile gs env t)
    (1 ≤ s.maxDepth ∧ s.maxDepth ≤ 4096) ∧
    (∀ input, .input input ∈ gs →
      (∀ path, namedFile? gs = some path → t.settingsFile? env.read? path ≠ none) →
      ∃ r t' warning?, Evaluates input (lastValue .output gs) s t (r, t') ∧
        result = (.ofResult r warning?, t')) ∧
    (∀ path, namedFile? gs = some path → t.settingsFile? env.read? path = none →
      result.1.exitCode = 1 ∧ result.2 = t ∧
        ∃ log, log <+: [FileAccess.size path, .readText path] ∧
          env.run (m := Logged) (gs.flatMap Group.words) (t, []) = (result.1, t, log)) ∧
    ∀ path gs₁ gs₂, env.own? = some path → t.settingsFile? env.read? path = none →
      lastValue .config gs = none → gs = gs₁ ++ gs₂ →
      env.run (m := StateM FileTree) ((gs₁ ++ .noConfig :: gs₂).flatMap Group.words) t =
        ({ result.1 with warning? := none }, result.2) := by
  refine ⟨Settings.depth_of_effective gs (admissible_usedFile gs env t), fun input hinput h => ?_,
    fun path hpath hfile => ?_, ?_⟩
  · have hs := fileSettings?_ofGroups h
    obtain ⟨ignored?, hignored⟩ := exists_fileSettings hs
    obtain ⟨warning?, -, hrun⟩ := runAccepted_apply (input?_ofGroups hgs hinput) hignored
    rw [Settings.overlay_ofGroups] at hrun
    refine ⟨_, _, warning?, evaluateFile_evaluates .., ?_⟩
    exact (congrFun (run_eq_runAccepted hgs env) t).trans hrun
  · obtain ⟨e, log, hlog, hrun, hlogged⟩ := run_of_settingsFile?_eq_none hgs env hpath hfile
    rw [hrun]
    exact ⟨rfl, rfl, log, hlog, hlogged⟩
  · rintro path gs₁ gs₂ hown hfile hconfig rfl
    exact run_noConfig hgs hconfig hown hfile

/-- The bound from the arguments counts and not the one from the user's own file, whose loop policy
counts.  Under the default settings, or with one of the three settings taken from elsewhere, the
lines would fail otherwise. -/
theorem run_effective_of_own_file :
    let file := "[eval]\nmax_depth = 1\ncycles = \"full\"\n"
    let text := ",A,B,C\n1,=B1+C1,=1+2,=B1+A1\n"
    let env : Environment :=
      { own? := some "own.toml"
        read? := fun s =>
          if s = file then some { maxDepth? := some 1, cycles? := some "full" } else none }
    let t := ((FileTree.empty []).add "own.toml" (.file (.text file))).add "in.csv"
      (.file (.text text))
    let loop : Failure := .pass (.inCell "A1" (.loop ["A1", "C1", "A1"]))
    (∃ warning?, env.run (m := StateM FileTree) ["--max-depth", "2", "in.csv", "--memoize"] t =
      (.ofResult (.error (.evaluate loop)) warning?, t)) ∧
    ∀ s ∈ [{}, { maxDepth := 1, loops := .full, memoize := true },
        { maxDepth := 2, loops := .selfOnly, memoize := true },
        { maxDepth := 2, loops := .full, memoize := false }],
      evaluateLines (Text.lines text) s ≠ .error loop := by
  intro file text env t loop
  let gs : List Group := [.value .maxDepth "--max-depth" "2", .input "in.csv", .memoize]
  let s : Settings := { maxDepth := 2, loops := .full, memoize := true }
  have hgs : Arguments.Admits {} gs := by
    refine ⟨?_, by decide⟩
    simp only [gs, List.forall_mem_cons]
    exact ⟨⟨by decide, 2, by decide +kernel⟩, (by decide : Word.ofText "in.csv" = .input),
      trivial, nofun⟩
  have hs : Settings.effective gs (usedFile gs env t) = s := by decide +kernel
  have hread : t.text? "in.csv" greatestInput = some text := by decide +kernel
  -- grids are not compared, but their texts are
  have herror : ∀ {s : Settings} {f : Failure},
      evaluateLines (Text.lines text) s = .error f ↔
        (evaluateLines (Text.lines text) s).map Grid.text = .error f := fun {s f} => by
    cases evaluateLines (Text.lines text) s <;> simp [Except.map]
  have hloop : evaluateLines (Text.lines text) s = .error loop := by
    rw [herror]
    decide +kernel
  have hself : ∀ {s : Settings}, s.loops = .selfOnly →
      evaluateLines (Text.lines text) s ≠ .error loop := fun {s} hs hrun => by
    obtain ⟨g, w, -, hpass⟩ := evaluateLines_eq_pass_iff.1 hrun
    exact Worksheet.evaluateAll_ne_loop g hs _ _ (congrArg Prod.fst hpass)
  refine ⟨?_, ?_⟩
  · obtain ⟨-, hpass, -⟩ := run_effective hgs env t
    obtain ⟨r, t', warning?, hends, hrun⟩ := hpass "in.csv" (by decide) (by rintro path ⟨⟩)
    rw [hs] at hends
    obtain ⟨rfl, rfl⟩ := Prod.mk.inj (hends.eq_error hread hloop)
    exact ⟨warning?, hrun⟩
  · simp only [List.forall_mem_cons]
    refine ⟨hself rfl, ?_, hself rfl, ?_, nofun⟩
    all_goals
      rw [Ne, herror]
      decide +kernel

end Environment

end FormulaGrid
