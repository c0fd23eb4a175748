import IncludeAtlas.Command.Run
import IncludeAtlas.Proofs.FileTree.Passage
import IncludeAtlas.Proofs.FileTree.Tour
import IncludeAtlas.Proofs.Scan.DefaultPatterns

/-!
# What a check foretells

Settings are checked before a run, and the run then does the same things again in its own way:
it makes its roots canonical where the check only looks at them, and it reads patterns and
colors in another order.  This module says how far the check knows what the run will do.

## Main Definitions

* `Workspace.Runs`: every step of a run with some settings succeeds
* `Settings.RootsShort`: the roots can be looked at under the spellings they have
* `Settings.RootsWithin`: nothing that the roots come by is further down than some bound
* `Workspace.Foretells`: what the check of some settings says of a run with them

## Main Results

* `Workspace.checkRoots_eq`: short roots that lead over short paths fail the check as they fail a
  walk
* `Workspace.check_eq_ok_iff`: when the check passes, by the steps of a run and two bounds
* `Workspace.foretells`: the check foretells the run
* `Sample.runs_and_check_eq_error`: settings that are refused and would run
* `Sample.check_eq_ok_and_not_runs`: settings that pass and do not run

## What is load-bearing

A root is looked at as it is spelled, and made canonical name by name.  Both ways lead to the same
place (`FileTree.resolve_of_canonical`), but each has a bound of its own on the length of a path.
The look bounds the spelling, and the other way the path from the root of every entry that the
spelling comes by.  A spelling may be long by slashes and dots alone, and through links a short one
may lead far down; so neither bound follows from the other, and either can make the check wrong.

## Design notes

Where the spelling goes on with a slash, a directory may be looked up with a slash after its path,
which `FileTree.canonical` does not count.  So what `Workspace.Foretells` promises of a run leaves a
byte for the slash, and what it concludes from a run does not.
-/

namespace IncludeAtlas

/-- The roots are short enough to be looked at under the spellings they have. -/
def Settings.RootsShort (s : Settings) : Prop :=
  ∀ p ∈ s.scan.roots, p.bytes.length < pathBound

/-- The roots and all that they come by have paths of fewer bytes than some bound. -/
def Settings.RootsWithin (s : Settings) (w : Workspace) (bound : Nat) : Prop :=
  ∀ p ∈ s.scan.roots, w.StaysWithin bound p

theorem Settings.RootsWithin.mono {s : Settings} {w : Workspace} {bound bound' : Nat}
    (h : s.RootsWithin w bound) (le : bound ≤ bound') : s.RootsWithin w bound' :=
  fun p hp => (h p hp).mono le

namespace Workspace

/-- Every step of a run with some settings succeeds: their colors and their patterns can be
used, and a walk succeeds in whatever graph it enters its files. -/
structure Runs (w : Workspace) (s : Settings) : Prop where
  colors : ∃ options, s.graphOptions = .ok options
  walks : ∃ scanner, Scanner.make (s.scanOptions w.directory.toPath) = .ok scanner ∧
    ∀ g, ∃ summary, (scanner.walk w g).2 = .ok summary

variable {w : Workspace} {s : Settings} {p : Path} {ps : List Path} {e : ScanError}
  {scanner : Scanner}

/-! ## Roots -/

/-- **What is looked at and what is a root** are the same paths, but for the two bounds. -/
theorem isDirectory_and_staysWithin_iff :
    w.isDirectory p = true ∧ w.StaysWithin pathBound p ↔
      (∃ l, w.IsRoot p l) ∧ p.bytes.length < pathBound := by
  rw [isDirectory_eq_true_iff]
  constructor
  · rintro ⟨⟨l, led, directory⟩, within⟩
    obtain ⟨spelled, n, -, leads⟩ := locate_eq_ok_iff_leads.1 led
    have short := (within n l leads).1
    exact ⟨⟨l, canonicalize_of_locate led within,
      FileTree.lookup?_shallow_eq_some_iff.2 ⟨directory, short⟩⟩,
      (spellingFault?_eq_none_iff.1 spelled).2.2⟩
  · rintro ⟨⟨l, led, directory⟩, spelled⟩
    obtain ⟨there, short⟩ := FileTree.lookup?_shallow_eq_some_iff.1 directory
    exact ⟨⟨l, locate_of_canonicalize led spelled, there⟩, staysWithin_of_canonicalize led short⟩

/-- Only what is spelled shortly enough is a directory to the check. -/
theorem short_of_isDirectory (h : w.isDirectory p = true) : p.bytes.length < pathBound := by
  obtain ⟨l, led, -⟩ := isDirectory_eq_true_iff.1 h
  exact (spellingFault?_eq_none_iff.1 (locate_eq_ok_iff_leads.1 led).1).2.2

/-- Directories that are short and lead over short paths fail the check as they fail a walk. -/
theorem checkDirectories_eq (short : ∀ p ∈ ps, p.bytes.length < pathBound)
    (within : ∀ p ∈ ps, w.StaysWithin pathBound p) :
    w.checkDirectories ps = (ps.mapM (Scanner.rootOf w)).map fun _ => () := by
  induction ps with
  | nil => rfl
  | cons p ps ih =>
      obtain ⟨shortHere, short⟩ := List.forall_mem_cons.1 short
      obtain ⟨withinHere, within⟩ := List.forall_mem_cons.1 within
      have rest := ih short within
      rw [checkDirectories] at rest
      rw [List.mapM_cons, checkDirectories, List.find?_cons]
      cases led : Scanner.rootOf w p with
      | ok l =>
          have directory : w.isDirectory p = true := (isDirectory_and_staysWithin_iff.2
            ⟨⟨l, Scanner.rootOf_eq_ok_iff.1 led⟩, shortHere⟩).1
          simp only [directory, not_true_eq_false, decide_false, rest]
          cases ps.mapM (Scanner.rootOf w) <;> rfl
      | error e =>
          have other : w.isDirectory p = false := by
            rw [← Bool.not_eq_true]
            intro directory
            obtain ⟨⟨l, root⟩, -⟩ :=
              isDirectory_and_staysWithin_iff.1 ⟨directory, withinHere⟩
            rw [Scanner.rootOf_eq_ok_iff.2 root] at led
            cases led
          rw [(Scanner.rootOf_eq_error_iff.1 led).2]
          simp only [other, Bool.false_eq_true, not_false_eq_true, decide_true]
          rfl

/-- **Short roots that lead over short paths fail the check as they fail a walk**: at the same root
and in the same words. -/
theorem checkRoots_eq (short : ∀ p ∈ ps, p.bytes.length < pathBound)
    (within : ∀ p ∈ ps, w.StaysWithin pathBound p) :
    w.checkRoots ps = (Scanner.rootsOf w ps).map fun _ => () := by
  rw [checkRoots, Scanner.rootsOf, checkDirectories_eq short within]
  split <;> rfl

/-- Roots that pass the check are short. -/
theorem short_of_checkRoots (h : w.checkRoots ps = .ok ()) :
    ∀ p ∈ ps, p.bytes.length < pathBound := by
  intro p hp
  rw [checkRoots] at h
  split at h
  · cases h
  · rw [checkDirectories] at h
    split at h
    · cases h
    · rename_i none
      exact short_of_isDirectory (by simpa using List.find?_eq_none.1 none p hp)

/-- Roots stay within the bound on paths. -/
theorem within_of_areRoots {roots : List Location} (h : List.Forall₂ w.IsRoot ps roots) :
    ∀ p ∈ ps, w.StaysWithin pathBound p := by
  induction h with
  | nil => exact List.forall_mem_nil _
  | cons isRoot _ ih =>
      exact List.forall_mem_cons.2 ⟨staysWithin_of_canonicalize isRoot.1
        (FileTree.lookup?_shallow_eq_some_iff.1 isRoot.2).2, ih⟩

/-- Roots that are found stay within the bound on paths. -/
theorem rootsWithin_of_rootsOf {roots : List Location}
    (found : Scanner.rootsOf w s.scan.roots = .ok roots) : s.RootsWithin w pathBound :=
  within_of_areRoots (Scanner.rootsOf_eq_ok_iff.1 found).2

/-! ## Steps of a run -/

/-- A walk succeeds exactly if its roots are roots. -/
theorem exists_walk_eq_ok_iff {g : IncludeGraph} :
    (∃ summary, (scanner.walk w g).2 = .ok summary) ↔
      ∃ roots, Scanner.rootsOf w scanner.options.roots = .ok roots := by
  rw [Scanner.walk]
  cases Scanner.rootsOf w scanner.options.roots <;> simp

theorem make_eq_error_iff {o : ScanOptions} :
    Scanner.make o = .error e ↔ readPatterns o.patterns = .error e := by
  rw [Scanner.make]
  cases readPatterns o.patterns <;> simp [Except.map]

/-- Every step of a run succeeds exactly if its roots, its patterns and its colors can be
used. -/
theorem runs_iff : w.Runs s ↔ (∃ roots, Scanner.rootsOf w s.scan.roots = .ok roots) ∧
    (∃ patterns, readPatterns s.scan.patterns = .ok patterns) ∧
    ∃ options, s.graphOptions = .ok options := by
  constructor
  · rintro ⟨colors, scanner, made, walks⟩
    obtain ⟨options, read⟩ := Scanner.make_eq_ok_iff.1 made
    have walked := exists_walk_eq_ok_iff.1 (walks (IncludeGraph.empty GraphOptions.default))
    rw [options] at walked
    exact ⟨walked, ⟨_, read⟩, colors⟩
  · rintro ⟨roots, ⟨patterns, read⟩, colors⟩
    exact ⟨colors, ⟨_, patterns⟩, Scanner.make_eq_ok_iff.2 ⟨rfl, read⟩,
      fun _ => exists_walk_eq_ok_iff.2 roots⟩

/-! ## The check -/

/-- The check of settings whose roots stay within both bounds, as a row of the things a run
needs. -/
theorem check_eq (short : s.RootsShort) (within : s.RootsWithin w pathBound) :
    w.check s = (do
      let _ ← Scanner.rootsOf w s.scan.roots
      let _ ← readPatterns s.scan.patterns
      let _ ← s.graphOptions.mapError ScanError.badColors) := by
  rw [check, checkRoots_eq short within]
  cases Scanner.rootsOf w s.scan.roots <;> rfl

/-- With such roots the check fails with what is wrong with the roots, or else with the patterns,
or else with the colors. -/
theorem check_eq_error_iff (short : s.RootsShort) (within : s.RootsWithin w pathBound) :
    w.check s = .error e ↔ Scanner.rootsOf w s.scan.roots = .error e ∨
      (∃ roots, Scanner.rootsOf w s.scan.roots = .ok roots) ∧
        (readPatterns s.scan.patterns = .error e ∨
          (∃ patterns, readPatterns s.scan.patterns = .ok patterns) ∧
            ∃ fault, s.graphOptions = .error fault ∧ e = .badColors fault) := by
  rw [check_eq short within]
  cases Scanner.rootsOf w s.scan.roots <;> cases readPatterns s.scan.patterns <;>
    cases s.graphOptions <;>
      simp [bind, Except.bind, pure, Except.pure, Except.mapError, eq_comm]

/-- With patterns and colors that can be used, the check is that of the roots. -/
theorem check_eq_checkRoots (read : ∃ patterns, readPatterns s.scan.patterns = .ok patterns)
    (usable : ∃ options, s.graphOptions = .ok options) :
    w.check s = w.checkRoots s.scan.roots := by
  obtain ⟨patterns, read⟩ := read
  obtain ⟨options, usable⟩ := usable
  rw [check, read, usable]
  cases w.checkRoots s.scan.roots <;> rfl

/-- **When the check passes.**  It passes, and the roots stay within the bound on paths, exactly if
every step of a run succeeds and the roots are short. -/
theorem check_eq_ok_iff :
    w.check s = .ok () ∧ s.RootsWithin w pathBound ↔ w.Runs s ∧ s.RootsShort := by
  have passed : s.RootsShort → s.RootsWithin w pathBound → (w.check s = .ok () ↔ w.Runs s) := by
    intro short within
    rw [check_eq short within, runs_iff]
    cases Scanner.rootsOf w s.scan.roots <;> cases readPatterns s.scan.patterns <;>
      cases s.graphOptions <;> simp [bind, Except.bind, pure, Except.pure, Except.mapError]
  constructor
  · rintro ⟨h, within⟩
    have short : s.RootsShort := by
      refine short_of_checkRoots (w := w) ?_
      cases roots : w.checkRoots s.scan.roots with
      | ok _ => rfl
      | error e =>
          rw [check, roots] at h
          cases h
    exact ⟨(passed short within).1 h, short⟩
  · rintro ⟨runs, short⟩
    obtain ⟨roots, found⟩ := (runs_iff.1 runs).1
    have within := rootsWithin_of_rootsOf found
    exact ⟨(passed short within).2 runs, within⟩

/-- Every step of a run succeeds only if the roots stay within the bound on paths, and then the
check bounds nothing but their spellings. -/
theorem Runs.check_eq_ok_iff (h : w.Runs s) :
    s.RootsWithin w pathBound ∧ (w.check s = .ok () ↔ s.RootsShort) := by
  obtain ⟨roots, found⟩ := (runs_iff.1 h).1
  have within := rootsWithin_of_rootsOf found
  refine ⟨within, fun passed => ?_, fun short => ?_⟩
  · exact (Workspace.check_eq_ok_iff.1 ⟨passed, within⟩).2
  · exact (Workspace.check_eq_ok_iff.2 ⟨h, short⟩).1

/-! ## The run -/

/-- After a check that passes a graph is built, if the roots stay within the bound on paths. -/
theorem exists_build_eq_ok (h : w.check s = .ok ()) (within : s.RootsWithin w pathBound) :
    ∃ summary g, w.build s = .ok (summary, g) := by
  obtain ⟨⟨⟨options, colors⟩, scanner, made, walks⟩, -⟩ := check_eq_ok_iff.1 ⟨h, within⟩
  obtain ⟨summary, walked⟩ := walks (IncludeGraph.empty options)
  refine ⟨summary, (scanner.walk w (IncludeGraph.empty options)).1, ?_⟩
  have whole : scanner.walk w (IncludeGraph.empty options) = (_, .ok summary) :=
    Prod.ext rfl walked
  rw [build, h, made, colors]
  simp only [Except.mapError, bind, Except.bind]
  rw [whole]
  rfl

/-- What the check of some settings says of a run with them. -/
structure Foretells (w : Workspace) (s : Settings) : Prop where
  /-- If nothing that the roots come by is too far down, it passes exactly if every step of the run
  succeeds and the roots are spelled shortly enough. -/
  passes : s.RootsWithin w (pathBound - 1) → (w.check s = .ok () ↔ w.Runs s ∧ s.RootsShort)
  /-- No step of the run succeeds with roots that are too far down, and if every step does, it
  passes exactly if the roots are spelled shortly enough. -/
  runs : w.Runs s → s.RootsWithin w pathBound ∧ (w.check s = .ok () ↔ s.RootsShort)
  /-- In a tree that is nowhere too deep, only the spellings are left to make a difference. -/
  plainly : (∀ x ∈ w.tree.entries, x.1.toPath.bytes.length < pathBound - 1) →
    w.tree.lookup? w.directory = some .directory →
    (w.check s = .ok () ↔ w.Runs s ∧ s.RootsShort)
  /-- Once it has passed, counting and printing run to the end and leave no complaint. -/
  ends : w.check s = .ok () → s.RootsWithin w (pathBound - 1) →
    ∀ words command base arguments, Command.parse? words = some command →
      w.baseSettings command.config = .ok base → arguments.applyTo base = s →
      command.action = .index arguments ∨ command.action = .document arguments none →
      ∃ text, w.runArguments words = (w, .ended (.print text)) ∧
        (w.runArguments words).2.status = 0
  /-- If nothing but the roots is at fault, it fails as every walk does. -/
  roots : s.RootsShort → s.RootsWithin w (pathBound - 1) → ∀ scanner,
    Scanner.make (s.scanOptions w.directory.toPath) = .ok scanner →
    (∃ options, s.graphOptions = .ok options) →
    ∀ e g, w.check s = .error e ↔ (scanner.walk w g).2 = .error e
  /-- If nothing but the patterns is at fault, it fails as reading them does. -/
  patterns : s.RootsShort → (∃ roots, Scanner.rootsOf w s.scan.roots = .ok roots) →
    (∃ options, s.graphOptions = .ok options) →
    ∀ e, w.check s = .error e ↔
      Scanner.make (s.scanOptions w.directory.toPath) = .error e
  /-- If nothing but the colors is at fault, it fails as making a palette of them does. -/
  colors : s.RootsShort → (∃ roots, Scanner.rootsOf w s.scan.roots = .ok roots) →
    (∃ scanner, Scanner.make (s.scanOptions w.directory.toPath) = .ok scanner) →
    ∀ e, w.check s = .error e ↔ ∃ fault, s.graphOptions = .error fault ∧ e = .badColors fault

/-- What stays within the bound with a byte to spare stays within it. -/
theorem within_of_spare (h : s.RootsWithin w (pathBound - 1)) : s.RootsWithin w pathBound :=
  h.mono (Nat.sub_le pathBound 1)

/-- **The check foretells the run**, as far as neither the spellings of the roots nor the places
they lead over are too long to be looked up. -/
theorem foretells (w : Workspace) (s : Settings) : w.Foretells s where
  passes := by
    intro within
    rw [← check_eq_ok_iff, and_iff_left (within_of_spare within)]
  runs := Runs.check_eq_ok_iff
  plainly := by
    intro all here
    have within : s.RootsWithin w (pathBound - 1) :=
      fun p _ => staysWithin_of_forall all (by decide) here p
    rw [← check_eq_ok_iff, and_iff_left (within_of_spare within)]
  ends := by
    intro h within words command base arguments parsed loaded applied asked
    obtain ⟨summary, g, built⟩ := exists_build_eq_ok h (within_of_spare within)
    have ended : ∃ text, w.runArguments words = (w, .ended (.print text)) := by
      rw [runArguments, parsed]
      simp only [perform, loaded]
      rcases asked with index | document
      · rw [index, act, applied, built]
        exact ⟨_, rfl⟩
      · rw [document, act, applied, built]
        exact ⟨_, rfl⟩
    obtain ⟨text, eq⟩ := ended
    exact ⟨text, eq, by rw [eq]; rfl⟩
  roots := by
    rintro short spare scanner made ⟨options, usable⟩ e g
    have within := within_of_spare spare
    obtain ⟨eq, read⟩ := Scanner.make_eq_ok_iff.1 made
    rw [Scanner.walk_eq_error_iff, eq, check_eq_error_iff short within]
    simp only [Settings.scanOptions] at read ⊢
    simp [read, usable]
  patterns := by
    rintro short ⟨roots, found⟩ ⟨options, usable⟩ e
    have within := rootsWithin_of_rootsOf found
    rw [make_eq_error_iff, check_eq_error_iff short within]
    simp [found, usable, Settings.scanOptions]
  colors := by
    rintro short ⟨roots, found⟩ ⟨scanner, made⟩ e
    have within := rootsWithin_of_rootsOf found
    have read := (Scanner.make_eq_ok_iff.1 made).2
    rw [check_eq_error_iff short within]
    simp only [Settings.scanOptions] at read
    simp [found, read]

end Workspace

namespace Sample

/-- Settings that scan the outer directory of the sample, with everything else as it is where
nothing is said. -/
def settings : Settings :=
  { Settings.default with scan := { ScanOptions.default with roots := [Path.ofString "/r"] } }

theorem colors_default : GraphSettings.default.colors = "234, 82, 77" := by
  decide

theorem exists_graphOptions_settings : ∃ options, settings.graphOptions = .ok options := by
  have parts : (Cut.pieces ',' "234, 82, 77".toList).map Blank.trim =
      ["234".toList, "82".toList, "77".toList] := by
    decide
  have base : Palette.parseBase "234, 82, 77" = .ok Palette.default.base := by
    rw [Palette.parseBase, parts]
    rfl
  have palette : Palette.make Palette.default.base settings.graph.variation
      settings.graph.alphaMin = .ok Palette.default :=
    if_pos (by decide)
  rw [Settings.graphOptions, show settings.graph.colors = _ from colors_default, base]
  simp only [bind, Except.bind, palette]
  exact ⟨_, rfl⟩

/-- The same settings with another root. -/
def rootedAt (p : Path) : Settings :=
  { settings with scan := { settings.scan with roots := [p] } }

theorem exists_readPatterns : ∃ patterns, readPatterns defaultPatterns = .ok patterns :=
  ⟨_, readPatterns_eq_ok_iff.2 denotes_defaultPatterns⟩

/-- Settings that scan one path run exactly if that is a root. -/
theorem runs_rootedAt_iff {w : Workspace} {p : Path} :
    w.Runs (rootedAt p) ↔ ∃ l, w.IsRoot p l := by
  rw [Workspace.runs_iff]
  constructor
  · rintro ⟨⟨roots, found⟩, -⟩
    cases (Scanner.rootsOf_eq_ok_iff.1 found).2 with
    | cons isRoot _ => exact ⟨_, isRoot⟩
  · rintro ⟨l, isRoot⟩
    exact ⟨⟨[l], Scanner.rootsOf_eq_ok_iff.2 ⟨List.cons_ne_nil _ _, .cons isRoot .nil⟩⟩,
      exists_readPatterns, exists_graphOptions_settings⟩

/-- The check of such settings is whether the path is a directory. -/
theorem check_rootedAt (w : Workspace) (p : Path) :
    w.check (rootedAt p) = if w.isDirectory p then .ok () else .error (.invalidRoot p) := by
  rw [Workspace.check_eq_checkRoots (s := rootedAt p) exists_readPatterns
    exists_graphOptions_settings]
  show w.checkRoots [p] = _
  rw [Workspace.checkRoots, Workspace.checkDirectories, List.find?_singleton]
  cases w.isDirectory p <;> rfl

theorem parse_index : Command.parse? ["index", "/r"] = some ⟨none, .index
    ⟨[Path.ofString "/r"], [], [], none, none, false, none, none, none, none, false⟩⟩ := by
  cbv

/-- Counting what the outer directory holds is foretold to run to the end. -/
theorem foretells_index : workspace.check settings = .ok () ∧
    ∃ text, workspace.runArguments ["index", "/r"] = (workspace, .ended (.print text)) ∧
      (workspace.runArguments ["index", "/r"]).2.status = 0 := by
  have short : settings.RootsShort := by
    intro p hp
    obtain rfl := List.mem_singleton.1 hp
    decide
  have within : settings.RootsWithin workspace (pathBound - 1) := fun p _ =>
    Workspace.staysWithin_of_forall (by decide) (by decide) rfl p
  have foretold := Workspace.foretells workspace settings
  have passed := (foretold.passes within).2 ⟨runs_rootedAt_iff.2 ⟨top, isRoot_top⟩, short⟩
  exact ⟨passed, foretold.ends passed within ["index", "/r"] _ _ _ parse_index rfl rfl (.inl rfl)⟩

/-- The outer directory, spelled with more slashes in front than a path may have bytes. -/
def slashes : Path := ⟨List.replicate pathBound slash ++ Utf8.encode "r"⟩

theorem le_length_slashes : pathBound ≤ slashes.bytes.length := by
  simp [slashes]

/-- However many slashes stand in front, the directory is made canonical. -/
theorem isRoot_slashes : workspace.IsRoot slashes top := by
  have cut : ∀ n, Cut.pieces slash (List.replicate n slash ++ Utf8.encode "r") =
      List.replicate n [] ++ top := by
    intro n
    induction n with
    | zero => decide
    | succ n ih =>
        rw [List.replicate_succ, List.replicate_succ, List.cons_append, List.cons_append, ← ih]
        exact Cut.pieces_append List.not_mem_nil _
  have passed : ∀ n, workspace.tree.shallow.Leads 0 [] (List.replicate n [] ++ top) top := by
    intro n
    induction n with
    | zero => exact .enter (by decide) .here
    | succ n ih => exact .stay (.inl rfl) ih
  have noNul : 0 ∉ slashes.bytes := by
    simp only [slashes, List.mem_append, List.mem_replicate]
    decide
  have notEmpty : slashes.bytes ≠ [] := by
    intro empty
    have long := le_length_slashes
    rw [empty] at long
    exact absurd long (by decide)
  refine ⟨Workspace.canonicalize_eq_ok_iff.2 ⟨noNul, notEmpty, 0, by decide, ?_⟩, by decide⟩
  rw [Path.segments, slashes, cut]
  exact passed pathBound

/-- **A check may refuse what would run.**  The directory is looked at under a spelling that is
too long, and made canonical all the same. -/
theorem runs_and_check_eq_error :
    workspace.Runs (rootedAt slashes) ∧
      workspace.check (rootedAt slashes) = .error (.invalidRoot slashes) := by
  have other : ¬ workspace.isDirectory slashes = true := fun directory =>
    Nat.not_lt.2 le_length_slashes (Workspace.short_of_isDirectory directory)
  exact ⟨runs_rootedAt_iff.2 ⟨top, isRoot_slashes⟩, by rw [check_rootedAt, if_neg other]⟩

/-- A long name. -/
def longName : Name := List.replicate 250 0x6E

theorem length_longName : longName.length = 250 :=
  List.length_replicate

theorem isName_longName : IsName longName := by
  have absent : ∀ b : UInt8, b ≠ 0x6E → b ∉ longName := fun b ne mem =>
    ne (List.eq_of_mem_replicate mem)
  refine ⟨List.cons_ne_nil _ _, by decide, by decide, absent _ (by decide),
    absent _ (by decide), ?_⟩
  rw [length_longName]
  decide

/-- So many directories of that name in each other. -/
def depths (k : Nat) : Location := List.replicate k longName

theorem isName_of_mem_depths {k : Nat} {n : Name} (h : n ∈ depths k) : IsName n := by
  rw [List.eq_of_mem_replicate h]
  exact isName_longName

theorem depths_append (i j : Nat) : depths i ++ depths j = depths (i + j) :=
  List.replicate_append_replicate

theorem length_depths (k : Nat) : (depths (k + 1)).toPath.bytes.length = (k + 1) * 251 := by
  rw [depths, List.replicate_succ, Location.toPath_of_ne_nil (List.cons_ne_nil _ _),
    ← List.replicate_succ]
  simp [List.length_flatMap, length_longName]

/-- Eighteen directories in each other, and beside them a link to the ninth. -/
def abyss : Workspace where
  tree := {
    entries := ([Utf8.encode "b"], .link (depths 9).toPath) ::
      (List.range 18).map fun k => (depths (k + 1), .directory)
    ascending := by
      refine List.pairwise_cons.2 ⟨?_, List.pairwise_map.2 (List.pairwise_lt_range.imp ?_)⟩
      · intro x hx
        obtain ⟨k, -, rfl⟩ := List.mem_map.1 hx
        exact List.cons_lt_cons_iff.2 (.inl (by decide))
      · intro i j lt
        have further : depths (i + 1) ++ longName :: depths (j - i - 1) = depths (j + 1) :=
          (depths_append (i + 1) (j - i - 1 + 1)).trans (congrArg depths (by omega))
        show depths (i + 1) < depths (j + 1)
        rw [← further]
        exact Location.lt_append _ longName _
    named := by
      intro x hx
      rcases List.mem_cons.1 hx with rfl | hx
      · decide
      · obtain ⟨k, -, rfl⟩ := List.mem_map.1 hx
        exact ⟨List.cons_ne_nil _ _, fun n => isName_of_mem_depths⟩
    rooted := by
      intro x hx
      rcases List.mem_cons.1 hx with rfl | hx
      · exact .inl rfl
      · obtain ⟨k, hk, rfl⟩ := List.mem_map.1 hx
        have above : List.dropLast (depths (k + 1)) = depths k := List.dropLast_replicate
        rw [above]
        cases k with
        | zero => exact .inl rfl
        | succ k =>
            have inside : k ∈ List.range 18 := List.mem_range.2
              (Nat.lt_of_succ_lt (List.mem_range.1 hk))
            exact .inr (List.mem_cons_of_mem _ (List.mem_map_of_mem inside)) }
  directory := []

theorem lookup?_depths {k : Nat} (le : k ≤ 18) :
    abyss.tree.lookup? (depths k) = some .directory := by
  cases k with
  | zero => rfl
  | succ k =>
      refine (FileTree.lookup?_eq_some_iff (List.cons_ne_nil _ _)).2 ?_
      exact List.mem_cons_of_mem _ (List.mem_map_of_mem (List.mem_range.2 le))

theorem lookup?_link : abyss.tree.lookup? [Utf8.encode "b"] = some (.link (depths 9).toPath) :=
  (FileTree.lookup?_eq_some_iff (by decide)).2 List.mem_cons_self

/-- The last directory, spelled over the link. -/
def shortcut : Path := Location.toPath (Utf8.encode "b" :: depths 9)

theorem length_shortcut : shortcut.bytes.length = 2261 := by
  rw [shortcut, Location.toPath_of_ne_nil (List.cons_ne_nil _ _), depths]
  simp [length_longName, show (Utf8.encode "b").length = 1 by rfl]

theorem locate_shortcut : abyss.locate shortcut = .ok (depths 18) := by
  have isName : ∀ n ∈ Utf8.encode "b" :: depths 9, IsName n :=
    List.forall_mem_cons.2 ⟨by decide, fun n => isName_of_mem_depths⟩
  have absolute : ∀ l : Location, l.toPath.startFrom [] = [] := fun l =>
    if_pos l.isAbsolute_toPath
  have short : shortcut.bytes.length < pathBound := by
    rw [length_shortcut]
    decide
  have spelled : Workspace.spellingFault? shortcut = none :=
    Workspace.spellingFault?_eq_none_iff.2 ⟨Workspace.not_mem_bytes_toPath (by decide) fun n hn =>
      (isName n hn).2.2.2.2.1, List.cons_ne_nil _ _, short⟩
  -- behind the link come the nine directories that it leads over, and then the nine after it
  have below : abyss.tree.resolve 39 [] (depths 9 ++ depths 9) = .ok (depths 18) := by
    rw [depths_append]
    exact FileTree.resolve_names (depths 18) (.inl (lookup?_depths (Nat.le_refl 18)))
  obtain ⟨n, le, leads⟩ := FileTree.resolve_eq_ok_iff.1 below
  refine Workspace.locate_eq_ok_iff_leads.2 ⟨spelled, n + 1, Nat.succ_le_succ le, ?_⟩
  show abyss.tree.Leads (n + 1) (shortcut.startFrom []) shortcut.segments (depths 18)
  rw [shortcut, absolute, Location.segments_toPath (List.cons_ne_nil _ _) fun n hn =>
    (isName n hn).2.2.2.1]
  refine .stay (.inl rfl) (.follow lookup?_link ?_)
  have segments : (depths 9).toPath.segments = [] :: depths 9 :=
    Location.segments_toPath (List.cons_ne_nil _ _) fun n hn =>
      (isName_of_mem_depths hn).2.2.2.1
  rw [absolute, segments]
  exact .stay (.inl rfl) leads

/-- **A check may pass what does not run.**  Through the link the directory is looked at under a
short spelling, and made canonical it has a path that is too long. -/
theorem check_eq_ok_and_not_runs :
    abyss.check (rootedAt shortcut) = .ok () ∧ ¬ abyss.Runs (rootedAt shortcut) := by
  have directory : abyss.isDirectory shortcut = true :=
    Workspace.isDirectory_eq_true_iff.2 ⟨_, locate_shortcut, lookup?_depths (Nat.le_refl 18)⟩
  refine ⟨by rw [check_rootedAt, if_pos directory], ?_⟩
  rw [runs_rootedAt_iff]
  rintro ⟨l, led, there⟩
  have located := Workspace.locate_of_canonicalize led (Workspace.short_of_isDirectory directory)
  obtain rfl := Except.ok.inj (locate_shortcut.symm.trans located)
  have short := (FileTree.lookup?_shallow_eq_some_iff.1 there).2
  rw [Location.Short, length_depths 17] at short
  exact absurd short (by decide)

end Sample

end IncludeAtlas
