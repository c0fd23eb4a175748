import IncludeAtlas.Proofs.Graph.History
import IncludeAtlas.Scan.Walk
import Mathlib.Data.List.Permutation

/-!
# What a scan enumerates

A scan that succeeds has read all patterns and found all roots.  This module gives such a
scan in closed form: the candidates it enumerates, the files it reads, and the history of
registrations that its graph is.

## Main Definitions

* `ScanOptions.Yields`: a scan into an empty graph, and what comes of it
* `Workspace.IsRoot`, `Glob.Denotes`: what makes a root a root and a pattern a pattern
* `Workspace.candidates`: the candidates of a scan, in their order
* `Workspace.filesOf`: the files that are read from some candidates
* `Sample`: a small tree, and two scans of it

## Main Results

* `ScanOptions.yields_iff`: a scan succeeds exactly with the roots and the patterns that its
  options denote, and its graph is the history of the files
-/

namespace IncludeAtlas

/-- A traversal succeeds exactly with the results of the elements. -/
theorem mapM_eq_ok_iff {α β ε : Type} {f : α → Except ε β} {xs : List α} {ys : List β} :
    xs.mapM f = .ok ys ↔ List.Forall₂ (fun x y => f x = .ok y) xs ys := by
  induction xs generalizing ys with
  | nil =>
      rw [List.mapM_nil, List.forall₂_nil_left_iff]
      exact ⟨fun h => (Except.ok.inj h).symm, fun h => congrArg _ h.symm⟩
  | cons x xs ih =>
      rw [List.mapM_cons, List.forall₂_cons_left_iff]
      cases first : f x with
      | error e =>
          constructor
          · intro h
            cases h
          · rintro ⟨y, ys, eq, -⟩
            cases eq
      | ok y =>
          cases rest : xs.mapM f with
          | error e =>
              constructor
              · intro h
                cases h
              · rintro ⟨z, zs, -, all, -⟩
                rw [ih.2 all] at rest
                cases rest
          | ok zs =>
              constructor
              · intro h
                obtain rfl := Except.ok.inj h
                exact ⟨y, zs, rfl, ih.1 rest, rfl⟩
              · rintro ⟨z, zs', eq, all, rfl⟩
                obtain rfl := Except.ok.inj eq
                rw [ih.2 all] at rest
                obtain rfl := Except.ok.inj rest
                rfl

/-- A traversal fails exactly with the failure of the first element that fails. -/
theorem mapM_eq_error_iff {α β ε : Type} {f : α → Except ε β} {xs : List α} {e : ε} :
    xs.mapM f = .error e ↔ ∃ before x after, xs = before ++ x :: after ∧
      (∀ y ∈ before, ∃ z, f y = .ok z) ∧ f x = .error e := by
  induction xs with
  | nil => simp [List.mapM_nil, pure, Except.pure]
  | cons x xs ih =>
      rw [List.mapM_cons]
      cases first : f x with
      | error e' =>
          constructor
          · intro h
            obtain rfl := Except.error.inj h
            exact ⟨[], x, xs, rfl, List.forall_mem_nil _, first⟩
          · rintro ⟨before, y, after, split, earlier, fails⟩
            -- nothing can stand before it, as that would have to succeed
            cases before with
            | nil =>
                obtain ⟨rfl, -⟩ := List.cons.inj split
                exact congrArg _ (Except.error.inj (first.symm.trans fails))
            | cons y' before =>
                obtain ⟨rfl, -⟩ := List.cons.inj split
                obtain ⟨z, succeeds⟩ := earlier x List.mem_cons_self
                cases first.symm.trans succeeds
      | ok y =>
          have rest : ((xs.mapM f).bind fun ys => .ok (y :: ys)) = .error e ↔
              xs.mapM f = .error e := by
            cases xs.mapM f <;> simp [Except.bind]
          refine Iff.trans rest (ih.trans ?_)
          constructor
          · rintro ⟨before, x', after, rfl, earlier, fails⟩
            exact ⟨x :: before, x', after, rfl,
              List.forall_mem_cons.2 ⟨⟨y, first⟩, earlier⟩, fails⟩
          · rintro ⟨before, x', after, split, earlier, fails⟩
            cases before with
            | nil =>
                obtain ⟨rfl, -⟩ := List.cons.inj split
                cases first.symm.trans fails
            | cons y' before =>
                obtain ⟨rfl, rfl⟩ := List.cons.inj split
                exact ⟨before, x', after, rfl, (List.forall_mem_cons.1 earlier).2, fails⟩

/-! ## Roots and patterns -/

/-- A path leads to a directory that can be opened under its own path, and that is its
location. -/
def Workspace.IsRoot (w : Workspace) (p : Path) (l : Location) : Prop :=
  w.canonicalize p = .ok l ∧ w.tree.shallow.lookup? l = some .directory

/-- A text is a pattern for names. -/
def Glob.Denotes (text : String) (pattern : List Glob.Token) : Prop :=
  Glob.parse false text = .ok pattern

/-- A path leads to one directory. -/
theorem Workspace.isRoot_unique (w : Workspace) : Relator.RightUnique w.IsRoot :=
  fun _ _ _ h h' => Except.ok.inj (h.1.symm.trans h'.1)

/-- A text is one pattern. -/
theorem Glob.denotes_unique : Relator.RightUnique Glob.Denotes :=
  fun _ _ _ h h' => Except.ok.inj (Eq.trans (Eq.symm h) h')

theorem Scanner.rootOf_eq_ok_iff {w : Workspace} {p : Path} {l : Location} :
    rootOf w p = .ok l ↔ w.IsRoot p l := by
  rw [rootOf, Workspace.IsRoot]
  cases led : w.canonicalize p with
  | error fault => simp
  | ok l' =>
      simp only [Except.ok.injEq]
      constructor
      · intro h
        split at h
        · rename_i directory
          obtain rfl := Except.ok.inj h
          exact ⟨rfl, directory⟩
        · cases h
      · rintro ⟨rfl, directory⟩
        rw [if_pos directory]

/-- A path that is no root is refused under its own name. -/
theorem Scanner.rootOf_eq_error_iff {w : Workspace} {p : Path} {e : ScanError} :
    rootOf w p = .error e ↔ (∀ l, ¬ w.IsRoot p l) ∧ e = .invalidRoot p := by
  constructor
  · intro h
    refine ⟨fun l root => ?_, ?_⟩
    · rw [rootOf_eq_ok_iff.2 root] at h
      cases h
    · rw [rootOf] at h
      split at h
      · split at h
        · cases h
        · exact (Except.error.inj h).symm
      · exact (Except.error.inj h).symm
  · rintro ⟨noRoot, rfl⟩
    rw [rootOf]
    cases led : w.canonicalize p with
    | error fault => rfl
    | ok l => exact if_neg fun directory => noRoot l ⟨led, directory⟩

theorem Scanner.rootsOf_eq_ok_iff {w : Workspace} {ps : List Path} {roots : List Location} :
    rootsOf w ps = .ok roots ↔ ps ≠ [] ∧ List.Forall₂ w.IsRoot ps roots := by
  rw [rootsOf]
  cases ps with
  | nil => simp
  | cons p ps =>
      simp only [List.isEmpty_cons, Bool.false_eq_true, if_false, mapM_eq_ok_iff,
        rootOf_eq_ok_iff]
      exact (and_iff_right (List.cons_ne_nil p ps)).symm

theorem readPatterns_eq_ok_iff {texts : List String} {patterns : List (List Glob.Token)} :
    readPatterns texts = .ok patterns ↔ List.Forall₂ Glob.Denotes texts patterns := by
  have one : ∀ text pattern,
      (Glob.parse false text).mapError ScanError.badPattern = .ok pattern ↔
        Glob.Denotes text pattern := by
    intro text pattern
    rw [Glob.Denotes]
    cases Glob.parse false text <;> simp [Except.mapError]
  rw [readPatterns, mapM_eq_ok_iff]
  simp only [one]

/-- A scanner is made of its options and the patterns in them. -/
theorem Scanner.make_eq_ok_iff {o : ScanOptions} {s : Scanner} :
    Scanner.make o = .ok s ↔ s.options = o ∧ readPatterns o.patterns = .ok s.patterns := by
  rw [make]
  cases readPatterns o.patterns with
  | error e => simp [Except.map]
  | ok patterns =>
      constructor
      · intro h
        cases h
        exact ⟨rfl, rfl⟩
      · rintro ⟨rfl, eq⟩
        cases eq
        rfl

/-! ## Candidates and files -/

namespace Workspace

/-- The candidates of a scan: root by root and pattern by pattern, the entries with a
matching name that are no directories, in the order of the tree. -/
def candidates (w : Workspace) (honorIgnoreFiles : Bool) (roots : List Location)
    (patterns : List (List Glob.Token)) : List Candidate :=
  roots.flatMap fun root => patterns.flatMap fun pattern =>
    (((w.considered honorIgnoreFiles root).map Prod.fst).filter fun l =>
      nameMatches pattern l && !w.leadsToDirectory l).map fun l => ⟨l, root⟩

/-- How a candidate is read depends on the directories to search, and on no other option. -/
theorem scanFile_congr {w : Workspace} {o o' : ScanOptions}
    (same : o.directories = o'.directories) :
    w.scanFile o = w.scanFile o' := by
  funext c
  rw [scanFile, scanFile, searchDirectories, searchDirectories, same]

/-- The files that are read from some candidates. -/
def filesOf (w : Workspace) (options : ScanOptions) (cs : List Candidate) : List ScannedFile :=
  cs.filterMap fun c => (w.scanFile options c).toOption

theorem mem_filesOf_iff {w : Workspace} {options : ScanOptions} {cs : List Candidate}
    {f : ScannedFile} :
    f ∈ w.filesOf options cs ↔ ∃ c ∈ cs, w.scanFile options c = .ok f := by
  rw [filesOf, List.mem_filterMap]
  refine exists_congr fun c => and_congr_right fun _ => ?_
  cases w.scanFile options c <;> simp [Except.toOption]

/-- What is seen and no directory is a candidate. -/
theorem filterMap_candidate?_sightings (w : Workspace) (honorIgnoreFiles : Bool)
    (roots : List Location) (patterns : List (List Glob.Token)) :
    (roots.flatMap (w.sightings honorIgnoreFiles patterns)).filterMap Scanner.candidate? =
      w.candidates honorIgnoreFiles roots patterns := by
  have below : ∀ (root : Location) (ls : List Location),
      (ls.map (w.sight root)).filterMap Scanner.candidate? =
        (ls.filter fun l => !w.leadsToDirectory l).map fun l => ⟨l, root⟩ := by
    intro root ls
    induction ls with
    | nil => rfl
    | cons l ls ih =>
        rw [List.map_cons, sight]
        cases directory : w.leadsToDirectory l with
        | true =>
            rw [if_pos rfl, List.filter_cons_of_neg (by simp [directory])]
            exact ih
        | false =>
            rw [if_neg Bool.false_ne_true, List.filter_cons_of_pos (by simp [directory]),
              List.map_cons, ← ih]
            rfl
  simp only [candidates, sightings, List.filterMap_flatMap, below, List.filter_filter,
    Bool.and_comm]

end Workspace

/-! ## Scans -/

/-- A scan into an empty graph succeeds, with a graph and what it counted. -/
def ScanOptions.Yields (o : ScanOptions) (w : Workspace) (options : GraphOptions)
    (g : IncludeGraph) (summary : Summary) : Prop :=
  ∃ s, Scanner.make o = .ok s ∧
    s.walk w (IncludeGraph.empty options) = (g, .ok summary)

/-- The registrations of some files. -/
def historyOf (found : List ScannedFile) : List (Path × List Path) :=
  found.map fun f => (f.path, f.includes)

theorem exists_mem_historyOf_iff {found : List ScannedFile} {p : Path} :
    (∃ r ∈ historyOf found, r.1.Same p) ↔ ∃ f ∈ found, f.path.Same p := by
  simp [historyOf]

/-- The files among the outcomes of some candidates. -/
theorem Scanner.files_map_scanFile (w : Workspace) (o : ScanOptions) (cs : List Candidate) :
    files (cs.map (w.scanFile o)) = w.filesOf o cs :=
  List.filterMap_map

/-- A walk from known roots. -/
theorem Scanner.walk_of_rootsOf {o : ScanOptions} {w : Workspace} {roots : List Location}
    {patterns : List (List Glob.Token)} {g : IncludeGraph}
    (h : rootsOf w o.roots = .ok roots) :
    (Scanner.mk o patterns).walk w g =
      (g.replay (historyOf (w.filesOf o (w.candidates o.honorIgnoreFiles roots patterns))),
        .ok (summarize (roots.flatMap (w.sightings o.honorIgnoreFiles patterns))
          ((w.candidates o.honorIgnoreFiles roots patterns).map (w.scanFile o)))) := by
  rw [walk, h]
  simp only [sightings, outcomes, w.filterMap_candidate?_sightings, files_map_scanFile,
    IncludeGraph.enter_eq_replay]
  rfl

/-- A walk whose roots are refused leaves the graph alone. -/
theorem Scanner.walk_of_error {s : Scanner} {w : Workspace} {e : ScanError}
    (h : rootsOf w s.options.roots = .error e) (g : IncludeGraph) : s.walk w g = (g, .error e) := by
  rw [walk, h]

/-- A walk fails exactly with what is wrong with its roots. -/
theorem Scanner.walk_eq_error_iff {s : Scanner} {w : Workspace} {g : IncludeGraph}
    {e : ScanError} :
    (s.walk w g).2 = .error e ↔ rootsOf w s.options.roots = .error e := by
  rw [walk]
  cases rootsOf w s.options.roots <;> simp

/-- **A scan in closed form.**  It succeeds exactly if every pattern is one and there are
roots, all of them directories, and then its graph is the history of the files that are read
from its candidates. -/
theorem ScanOptions.yields_iff {o : ScanOptions} {w : Workspace} {options : GraphOptions}
    {g : IncludeGraph} {summary : Summary} :
    o.Yields w options g summary ↔ ∃ roots patterns,
      o.roots ≠ [] ∧ List.Forall₂ w.IsRoot o.roots roots ∧
      List.Forall₂ Glob.Denotes o.patterns patterns ∧
      g = (IncludeGraph.empty options).replay
        (historyOf (w.filesOf o (w.candidates o.honorIgnoreFiles roots patterns))) ∧
      summary = Scanner.summarize (roots.flatMap (w.sightings o.honorIgnoreFiles patterns))
        ((w.candidates o.honorIgnoreFiles roots patterns).map (w.scanFile o)) := by
  constructor
  · rintro ⟨s, made, walked⟩
    obtain ⟨rfl, read⟩ := Scanner.make_eq_ok_iff.1 made
    cases found : Scanner.rootsOf w s.options.roots with
    | error e =>
        rw [Scanner.walk_of_error found] at walked
        cases walked
    | ok roots =>
        obtain ⟨nonempty, all⟩ := Scanner.rootsOf_eq_ok_iff.1 found
        cases (Scanner.walk_of_rootsOf found).symm.trans walked
        exact ⟨roots, s.patterns, nonempty, all, readPatterns_eq_ok_iff.1 read, rfl, rfl⟩
  · rintro ⟨roots, patterns, nonempty, all, denoted, rfl, rfl⟩
    exact ⟨⟨o, patterns⟩, Scanner.make_eq_ok_iff.2 ⟨rfl, readPatterns_eq_ok_iff.2 denoted⟩,
      Scanner.walk_of_rootsOf (Scanner.rootsOf_eq_ok_iff.2 ⟨nonempty, all⟩)⟩

/-- A scan of roots that are directories, for patterns that are some, succeeds. -/
theorem ScanOptions.exists_yields {o : ScanOptions} {w : Workspace} {roots : List Location}
    {patterns : List (List Glob.Token)} (options : GraphOptions) (nonempty : o.roots ≠ [])
    (areRoots : List.Forall₂ w.IsRoot o.roots roots)
    (arePatterns : List.Forall₂ Glob.Denotes o.patterns patterns) :
    ∃ g summary, o.Yields w options g summary :=
  ⟨_, _, yields_iff.2 ⟨roots, patterns, nonempty, areRoots, arePatterns, rfl, rfl⟩⟩

/-! ## A small scan -/

namespace Sample

/-- The location of a directory. -/
def top : Location := [Utf8.encode "r"]

/-- The location of a directory in it. -/
def inner : Location := top ++ [Utf8.encode "s"]

/-- A header, and in the inner directory a source that includes it twice, by its name and by
the way to it. -/
def tree : FileTree where
  entries := [(top, .directory), (inner, .directory),
    (inner ++ [Utf8.encode "x.c"],
      .file (Utf8.encode "#include \"y.h\"\n#include \"../y.h\"\n")),
    (top ++ [Utf8.encode "y.h"], .file [])]
  ascending := by decide
  named := by decide
  rooted := by decide

/-- The tree, seen from its root. -/
def workspace : Workspace := ⟨tree, []⟩

/-- Options that scan both directories, the outer one first. -/
def outwards : ScanOptions :=
  ⟨[Path.ofString "/r", Path.ofString "/r/s"], ["*.c"], [], false⟩

/-- Options that scan both directories, the inner one first. -/
def inwards : ScanOptions :=
  { outwards with roots := [Path.ofString "/r/s", Path.ofString "/r"] }

/-- The pattern of the options. -/
def pattern : List Glob.Token := [.star, .literal '.', .literal 'c']

theorem isRoot_top : workspace.IsRoot (Path.ofString "/r") top :=
  ⟨by cbv, by cbv⟩

theorem isRoot_inner : workspace.IsRoot (Path.ofString "/r/s") inner :=
  ⟨by cbv, by cbv⟩

theorem denotes_pattern : Glob.Denotes "*.c" pattern := by
  unfold Glob.Denotes
  cbv

theorem areRoots_outwards : List.Forall₂ workspace.IsRoot outwards.roots [top, inner] :=
  .cons isRoot_top (.cons isRoot_inner .nil)

theorem areRoots_inwards : List.Forall₂ workspace.IsRoot inwards.roots [inner, top] :=
  .cons isRoot_inner (.cons isRoot_top .nil)

theorem arePatterns : List.Forall₂ Glob.Denotes outwards.patterns [pattern] :=
  .cons denotes_pattern .nil

/-- Both scans succeed. -/
theorem yields_outwards (options : GraphOptions) :
    ∃ g summary, outwards.Yields workspace options g summary :=
  ScanOptions.exists_yields options (List.cons_ne_nil _ _) areRoots_outwards arePatterns

theorem yields_inwards (options : GraphOptions) :
    ∃ g summary, inwards.Yields workspace options g summary :=
  ScanOptions.exists_yields options (List.cons_ne_nil _ _) areRoots_inwards arePatterns

end Sample

end IncludeAtlas
