import IncludeAtlas.Proofs.Graph.Growth
import IncludeAtlas.Proofs.Scan.Weight

/-!
# Walks compose

A walk looks up all roots before it scans anything, and scans everything before it enters
anything.  It might as well go root by root: nothing that it learns below one root is used below
another one.  So a long row of roots can be walked in pieces, on the graph that the piece before
leaves.

## Main Definitions

* `Summary` has an addition, count by count
* `Scanner.withRoots`: a scanner with other roots
* `Scanner.candidates`, `Scanner.found`, `Scanner.count`: what a walk looks at, reads and counts
  below some directories
* `IncludeGraph.Extends`: a graph with more files in it

## Main Results

* `IncludeGraph.Coherent.extends_replay`: files change nothing that is there but standings
* `Scanner.count_append`: what is counted below two rows of directories
* `Scanner.walk_append`: walks compose

## What is load-bearing

Sightings, candidates and files are rows with one piece for each root, and so is the history that
is entered (`List.flatMap_append`, `List.foldl_append`).  What is there already, be it from an
earlier piece, plays a part in the entering only.
-/

namespace IncludeAtlas

/-! ## Counts -/

namespace Summary

/-- Counts are added up one by one. -/
instance : Add Summary :=
  ⟨fun a b => ⟨a.scanned + b.scanned, a.failed + b.failed,
    a.directoriesSkipped + b.directoriesSkipped, a.includes + b.includes,
    a.unresolved + b.unresolved⟩⟩

theorem add_def (a b : Summary) :
    a + b = ⟨a.scanned + b.scanned, a.failed + b.failed,
      a.directoriesSkipped + b.directoriesSkipped, a.includes + b.includes,
      a.unresolved + b.unresolved⟩ := rfl

end Summary

namespace Scanner

/-- A scanner with other roots. -/
def withRoots (s : Scanner) (roots : List Path) : Scanner :=
  { s with options := { s.options with roots } }

/-- The candidates below some directories, in the order they are read. -/
def candidates (s : Scanner) (w : Workspace) (roots : List Location) : List Candidate :=
  w.candidates s.options.honorIgnoreFiles roots s.patterns

/-- The files that are read below some directories, in the order they are entered. -/
def found (s : Scanner) (w : Workspace) (roots : List Location) : List ScannedFile :=
  w.filesOf s.options (s.candidates w roots)

/-- What a walk from some directories counts. -/
def count (s : Scanner) (w : Workspace) (roots : List Location) : Summary :=
  summarize (s.sightings w roots) ((s.candidates w roots).map (w.scanFile s.options))

/-- What a walk counts, in terms of the files that it reads. -/
theorem count_eq (s : Scanner) (w : Workspace) (roots : List Location) :
    s.count w roots =
      { scanned := (s.found w roots).length
        failed := (s.candidates w roots).length - (s.found w roots).length
        directoriesSkipped := ((s.sightings w roots).filter (· = .directory)).length
        includes := ((s.found w roots).flatMap ScannedFile.includes).length
        unresolved := ((s.found w roots).flatMap ScannedFile.unresolved).length } := by
  rw [count, summarize, files_map_scanFile, List.length_map]
  rfl

/-- The candidates of a walk are what it sees and is no directory. -/
theorem candidates_eq_filterMap (s : Scanner) (w : Workspace) (roots : List Location) :
    s.candidates w roots = (s.sightings w roots).filterMap candidate? :=
  (w.filterMap_candidate?_sightings _ roots s.patterns).symm

/-- At most the candidates are read. -/
theorem length_found_le (s : Scanner) (w : Workspace) (roots : List Location) :
    (s.found w roots).length ≤ (s.candidates w roots).length :=
  List.length_filterMap_le _ _

variable {s : Scanner} {w : Workspace} {ps qs : List Path} {roots roots' : List Location}

theorem candidates_append (s : Scanner) (w : Workspace) (roots roots' : List Location) :
    s.candidates w (roots ++ roots') = s.candidates w roots ++ s.candidates w roots' :=
  List.flatMap_append

theorem found_append (s : Scanner) (w : Workspace) (roots roots' : List Location) :
    s.found w (roots ++ roots') = s.found w roots ++ s.found w roots' := by
  rw [found, candidates_append]
  exact List.filterMap_append

/-- What is counted below two rows of directories is what is counted below each of them. -/
theorem count_append (s : Scanner) (w : Workspace) (roots roots' : List Location) :
    s.count w (roots ++ roots') = s.count w roots + s.count w roots' := by
  have le := s.length_found_le w roots
  have le' := s.length_found_le w roots'
  have seen : s.sightings w (roots ++ roots') = s.sightings w roots ++ s.sightings w roots' :=
    List.flatMap_append
  simp only [count_eq, Summary.add_def, seen, found_append, candidates_append,
    List.length_append, List.filter_append, List.flatMap_append, Summary.mk.injEq, true_and,
    and_true]
  -- what fails is counted as a difference, which has to be split as well
  omega

/-! ## Roots -/

/-- Paths that lead to directories have locations. -/
theorem exists_rootsOf (nonempty : ps ≠ []) (areRoots : ∀ p ∈ ps, ∃ l, w.IsRoot p l) :
    ∃ roots, rootsOf w ps = .ok roots := by
  suffices ∃ roots, List.Forall₂ w.IsRoot ps roots by
    obtain ⟨roots, all⟩ := this
    exact ⟨roots, rootsOf_eq_ok_iff.2 ⟨nonempty, all⟩⟩
  clear nonempty
  induction ps with
  | nil => exact ⟨[], .nil⟩
  | cons p ps ih =>
      obtain ⟨l, first⟩ := areRoots p List.mem_cons_self
      obtain ⟨roots, rest⟩ := ih fun q hq => areRoots q (List.mem_cons_of_mem p hq)
      exact ⟨l :: roots, .cons first rest⟩

/-- Two rows of roots in one have the locations of both. -/
theorem rootsOf_append (h : rootsOf w ps = .ok roots) (h' : rootsOf w qs = .ok roots') :
    rootsOf w (ps ++ qs) = .ok (roots ++ roots') := by
  obtain ⟨nonempty, all⟩ := rootsOf_eq_ok_iff.1 h
  obtain ⟨-, all'⟩ := rootsOf_eq_ok_iff.1 h'
  exact rootsOf_eq_ok_iff.2 ⟨List.append_ne_nil_of_left_ne_nil nonempty qs, List.rel_append all all'⟩

/-- A walk from known roots enters the files below them and counts. -/
theorem walk_of_ok (h : rootsOf w s.options.roots = .ok roots) (g : IncludeGraph) :
    s.walk w g = (g.replay (historyOf (s.found w roots)), .ok (s.count w roots)) :=
  walk_of_rootsOf h

/-- A walk succeeds exactly if its roots are directories, and then it enters the files below them
and counts. -/
theorem walk_eq_ok_iff {g g' : IncludeGraph} {summary : Summary} :
    s.walk w g = (g', .ok summary) ↔ ∃ roots, rootsOf w s.options.roots = .ok roots ∧
      g' = g.replay (historyOf (s.found w roots)) ∧ summary = s.count w roots := by
  constructor
  · intro walked
    cases located : rootsOf w s.options.roots with
    | error e =>
        rw [walk_of_error located] at walked
        cases walked
    | ok roots =>
        cases (walk_of_ok located g).symm.trans walked
        exact ⟨roots, rfl, rfl, rfl⟩
  · rintro ⟨roots, located, rfl, rfl⟩
    exact walk_of_ok located g

/-- What a scanner finds and counts below known roots does not depend on its own. -/
theorem walk_withRoots (h : rootsOf w ps = .ok roots) (g : IncludeGraph) :
    (s.withRoots ps).walk w g =
      (g.replay (historyOf (s.found w roots)), .ok (s.count w roots)) :=
  walk_of_ok (s := s.withRoots ps) h g

end Scanner

/-! ## Graphs -/

theorem historyOf_append (found found' : List ScannedFile) :
    historyOf (found ++ found') = historyOf found ++ historyOf found' :=
  List.map_append

namespace IncludeGraph

variable {g : IncludeGraph}

theorem replay_append (g : IncludeGraph) (earlier later : List (Path × List Path)) :
    g.replay (earlier ++ later) = (g.replay earlier).replay later :=
  List.foldl_append

/-- A graph with more files in it: the nodes and edges that were there are there under their
numbers and unchanged, except that a node which was not scanned may be scanned now, and then
has the weight of the first of the files at its path. -/
structure Extends (found : List ScannedFile) (g g' : IncludeGraph) : Prop where
  nodes : ∀ i n, g.node? i = some n → g'.node? i = some n ∨
    n.scanned = false ∧ ∃ f, firstAt? found n.path = some f ∧
      g'.node? i = some { n with scanned := true, weight := f.weight }
  edges : g.edges <+: g'.edges

/-- Files that are entered leave a graph with more files in it. -/
theorem Coherent.extends_replay (h : g.Coherent) (found : List ScannedFile) :
    g.Extends found (g.replay (historyOf found)) where
  nodes := by
    intro i n hn
    rw [h.node?_replay hn, find?_historyOf]
    cases first : firstAt? found n.path with
    | none => exact .inl rfl
    | some f =>
        rcases n.scan_cases f.weight with same | ⟨unscanned, scanned⟩
        · exact .inl (congrArg some same)
        · exact .inr ⟨unscanned, f, rfl, congrArg some scanned⟩
  edges := edges_prefix_replay g _

end IncludeGraph

/-! ## Walks -/

/-- **Walks compose.**  In a graph of any history, a walk from two rows of roots does what a
walk from the first row does, followed by a walk from the second one on the graph that the first
one leaves: it leaves the same graph, to the last number, draw and entry of the registry, and it
counts what both count together.  So more roots at the end only extend the graph. -/
theorem Scanner.walk_append {options : GraphOptions} {g : IncludeGraph}
    (h : IncludeGraph.Reachable options g) (s : Scanner) (w : Workspace) {ps qs : List Path}
    (psNonempty : ps ≠ []) (qsNonempty : qs ≠ []) (psRoots : ∀ p ∈ ps, ∃ l, w.IsRoot p l)
    (qsRoots : ∀ q ∈ qs, ∃ l, w.IsRoot q l) :
    ∃ g₁ first g₂ second roots,
      (s.withRoots ps).walk w g = (g₁, .ok first) ∧
      (s.withRoots qs).walk w g₁ = (g₂, .ok second) ∧
      (s.withRoots (ps ++ qs)).walk w g = (g₂, .ok (first + second)) ∧
      List.Forall₂ w.IsRoot qs roots ∧ g₁.Extends (s.found w roots) g₂ := by
  obtain ⟨roots, located⟩ := exists_rootsOf psNonempty psRoots
  obtain ⟨roots', located'⟩ := exists_rootsOf qsNonempty qsRoots
  have coherent := h.coherent.replay (historyOf (s.found w roots))
  refine ⟨_, _, _, _, roots', walk_withRoots located g, walk_withRoots located' _, ?_,
    (rootsOf_eq_ok_iff.1 located').2, coherent.extends_replay (s.found w roots')⟩
  rw [walk_withRoots (rootsOf_append located located'), found_append, historyOf_append,
    IncludeGraph.replay_append, count_append]

/-- A walk from a directory and from another one in it, in two pieces. -/
theorem Sample.walk_append_outwards : ∃ g₁ first g₂ second roots,
    ((Scanner.mk outwards [pattern]).withRoots [Path.ofString "/r"]).walk workspace
      (IncludeGraph.empty GraphOptions.default) = (g₁, .ok first) ∧
    ((Scanner.mk outwards [pattern]).withRoots [Path.ofString "/r/s"]).walk workspace g₁ =
      (g₂, .ok second) ∧
    (Scanner.mk outwards [pattern]).walk workspace
      (IncludeGraph.empty GraphOptions.default) = (g₂, .ok (first + second)) ∧
    List.Forall₂ workspace.IsRoot [Path.ofString "/r/s"] roots ∧
    g₁.Extends ((Scanner.mk outwards [pattern]).found workspace roots) g₂ :=
  Scanner.walk_append .empty (Scanner.mk outwards [pattern]) workspace
    (List.cons_ne_nil _ _) (List.cons_ne_nil _ _)
    (List.forall_mem_singleton.2 ⟨_, isRoot_top⟩) (List.forall_mem_singleton.2 ⟨_, isRoot_inner⟩)

end IncludeAtlas
