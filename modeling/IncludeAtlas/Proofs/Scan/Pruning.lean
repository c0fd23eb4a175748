import IncludeAtlas.Proofs.Ignore.Filter
import IncludeAtlas.Proofs.Scan.Composition

/-!
# Ignore files only take away

A walk that honors ignore files passes some entries over, each with everything below it.  What it
does come by it treats as it would otherwise.  In particular a file that is left finds what it
includes where it would, though that may be ignored itself.  So a walk without ignore files does
all that the walk with them does, in the same order, and perhaps more in between.

## Main Definitions

* `Summary` has an order, count by count
* `Scanner.honoring`: a scanner that honors ignore files or does not
* `Scanner.Thins`: a walk does a part of what another one does

## Main Results

* `Workspace.candidates_sublist`: the candidates with ignore files are some of those without them
* `Scanner.walk_honoring`: ignore files only take away, in a graph of any history

## What is load-bearing

Everything after the entries is a row with a piece for each element of the row before
(`List.Sublist.flatMap`, `List.Sublist.filterMap`), so rows that start out as parts of others
remain that.
-/

namespace IncludeAtlas

namespace Workspace

variable {w : Workspace} {o o' : ScanOptions} {cs cs' : List Candidate}

/-! ## Candidates -/

/-- The entries that are considered with ignore files are those that are left of the others: what is
ignored goes, with everything below it. -/
theorem prunes_considered (w : Workspace) (root : Location) :
    Prunes w.Ignores (w.considered false root) (w.considered true root) :=
  w.prunes_filtered root

/-- What is seen below a root with ignore files is seen without them. -/
theorem sightings_sublist (w : Workspace) (patterns : List (List Glob.Token)) (root : Location) :
    (w.sightings true patterns root).Sublist (w.sightings false patterns root) :=
  .flatMap_right _ fun _ _ => (((w.prunes_considered root).sublist.map _).filter _).map _

/-- The candidates with ignore files are candidates without them. -/
theorem candidates_sublist (w : Workspace) (roots : List Location)
    (patterns : List (List Glob.Token)) :
    (w.candidates true roots patterns).Sublist (w.candidates false roots patterns) :=
  .flatMap_right _ fun root _ => .flatMap_right _ fun _ _ =>
    (((w.prunes_considered root).sublist.map _).filter _).map _

/-- Fewer candidates are read as fewer files. -/
theorem filesOf_sublist (same : o.directories = o'.directories) (sub : cs.Sublist cs') :
    (w.filesOf o cs).Sublist (w.filesOf o' cs') := by
  rw [filesOf, filesOf, scanFile_congr same]
  exact sub.filterMap _

/-- The candidates that are not read as files are those whose reading fails. -/
theorem length_sub_length_filesOf (w : Workspace) (o : ScanOptions) (cs : List Candidate) :
    cs.length - (w.filesOf o cs).length = cs.countP fun c => ¬ (w.scanFile o c).toOption.isSome := by
  have all := List.length_eq_countP_add_countP (l := cs) fun c => (w.scanFile o c).toOption.isSome
  rw [filesOf, List.length_filterMap_eq_countP]
  omega

/-- Fewer candidates fail. -/
theorem failed_le (same : o.directories = o'.directories) (sub : cs.Sublist cs') :
    cs.length - (w.filesOf o cs).length ≤ cs'.length - (w.filesOf o' cs').length := by
  rw [length_sub_length_filesOf, length_sub_length_filesOf, scanFile_congr same]
  exact sub.countP_le

end Workspace

/-! ## Counts -/

/-- Counts are compared one by one. -/
instance : LE Summary :=
  ⟨fun a b => a.scanned ≤ b.scanned ∧ a.failed ≤ b.failed ∧
    a.directoriesSkipped ≤ b.directoriesSkipped ∧ a.includes ≤ b.includes ∧
    a.unresolved ≤ b.unresolved⟩

namespace Scanner

/-- A scanner that honors ignore files, or does not. -/
def honoring (s : Scanner) (honorIgnoreFiles : Bool) : Scanner :=
  { s with options := { s.options with honorIgnoreFiles } }

/-- With ignore files, fewer files are found. -/
theorem found_sublist (s : Scanner) (w : Workspace) (roots : List Location) :
    ((s.honoring true).found w roots).Sublist ((s.honoring false).found w roots) :=
  Workspace.filesOf_sublist rfl (w.candidates_sublist roots s.patterns)

/-- With ignore files, nothing is counted more often. -/
theorem count_le (s : Scanner) (w : Workspace) (roots : List Location) :
    (s.honoring true).count w roots ≤ (s.honoring false).count w roots := by
  have seen : ((s.honoring true).sightings w roots).Sublist ((s.honoring false).sightings w roots) :=
    .flatMap_right _ fun root _ => w.sightings_sublist s.patterns root
  have found := s.found_sublist w roots
  rw [count_eq, count_eq]
  exact ⟨found.length_le, Workspace.failed_le rfl (w.candidates_sublist roots s.patterns),
    (seen.filter _).length_le, (found.flatMap _).length_le, (found.flatMap _).length_le⟩

/-- A walk with ignore files, which leaves a graph and a summary, does a part of what the walk
without them does, which leaves others. -/
structure Thins (s : Scanner) (w : Workspace) (roots : List Location) (g g' : IncludeGraph)
    (summary summary' : Summary) : Prop where
  /-- Below each root, the entries that are looked at are those that neither are ignored nor stand
  below one that is. -/
  entries : ∀ root ∈ roots, Prunes w.Ignores (w.considered false root) (w.considered true root)
  /-- For each root and each pattern, the candidates are candidates of the other walk, in their
  order. -/
  candidates : ∀ root ∈ roots, ∀ pattern ∈ s.patterns,
    (w.candidates true [root] [pattern]).Sublist (w.candidates false [root] [pattern])
  /-- A candidate is read in the same way, and includes the same. -/
  readings : ∀ c, w.scanFile (s.honoring true).options c = w.scanFile (s.honoring false).options c
  /-- Nothing is counted more often. -/
  counts : summary ≤ summary'
  /-- What has a node has one in the other graph. -/
  nodes : ∀ n ∈ g.nodes, ∃ n' ∈ g'.nodes, n'.path.Same n.path
  /-- What is scanned is scanned in the other graph. -/
  scanned : ∀ n ∈ g.nodes, n.scanned = true →
    ∃ n' ∈ g'.nodes, n'.scanned = true ∧ n'.path.Same n.path
  /-- The edges, as the paths they join, are edges of the other graph, as often and in their
  order. -/
  edges : g.edgePaths.Sublist g'.edgePaths

end Scanner

/-! ## Graphs -/

namespace IncludeGraph

variable {g : IncludeGraph} {history history' : List (Path × List Path)}

/-- What a part of a history gives a node has one after all of it. -/
theorem Coherent.exists_node_of_sublist (h : g.Coherent) (sub : history.Sublist history') {n : Node}
    (hn : n ∈ (g.replay history).nodes) : ∃ n' ∈ (g.replay history').nodes, n'.path.Same n.path := by
  refine h.exists_node_replay_iff.2 ?_
  obtain before | ⟨r, hr, mentioned⟩ := h.exists_node_replay_iff.1 ⟨n, hn, Path.Same.refl _⟩
  · exact .inl before
  · exact .inr ⟨r, sub.subset hr, mentioned⟩

/-- What a part of a history scans is scanned after all of it. -/
theorem Coherent.exists_scanned_of_sublist (h : g.Coherent) (sub : history.Sublist history')
    {n : Node} (hn : n ∈ (g.replay history).nodes) (scanned : n.scanned = true) :
    ∃ n' ∈ (g.replay history').nodes, n'.scanned = true ∧ n'.path.Same n.path := by
  refine h.exists_scanned_replay_iff.2 ?_
  obtain before | ⟨r, hr, same⟩ := h.exists_scanned_replay_iff.1 ⟨n, hn, scanned, Path.Same.refl _⟩
  · exact .inl before
  · exact .inr ⟨r, sub.subset hr, same⟩

/-- The edges of a part of a history are edges of all of it. -/
theorem Coherent.edgePaths_sublist (h : g.Coherent) (sub : history.Sublist history') :
    (g.replay history).edgePaths.Sublist (g.replay history').edgePaths := by
  rw [h.edgePaths_replay, h.edgePaths_replay]
  exact (sub.flatMap _).append_left _

end IncludeGraph

/-! ## Walks -/

/-- **Ignore files only take away.**  In a graph of any history, if a walk that honors ignore files
succeeds, so does the same walk without them, and the first does a part of what the second does. -/
theorem Scanner.walk_honoring {options : GraphOptions} {g g₁ : IncludeGraph} {s : Scanner}
    {w : Workspace} {summary : Summary} (h : IncludeGraph.Reachable options g)
    (walked : (s.honoring true).walk w g = (g₁, .ok summary)) :
    ∃ roots g₂ summary', List.Forall₂ w.IsRoot s.options.roots roots ∧
      (s.honoring false).walk w g = (g₂, .ok summary') ∧
      s.Thins w roots g₁ g₂ summary summary' := by
  obtain ⟨roots, located, rfl, rfl⟩ := walk_eq_ok_iff.1 walked
  have files : (historyOf ((s.honoring true).found w roots)).Sublist
      (historyOf ((s.honoring false).found w roots)) := (s.found_sublist w roots).map _
  refine ⟨roots, _, _, (rootsOf_eq_ok_iff.1 located).2,
    walk_of_ok (s := s.honoring false) located g, ?_⟩
  exact {
    entries := fun root _ => w.prunes_considered root
    candidates := fun root _ pattern _ => w.candidates_sublist [root] [pattern]
    readings := fun c => congrFun (Workspace.scanFile_congr rfl) c
    counts := s.count_le w roots
    nodes := fun n hn => h.coherent.exists_node_of_sublist files hn
    scanned := fun n hn => h.coherent.exists_scanned_of_sublist files hn
    edges := h.coherent.edgePaths_sublist files }

namespace Sample

/-- The location of a directory that is ignored, for all that its name matches the pattern. -/
def shade : Location := top ++ [Utf8.encode "s.c"]

/-- The text of a source that includes an ignored file and a missing one. -/
def sunlitText : String := "#include \"s.c/b.c\"\n#include \"z.h\"\n"

/-- The text of the ignored file. -/
def shadedText : String := "#include \"q.h\"\n"

/-- A directory with a source, and an ignored one with a source and a file that holds no text. -/
def garden : Workspace where
  tree := {
    entries := [(top, .directory), (top ++ [Utf8.encode ".ignore"], .file (Utf8.encode "s.c/\n")),
      (top ++ [Utf8.encode "a.c"], .file (Utf8.encode sunlitText)), (shade, .directory),
      (shade ++ [Utf8.encode "b.c"], .file (Utf8.encode shadedText)),
      (shade ++ [Utf8.encode "c.c"], .file [0xFF])]
    ascending := by decide
    named := by decide
    rooted := by decide }
  directory := []

/-- A scanner of the directory. -/
def gardener : Scanner :=
  ⟨⟨[Path.ofString "/r"], ["*.c"], [], true⟩, [pattern]⟩

/-- The candidates of the directory: its source, the ignored one and the file without a text. -/
def sunlit : Candidate := ⟨top ++ [Utf8.encode "a.c"], top⟩

def shaded : Candidate := ⟨shade ++ [Utf8.encode "b.c"], top⟩

def rotten : Candidate := ⟨shade ++ [Utf8.encode "c.c"], top⟩

/-- The source includes the ignored file, whether ignore files are honored or not. -/
theorem scanFile_sunlit (honorIgnoreFiles : Bool) :
    garden.scanFile (gardener.honoring honorIgnoreFiles).options sunlit = .ok
      ⟨sunlit.location.toPath, [shaded.location.toPath, Path.ofString "z.h"],
        [Path.ofString "z.h"]⟩ := by
  have tokens : Directive.tokens sunlitText = ["s.c/b.c", "z.h"] := by cbv
  refine Workspace.scanFile_eq_ok_iff.2
    ⟨sunlit.location, sunlitText, ⟨by cbv, _, rfl, Utf8.decode?_encode sunlitText⟩, ?_⟩
  rw [tokens]
  cbv

theorem scanFile_shaded : garden.scanFile (gardener.honoring false).options shaded = .ok
    ⟨shaded.location.toPath, [Path.ofString "q.h"], [Path.ofString "q.h"]⟩ := by
  have tokens : Directive.tokens shadedText = ["q.h"] := by cbv
  refine Workspace.scanFile_eq_ok_iff.2
    ⟨shaded.location, shadedText, ⟨by cbv, _, rfl, Utf8.decode?_encode shadedText⟩, ?_⟩
  rw [tokens]
  cbv

theorem scanFile_rotten : garden.scanFile (gardener.honoring false).options rotten =
    .error (.notText rotten.location.toPath) := by
  cbv

/-- The rule of the ignore file: directories with this name are ignored, wherever they are. -/
def shadeRule : Rule :=
  ⟨[.leading, .literal 's', .literal '.', .literal 'c'], false, true⟩

theorem readAll_shadeRule : Rule.readAll (Utf8.encode "s.c/\n") = [shadeRule] := by
  have lines : Lines.lines 0x0A 0x0D (Utf8.encode "s.c/\n") = [Utf8.encode "s.c/"] := by decide
  have texts : Rule.texts [Utf8.encode "s.c/"] = ["s.c/"] := by
    rw [Rule.texts, Utf8.decode?_encode]
    rfl
  have unmarked : "s.c/".toList.dropWhile (· == Rule.byteOrderMark) = "s.c/".toList := by decide
  have parsed : Rule.parse? "s.c/".toList = some shadeRule := by cbv
  unfold Rule.readAll
  simp only [lines, texts, unmarked, List.map_nil, List.filterMap_cons, parsed, List.filterMap_nil]

/-- The directory brings the rule, and there is no repository. -/
theorem level_garden : garden.level top = ⟨top, [shadeRule], [], [], false⟩ := by
  have read : garden.read (top.toPath.join (Path.ofString ".ignore")) =
      .ok (Utf8.encode "s.c/\n") := by cbv
  have rules : garden.rules (top.toPath.join (Path.ofString ".ignore")) = [shadeRule] := by
    rw [Workspace.rules, read]
    exact readAll_shadeRule
  have others : garden.rules (top.toPath.join (Path.ofString ".gitignore")) = [] := by cbv
  have exclude : garden.rules ((top.toPath.join (Path.ofString ".git")).join
      (Path.ofString "info/exclude")) = [] := by cbv
  have noGit : garden.entry? (top.toPath.join (Path.ofString ".git")) = none := by cbv
  have noJj : garden.entry? (top.toPath.join (Path.ofString ".jj")) = none := by cbv
  unfold Workspace.level
  simp only [rules, others, exclude, noGit, noJj]
  rfl

/-- The ignored directory is passed over with all that is in it, and so is the hidden file. -/
theorem filtered_garden :
    garden.filtered top = [(sunlit.location, .file (Utf8.encode sunlitText))] := by
  have above : garden.level [] = ⟨[], [], [], [], false⟩ := by cbv
  have levels : garden.levelsFrom top =
      [⟨top, [shadeRule], [], [], false⟩, ⟨[], [], [], [], false⟩] := by
    rw [← level_garden, ← above]
    rfl
  unfold Workspace.filtered
  rw [levels]
  cbv

/-- With ignore files, the source is all that is found. -/
theorem count_honoring : (gardener.honoring true).count garden [top] = ⟨1, 0, 0, 2, 1⟩ := by
  have sightings : (gardener.honoring true).sightings garden [top] = [.candidate sunlit] := by
    show [top].flatMap (garden.sightings true [pattern]) = _
    rw [List.flatMap_singleton, Workspace.sightings,
      show garden.considered true top = _ from filtered_garden]
    cbv
  have candidates : (gardener.honoring true).candidates garden [top] = [sunlit] := by
    rw [Scanner.candidates_eq_filterMap, sightings]
    rfl
  rw [Scanner.count, sightings, candidates, List.map_singleton, scanFile_sunlit]
  rfl

/-- Without them, there are the ignored directory and the files in it, too. -/
theorem count_disregarding : (gardener.honoring false).count garden [top] = ⟨2, 1, 1, 3, 2⟩ := by
  have sightings : (gardener.honoring false).sightings garden [top] =
      [.candidate sunlit, .directory, .candidate shaded, .candidate rotten] := by cbv
  have candidates : (gardener.honoring false).candidates garden [top] =
      [sunlit, shaded, rotten] := by
    rw [Scanner.candidates_eq_filterMap, sightings]
    rfl
  rw [Scanner.count, sightings, candidates, List.map_cons, List.map_cons, List.map_singleton,
    scanFile_sunlit, scanFile_shaded, scanFile_rotten]
  rfl

/-- Every count of the directory is smaller with ignore files than without them. -/
theorem walk_honoring_garden : ∃ roots g₁ g₂,
    (gardener.honoring true).walk garden (IncludeGraph.empty GraphOptions.default) =
      (g₁, .ok ⟨1, 0, 0, 2, 1⟩) ∧
    List.Forall₂ garden.IsRoot gardener.options.roots roots ∧
    (gardener.honoring false).walk garden (IncludeGraph.empty GraphOptions.default) =
      (g₂, .ok ⟨2, 1, 1, 3, 2⟩) ∧
    gardener.Thins garden roots g₁ g₂ ⟨1, 0, 0, 2, 1⟩ ⟨2, 1, 1, 3, 2⟩ := by
  let start := IncludeGraph.empty GraphOptions.default
  have located : Scanner.rootsOf garden gardener.options.roots = .ok [top] := by cbv
  have walked := Scanner.walk_of_ok (s := gardener.honoring true) located start
  have walked' := Scanner.walk_of_ok (s := gardener.honoring false) located start
  rw [count_honoring] at walked
  rw [count_disregarding] at walked'
  obtain ⟨roots, g₂, summary', areRoots, disregarding, thins⟩ :=
    Scanner.walk_honoring .empty walked
  -- the walk without ignore files has one outcome, and its counts are known
  obtain ⟨rfl, counted⟩ := Prod.mk.inj (walked'.symm.trans disregarding)
  obtain rfl := Except.ok.inj counted
  exact ⟨roots, _, _, walked, areRoots, walked', thins⟩

end Sample

end IncludeAtlas
