import IncludeAtlas.Proofs.Scan.Include
import IncludeAtlas.Proofs.Scan.Order
import IncludeAtlas.Proofs.Text.Utf8
import Mathlib.Data.List.Forall2

/-!
# Weights and the order of a scan

A file is read once for every root and every pattern that reaches it, and in every reading
the root is one of the directories its tokens are looked for in.  Two readings can therefore
include different files, even a different number of them, and the weight of the node is that
of the reading which comes first.

## Main Definitions

* `Workspace.filesBelow`: the files that a scan reads below one root with one pattern
* `firstAt?`: the first reading of a path
* `Workspace.EvenlyRead`: all first readings of a path include equally many paths

## Main Results

* `ScanOptions.Yields.weights_iff`: weights do not depend on the order of a scan exactly if
  its files are evenly read
* `Sample.weight_outwards_ne_inwards`: a tree in which they do depend on it

## Design notes

Any root and any pattern can be put first, so the readings that may come first are the first
ones below one root with one pattern, for all roots and patterns.
-/

namespace IncludeAtlas

/-! ## First readings -/

/-- The first of some files that is read at a path. -/
def firstAt? (found : List ScannedFile) (p : Path) : Option ScannedFile :=
  found.find? fun f => f.path.Same p

/-- The weight that a file gives its node. -/
def ScannedFile.weight (f : ScannedFile) : Nat :=
  min f.includes.length IncludeGraph.weightBound

theorem firstAt?_eq_some {found : List ScannedFile} {p : Path} {f : ScannedFile}
    (h : firstAt? found p = some f) : f ∈ found ∧ f.path.Same p :=
  ⟨List.mem_of_find?_eq_some h, by simpa using List.find?_some h⟩

theorem exists_firstAt?_iff {found : List ScannedFile} {p : Path} :
    (∃ f, firstAt? found p = some f) ↔ ∃ f ∈ found, f.path.Same p := by
  rw [← Option.isSome_iff_exists, firstAt?, List.find?_isSome]
  simp only [decide_eq_true_eq]

theorem firstAt?_congr {found : List ScannedFile} {p q : Path} (same : p.Same q) :
    firstAt? found p = firstAt? found q := by
  rw [firstAt?, firstAt?]
  congr
  funext f
  exact decide_eq_decide.2 same.congr_right

namespace Workspace

variable {w : Workspace} {o o' : ScanOptions} {root root' : Location} {roots : List Location}
  {pattern pattern' : List Glob.Token} {patterns : List (List Glob.Token)} {p : Path}
  {f : ScannedFile}

/-- The files that a scan reads below one root, under names that match one pattern. -/
def filesBelow (w : Workspace) (o : ScanOptions) (root : Location)
    (pattern : List Glob.Token) : List ScannedFile :=
  w.filesOf o (w.candidates o.honorIgnoreFiles [root] [pattern])

theorem filesBelow_reordered (h : o.Reordered o') :
    w.filesBelow o = w.filesBelow o' := by
  funext root pattern
  rw [filesBelow, filesBelow, filesOf, filesOf, scanFile_reordered h, h.honorIgnoreFiles]

/-- What is read below a root with a single candidate. -/
theorem exists_filesBelow_eq {c : Candidate} {l : Location} {text : String}
    (here : w.candidates o.honorIgnoreFiles [root] [pattern] = [c]) (reads : w.Reads c l text) :
    ∃ f, w.filesBelow o root pattern = [f] ∧ f.path = l.toPath ∧
      f.includes = PathSet.ofList (((Directive.tokens text).map Path.ofString).map
        (w.resolve (searchDirectories o c))) := by
  obtain ⟨f, scanned, path, included⟩ : ∃ f, w.scanFile o c = .ok f ∧ f.path = l.toPath ∧
      f.includes = PathSet.ofList (((Directive.tokens text).map Path.ofString).map
        (w.resolve (searchDirectories o c))) :=
    ⟨_, scanFile_eq_ok_iff.2 ⟨l, text, reads, rfl⟩, rfl, rfl⟩
  refine ⟨f, ?_, path, included⟩
  rw [filesBelow, here, filesOf, List.filterMap_cons, scanned]
  rfl

/-- A scan reads the files below its roots with its patterns, one after the other. -/
theorem filesOf_candidates (w : Workspace) (o : ScanOptions) (roots : List Location)
    (patterns : List (List Glob.Token)) :
    w.filesOf o (w.candidates o.honorIgnoreFiles roots patterns) =
      roots.flatMap fun root => patterns.flatMap fun pattern => w.filesBelow o root pattern := by
  simp only [filesBelow, candidates, filesOf, List.filterMap_flatMap, List.flatMap_singleton]

/-- What is read first at a path is read first below one root with one pattern. -/
theorem exists_firstAt?_filesBelow
    (h : firstAt? (w.filesOf o (w.candidates o.honorIgnoreFiles roots patterns)) p = some f) :
    ∃ root ∈ roots, ∃ pattern ∈ patterns, firstAt? (w.filesBelow o root pattern) p = some f := by
  rw [filesOf_candidates, firstAt?, List.find?_flatMap] at h
  obtain ⟨root, hr, h⟩ := List.exists_of_findSome?_eq_some h
  rw [List.find?_flatMap] at h
  obtain ⟨pattern, hp, h⟩ := List.exists_of_findSome?_eq_some h
  exact ⟨root, hr, pattern, hp, h⟩

/-- What is read first below the first root with the first pattern is read first. -/
theorem firstAt?_cons (h : firstAt? (w.filesBelow o root pattern) p = some f) :
    firstAt? (w.filesOf o
      (w.candidates o.honorIgnoreFiles (root :: roots) (pattern :: patterns))) p = some f := by
  rw [filesOf_candidates, firstAt?, List.flatMap_cons, List.flatMap_cons, List.append_assoc,
    List.find?_append]
  rw [firstAt?] at h
  rw [h, Option.some_or]

/-- All readings of a path that may come first give it one weight. -/
def EvenlyRead (w : Workspace) (o : ScanOptions) (roots : List Location)
    (patterns : List (List Glob.Token)) : Prop :=
  ∀ root ∈ roots, ∀ root' ∈ roots, ∀ pattern ∈ patterns, ∀ pattern' ∈ patterns, ∀ p f f',
    firstAt? (w.filesBelow o root pattern) p = some f →
    firstAt? (w.filesBelow o root' pattern') p = some f' → f.weight = f'.weight

end Workspace

/-! ## Weights -/

/-- The first registration of a path is that of the first file that is read at it. -/
theorem find?_historyOf (found : List ScannedFile) (p : Path) :
    (historyOf found).find? (fun r => r.1.Same p) =
      (firstAt? found p).map fun f => (f.path, f.includes) :=
  List.find?_map

/-- A node of a scan has the weight of the first file that is read at its path, and one if
there is none. -/
theorem weight_replay_historyOf {options : GraphOptions} {found : List ScannedFile} {n : Node}
    (hn : n ∈ ((IncludeGraph.empty options).replay (historyOf found)).nodes) :
    n.weight = ((firstAt? found n.path).map ScannedFile.weight).getD 1 := by
  rw [IncludeGraph.weight_replay hn, find?_historyOf]
  cases firstAt? found n.path <;> rfl

/-- A node of a scan is scanned exactly if a file is read at its path. -/
theorem scanned_replay_historyOf_iff {options : GraphOptions} {found : List ScannedFile}
    {n : Node} (hn : n ∈ ((IncludeGraph.empty options).replay (historyOf found)).nodes) :
    n.scanned = true ↔ ∃ f, firstAt? found n.path = some f := by
  rw [IncludeGraph.scanned_replay_iff hn, exists_mem_historyOf_iff, exists_firstAt?_iff]

namespace ScanOptions

variable {o o' : ScanOptions} {w : Workspace} {options : GraphOptions} {g g' : IncludeGraph}
  {summary summary' : Summary} {roots : List Location} {patterns : List (List Glob.Token)}

/-- What some elements are related to can be put first, if they are put in another order. -/
theorem exists_perm_forall₂_cons {α β : Type} {R : α → β → Prop} {xs : List α} {ys : List β}
    {y : β} (h : List.Forall₂ R xs ys) (hy : y ∈ ys) :
    ∃ xs' ys', xs.Perm xs' ∧ List.Forall₂ R xs' (y :: ys') := by
  obtain ⟨before, after, rfl⟩ := List.append_of_mem hy
  have moved : Relation.Comp (List.Forall₂ R) List.Perm xs (y :: (before ++ after)) :=
    ⟨_, h, List.perm_middle⟩
  rw [List.forall₂_comp_perm_eq_perm_comp_forall₂] at moved
  obtain ⟨xs', perm, related⟩ := moved
  exact ⟨xs', _, perm, related⟩

/-- The graph of a scan whose roots and patterns are known. -/
theorem Yields.eq_replay (h : o.Yields w options g summary)
    (areRoots : List.Forall₂ w.IsRoot o.roots roots)
    (arePatterns : List.Forall₂ Glob.Denotes o.patterns patterns) :
    g = (IncludeGraph.empty options).replay
      (historyOf (w.filesOf o (w.candidates o.honorIgnoreFiles roots patterns))) := by
  obtain ⟨roots', patterns', -, areRoots', arePatterns', rfl, -⟩ := yields_iff.1 h
  obtain rfl := w.isRoot_unique.forall₂ areRoots areRoots'
  obtain rfl := Glob.denotes_unique.forall₂ arePatterns arePatterns'
  rfl

/-- Any root and any pattern of a scan can be put first. -/
theorem exists_reordered (areRoots : List.Forall₂ w.IsRoot o.roots roots)
    (arePatterns : List.Forall₂ Glob.Denotes o.patterns patterns) {root : Location}
    {pattern : List Glob.Token} (hr : root ∈ roots) (hp : pattern ∈ patterns) :
    ∃ o' roots' patterns', o.Reordered o' ∧
      List.Forall₂ w.IsRoot o'.roots (root :: roots') ∧
      List.Forall₂ Glob.Denotes o'.patterns (pattern :: patterns') := by
  obtain ⟨ps, roots', hps, areRoots'⟩ := exists_perm_forall₂_cons areRoots hr
  obtain ⟨texts, patterns', htexts, arePatterns'⟩ := exists_perm_forall₂_cons arePatterns hp
  exact ⟨{ o with roots := ps, patterns := texts }, roots', patterns',
    ⟨hps, htexts, rfl, rfl⟩, areRoots', arePatterns'⟩

/-- What is read first below the first root with the first pattern gives a node its
weight. -/
theorem Yields.exists_node_of_firstAt? {root : Location} {pattern : List Glob.Token} {p : Path}
    {f : ScannedFile} (h : o.Yields w options g summary)
    (areRoots : List.Forall₂ w.IsRoot o.roots (root :: roots))
    (arePatterns : List.Forall₂ Glob.Denotes o.patterns (pattern :: patterns))
    (first : firstAt? (w.filesBelow o root pattern) p = some f) :
    ∃ n ∈ g.nodes, n.path.Same p ∧ n.weight = f.weight := by
  have here : firstAt? (w.filesOf o (w.candidates o.honorIgnoreFiles (root :: roots)
      (pattern :: patterns))) p = some f :=
    Workspace.firstAt?_cons first
  obtain rfl := h.eq_replay areRoots arePatterns
  obtain ⟨r, mem, sameR⟩ := exists_mem_historyOf_iff.2 ⟨f, firstAt?_eq_some here⟩
  obtain ⟨n, hn, sameN⟩ := IncludeGraph.exists_node_replay_iff.2 ⟨r, mem, .inl sameR⟩
  refine ⟨n, hn, sameN, ?_⟩
  rw [weight_replay_historyOf hn, firstAt?_congr sameN, here]
  rfl

/-- Every first reading of a path gives the node its weight in some order of the scan. -/
theorem Yields.exists_weight (h : o.Yields w options g summary)
    (areRoots : List.Forall₂ w.IsRoot o.roots roots)
    (arePatterns : List.Forall₂ Glob.Denotes o.patterns patterns) {root : Location}
    {pattern : List Glob.Token} (hr : root ∈ roots) (hp : pattern ∈ patterns) {p : Path}
    {f : ScannedFile} (first : firstAt? (w.filesBelow o root pattern) p = some f) :
    ∃ o' g' summary', o.Reordered o' ∧ o'.Yields w options g' summary' ∧
      ∃ n ∈ g'.nodes, n.path.Same p ∧ n.weight = f.weight := by
  obtain ⟨o', roots', patterns', reordered, areRoots', arePatterns'⟩ :=
    exists_reordered areRoots arePatterns hr hp
  obtain ⟨g', summary', scan⟩ := reordered.yields h
  rw [Workspace.filesBelow_reordered reordered] at first
  exact ⟨o', g', summary', reordered, scan,
    scan.exists_node_of_firstAt? areRoots' arePatterns' first⟩

/-- A node of a scan is heavy as a first reading below one root with one pattern, if it is
scanned. -/
theorem Yields.exists_firstAt? (h : o.Yields w options g summary)
    (areRoots : List.Forall₂ w.IsRoot o.roots roots)
    (arePatterns : List.Forall₂ Glob.Denotes o.patterns patterns) {n : Node}
    (hn : n ∈ g.nodes) (scanned : n.scanned = true) :
    ∃ root ∈ roots, ∃ pattern ∈ patterns, ∃ f,
      firstAt? (w.filesBelow o root pattern) n.path = some f ∧ n.weight = f.weight := by
  obtain rfl := h.eq_replay areRoots arePatterns
  obtain ⟨f, first⟩ := (scanned_replay_historyOf_iff hn).1 scanned
  obtain ⟨root, hr, pattern, hp, here⟩ := Workspace.exists_firstAt?_filesBelow first
  refine ⟨root, hr, pattern, hp, f, here, ?_⟩
  rw [weight_replay_historyOf hn, first]
  rfl

/-- A node of a scan that is not scanned has weight one. -/
theorem Yields.weight_of_not_scanned (h : o.Yields w options g summary) {n : Node}
    (hn : n ∈ g.nodes) (unscanned : n.scanned = false) : n.weight = 1 := by
  obtain ⟨roots, patterns, -, -, -, rfl, -⟩ := yields_iff.1 h
  rw [weight_replay_historyOf hn]
  cases first : firstAt? (w.filesOf o (w.candidates o.honorIgnoreFiles roots patterns)) n.path with
  | none => rfl
  | some f =>
      have scanned := (scanned_replay_historyOf_iff hn).2 ⟨f, first⟩
      rw [unscanned] at scanned
      cases scanned

/-- **When the order of a scan is no matter of weights.**  A scan gives every path the same
weight in whatever order its roots and patterns are, exactly if its files are evenly read. -/
theorem Yields.weights_iff (h : o.Yields w options g summary)
    (areRoots : List.Forall₂ w.IsRoot o.roots roots)
    (arePatterns : List.Forall₂ Glob.Denotes o.patterns patterns) :
    (∀ o' g' summary', o.Reordered o' → o'.Yields w options g' summary' →
      ∀ n ∈ g.nodes, ∀ n' ∈ g'.nodes, n.path.Same n'.path → n.weight = n'.weight) ↔
    w.EvenlyRead o roots patterns := by
  constructor
  · -- each of the two readings comes first in some order, and both orders agree with this one
    intro agree root hr root' hr' pattern hp pattern' hp' p f f' first first'
    obtain ⟨o₁, g₁, summary₁, reordered₁, scan₁, n₁, hn₁, same₁, weight₁⟩ :=
      h.exists_weight areRoots arePatterns hr hp first
    obtain ⟨o₂, g₂, summary₂, reordered₂, scan₂, n₂, hn₂, same₂, weight₂⟩ :=
      h.exists_weight areRoots arePatterns hr' hp' first'
    have alike := (reordered₁.alike_of_yields h scan₁).1
    obtain ⟨n, hn, same⟩ := (alike.nodes p).2 ⟨n₁, hn₁, same₁⟩
    calc f.weight = n₁.weight := weight₁.symm
      _ = n.weight := (agree _ _ _ reordered₁ scan₁ n hn n₁ hn₁ (same.trans same₁.symm)).symm
      _ = n₂.weight := agree _ _ _ reordered₂ scan₂ n hn n₂ hn₂ (same.trans same₂.symm)
      _ = f'.weight := weight₂
  · intro even o' g' summary' reordered scan n hn n' hn' same
    have scanned := (reordered.alike_of_yields h scan).1.scanned n hn n' hn' same
    -- scanned in one order, scanned in every order
    cases known : n.scanned with
    | false =>
        rw [h.weight_of_not_scanned hn known, scan.weight_of_not_scanned hn' (scanned ▸ known)]
    | true =>
        obtain ⟨roots', patterns', -, areRoots', arePatterns', -, -⟩ := yields_iff.1 scan
        obtain ⟨root, hr, pattern, hp, f, first, weight⟩ :=
          h.exists_firstAt? areRoots arePatterns hn known
        obtain ⟨root', hr', pattern', hp', f', first', weight'⟩ :=
          scan.exists_firstAt? areRoots' arePatterns' hn' (scanned ▸ known)
        have rootsPerm := List.rel_perm_imp w.isRoot_unique areRoots areRoots' reordered.roots
        have patternsPerm :=
          List.rel_perm_imp Glob.denotes_unique arePatterns arePatterns' reordered.patterns
        rw [← Workspace.filesBelow_reordered reordered, ← firstAt?_congr same] at first'
        rw [weight, weight']
        exact even root hr root' (rootsPerm.mem_iff.2 hr') pattern hp pattern'
          (patternsPerm.mem_iff.2 hp') n.path f f' first first'

end ScanOptions

namespace Sample

/-- The location of the source. -/
def source : Location := inner ++ [Utf8.encode "x.c"]

/-! ### A source that is read alike below both directories -/

/-- A text that includes the header by the way to it alone. -/
def evenText : String := "#include \"../y.h\"\n"

/-- The directories and the header, and a source with this text. -/
def evenWorkspace : Workspace where
  tree := {
    entries := [(top, .directory), (inner, .directory), (source, .file (Utf8.encode evenText)),
      (top ++ [Utf8.encode "y.h"], .file [])]
    ascending := by decide
    named := by decide
    rooted := by decide }
  directory := []

/-- Below either directory the source includes the header and nothing else. -/
theorem weight_of_mem_filesBelow_even {root : Location} (hr : root ∈ [top, inner])
    {f : ScannedFile} (hf : f ∈ evenWorkspace.filesBelow outwards root pattern) :
    f.weight = 1 := by
  have here : evenWorkspace.candidates outwards.honorIgnoreFiles [root] [pattern] =
      [⟨source, root⟩] := by
    rcases List.mem_pair.1 hr with rfl | rfl <;> cbv
  have reads : evenWorkspace.Reads ⟨source, root⟩ source evenText :=
    ⟨by cbv, _, rfl, Utf8.decode?_encode evenText⟩
  obtain ⟨f', only, -, included⟩ := Workspace.exists_filesBelow_eq here reads
  rw [only, List.mem_singleton] at hf
  rw [hf, ScannedFile.weight, included]
  rcases List.mem_pair.1 hr with rfl | rfl <;> cbv

/-- A source that is found below two directories, one in the other, and read evenly.  Whichever
of them comes first, its weight is the same. -/
theorem weights_even : outwards.Reordered inwards ∧
    evenWorkspace.candidates false [top, inner] [pattern] = [⟨source, top⟩, ⟨source, inner⟩] ∧
    ∃ g summary, outwards.Yields evenWorkspace GraphOptions.default g summary ∧
      ∀ o' g' summary', outwards.Reordered o' →
        o'.Yields evenWorkspace GraphOptions.default g' summary' →
        ∀ n ∈ g.nodes, ∀ n' ∈ g'.nodes, n.path.Same n'.path → n.weight = n'.weight := by
  have areRoots : List.Forall₂ evenWorkspace.IsRoot outwards.roots [top, inner] :=
    .cons ⟨by cbv, by cbv⟩ (.cons ⟨by cbv, by cbv⟩ .nil)
  obtain ⟨g, summary, scan⟩ := ScanOptions.exists_yields GraphOptions.default
    (List.cons_ne_nil _ _) areRoots arePatterns
  refine ⟨reordered, by cbv, g, summary, scan,
    (ScanOptions.Yields.weights_iff scan areRoots arePatterns).2 ?_⟩
  intro root hr root' hr' pattern hp pattern' hp' p f f' first first'
  obtain rfl := List.mem_singleton.1 hp
  obtain rfl := List.mem_singleton.1 hp'
  rw [weight_of_mem_filesBelow_even hr (firstAt?_eq_some first).1,
    weight_of_mem_filesBelow_even hr' (firstAt?_eq_some first').1]

/-! ### A source that is not -/

/-- The text of the source. -/
def text : String := "#include \"y.h\"\n#include \"../y.h\"\n"

theorem reads_source (root : Location) : workspace.Reads ⟨source, root⟩ source text :=
  ⟨by cbv, _, rfl, Utf8.decode?_encode text⟩

theorem tokens_text : Directive.tokens text = ["../y.h", "y.h"] := by
  cbv

/-- The source, read below a root. -/
theorem firstAt?_source (root : Location)
    (here : workspace.candidates false [root] [pattern] = [⟨source, root⟩]) :
    ∃ f, firstAt? (workspace.filesBelow outwards root pattern) source.toPath = some f ∧
      f.includes = PathSet.ofList ((["../y.h", "y.h"].map Path.ofString).map
        (workspace.resolve (Workspace.searchDirectories outwards ⟨source, root⟩))) := by
  obtain ⟨f, only, path, included⟩ :=
    Workspace.exists_filesBelow_eq (o := outwards) here (reads_source root)
  rw [tokens_text] at included
  refine ⟨f, ?_, included⟩
  rw [only, firstAt?]
  exact List.find?_cons_of_pos (decide_eq_true (path ▸ Path.Same.refl f.path))

/-- **Weights do depend on the order of a scan.**  The source includes its header by name and
by the way to it.  Found below the outer directory, both lead to the header; below the inner
one the name leads nowhere and is an include of its own. -/
theorem weight_outwards_ne_inwards : outwards.Reordered inwards ∧
    ∃ g summary g' summary', outwards.Yields workspace GraphOptions.default g summary ∧
      inwards.Yields workspace GraphOptions.default g' summary' ∧
      ∃ n ∈ g.nodes, ∃ n' ∈ g'.nodes, n.path.Same n'.path ∧ n.weight = 1 ∧ n'.weight = 2 := by
  obtain ⟨g, summary, scan⟩ := yields_outwards GraphOptions.default
  obtain ⟨g', summary', scan'⟩ := yields_inwards GraphOptions.default
  obtain ⟨f, first, included⟩ := firstAt?_source top (by cbv)
  obtain ⟨f', first', included'⟩ := firstAt?_source inner (by cbv)
  have one : f.includes.length = 1 := by
    rw [included]
    cbv
  have two : f'.includes.length = 2 := by
    rw [included']
    cbv
  obtain ⟨n, hn, same, weight⟩ :=
    scan.exists_node_of_firstAt? areRoots_outwards arePatterns first
  rw [Workspace.filesBelow_reordered reordered] at first'
  obtain ⟨n', hn', same', weight'⟩ :=
    scan'.exists_node_of_firstAt? areRoots_inwards arePatterns first'
  refine ⟨reordered, g, summary, g', summary', scan, scan', n, hn, n', hn',
    same.trans same'.symm, ?_, ?_⟩
  · rw [weight, ScannedFile.weight, one]
    rfl
  · rw [weight', ScannedFile.weight, two]
    rfl

end Sample

end IncludeAtlas
