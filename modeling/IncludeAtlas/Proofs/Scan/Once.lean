import IncludeAtlas.Proofs.FileTree.Follow
import IncludeAtlas.Proofs.FileTree.Tour
import IncludeAtlas.Proofs.Path.Set
import IncludeAtlas.Proofs.Scan.DefaultPatterns
import IncludeAtlas.Proofs.Scan.Composition
import Mathlib.Data.Set.Card

/-!
# Scans that meet every file once

A scan that looks at a file twice enters its includes twice.  Roots inside of roots, links and
patterns that share names all lead to that.  Without any of them, and the default patterns share
no names, a scan is exact: its edges are pairwise different, and it counts every source below its
roots once.

## Main Definitions

* `FileTree.Linkless`: a tree without links
* `Location.Apart`: neither of two directories contains the other
* `Workspace.sourcesBelow`: the files below some directories that have the name of a source
* `Scanner.MeetsOnce`: a walk meets every file once

## Main Results

* `IncludeGraph.nodup_ends_replay_empty`: registrations of different files, each with different
  includes, leave no two edges between the same nodes
* `IncludeGraph.length_scanned_replay_empty`: they leave a scanned node for each of the files
* `Workspace.nodup_candidates`: when candidates stand at different locations
* `Scanner.exists_meetsOnce`: a scan with the default patterns meets every file once, in a tree
  whose directories can all be opened

## What is load-bearing

Directories that are apart have nothing in common below them, since the prefixes of one location
form a chain.  And no two locations of a tree spell one path, so what is apart as a location is
apart as a node.
-/

namespace IncludeAtlas

/-! ## Trees without links -/

/-- No entry of a tree is a link. -/
def FileTree.Linkless (t : FileTree) : Prop :=
  ∀ e ∈ t.entries, ∀ target, e.2 ≠ .link target

namespace FileTree

variable {t : FileTree} {l : Location} {e : Entry}

/-- Without links, an entry is a directory or a file. -/
theorem Linkless.settled (h : t.Linkless) (mem : (l, e) ∈ t.entries) : t.Settled l := by
  have there : t.lookup? l = some e := (lookup?_eq_some_iff (t.named _ mem).1).2 mem
  cases e with
  | directory => exact .inl there
  | file content => exact .inr ⟨content, there⟩
  | link target => exact absurd rfl (h _ mem target)

/-- Where nothing leads further, a location leads to itself. -/
theorem Settled.resolve_eq (h : t.Settled l) (links : Nat) : t.resolve links [] l = .ok l := by
  have start : t.Settled ([] ++ l) := h
  exact resolve_names l start

end FileTree

/-- Neither of two locations is the other one or below it. -/
def Location.Apart (l l' : Location) : Prop :=
  ¬ l <+: l' ∧ ¬ l' <+: l

/-- Nothing is below two locations that are apart. -/
theorem Location.Apart.not_prefix {root root' l : Location} (h : root.Apart root')
    (under : root <+: l) : ¬ root' <+: l := by
  intro under'
  rcases List.prefix_or_prefix_of_prefix under under' with above | above
  · exact h.1 above
  · exact h.2 above

/-! ## Graphs without repeated edges -/

/-- What an edge joins says which is the file and which is the include. -/
theorem Relation.orient_inj {α : Type} {r : Relation} {a b a' b' : α}
    (h : r.orient a b = r.orient a' b') : a = a' ∧ b = b' := by
  have turned : (a, b) = (a', b') := by
    rw [← r.orient_orient a b, h, r.orient_orient]
  exact Prod.mk.inj turned

/-- **Registrations of different files, each with different includes, leave no two edges between
the same nodes.** -/
theorem IncludeGraph.nodup_ends_replay_empty {options : GraphOptions}
    {history : List (Path × List Path)} (files : history.Pairwise fun r r' => ¬ r.1.Same r'.1)
    (includes : ∀ r ∈ history, r.2.Pairwise fun p q => ¬ p.Same q) :
    (((empty options).replay history).edges.map fun e => (e.source, e.target)).Nodup := by
  -- the ends as paths are known, and they are read off the ends as numbers
  have paths : ((empty options).replay history).edgePaths.Nodup := by
    rw [edgePaths_replay_empty, List.nodup_flatMap]
    constructor
    · intro r hr
      rw [List.Nodup, List.pairwise_map]
      exact (includes r hr).imp fun other eq => other (Option.some.inj (Relation.orient_inj eq).2)
    · refine files.imp fun other => ?_
      intro ends mem mem'
      obtain ⟨p, -, rfl⟩ := List.mem_map.1 mem
      obtain ⟨q, -, eq⟩ := List.mem_map.1 mem'
      exact other (Option.some.inj (Relation.orient_inj eq).1).symm
  rw [edgePaths] at paths
  refine List.Nodup.of_map (fun ends => (((empty options).replay history).pathAt? ends.1,
    ((empty options).replay history).pathAt? ends.2)) ?_
  rw [List.map_map]
  exact paths

/-- Registrations of different files leave a scanned node for each of them. -/
theorem IncludeGraph.length_scanned_replay_empty {options : GraphOptions}
    {history : List (Path × List Path)} (files : history.Pairwise fun r r' => ¬ r.1.Same r'.1) :
    (((empty options).replay history).nodes.filter Node.scanned).length = history.length := by
  have coherent := (coherent_empty options).replay history
  -- both sides are counted as paths, of which neither has two that are the same
  let nodes := (((empty options).replay history).nodes.filter Node.scanned).map
    fun n => n.path.components
  let registered := history.map fun r => r.1.components
  have nodup : nodes.Nodup := List.pairwise_map.2 (coherent.pairwise_not_same.filter _)
  have nodup' : registered.Nodup := List.pairwise_map.2 files
  have same : nodes.Perm registered := by
    rw [List.perm_ext_iff_of_nodup nodup nodup']
    intro cs
    simp only [nodes, registered, List.mem_map, List.mem_filter]
    constructor
    · rintro ⟨n, ⟨hn, scanned⟩, rfl⟩
      exact (scanned_replay_iff hn).1 scanned
    · rintro ⟨r, hr, rfl⟩
      obtain ⟨n, hn, eq⟩ := exists_node_replay_iff.2 ⟨r, hr, .inl (Path.Same.refl r.1)⟩
      exact ⟨n, ⟨hn, (scanned_replay_iff hn).2 ⟨r, hr, eq.symm⟩⟩, eq⟩
  simpa [nodes, registered] using same.length_eq

namespace Workspace

variable {w : Workspace} {o : ScanOptions} {root l : Location} {roots : List Location}
  {pattern : List Glob.Token} {patterns : List (List Glob.Token)} {cs : List Candidate}

/-! ## Candidates -/

/-- Roots are directories. -/
theorem lookup?_of_areRoots {ps : List Path} (h : List.Forall₂ w.IsRoot ps roots) :
    ∀ root ∈ roots, w.tree.lookup? root = some .directory := by
  induction h with
  | nil => exact List.forall_mem_nil _
  | cons isRoot _ ih =>
      exact List.forall_mem_cons.2 ⟨FileTree.lookup?_of_shallow isRoot.2, ih⟩

/-- A file is no directory, under whatever path it stands. -/
theorem leadsToDirectory_of_file {content : Bytes}
    (file : w.tree.lookup? l = some (.file content)) : w.leadsToDirectory l = false := by
  have settled : w.tree.Settled l := .inr ⟨content, file⟩
  simp [leadsToDirectory, settled.resolve_eq, file]

/-- The locations below a directory that hold something else than a directory and have a matching
name. -/
def matchesBelow (w : Workspace) (honorIgnoreFiles : Bool) (root : Location)
    (pattern : List Glob.Token) : List Location :=
  ((w.considered honorIgnoreFiles root).map Prod.fst).filter fun l =>
    nameMatches pattern l && !w.leadsToDirectory l

/-- Candidates stand at these locations, root by root and pattern by pattern. -/
theorem map_location_candidates (w : Workspace) (honorIgnoreFiles : Bool)
    (roots : List Location) (patterns : List (List Glob.Token)) :
    (w.candidates honorIgnoreFiles roots patterns).map Candidate.location =
      roots.flatMap fun root => patterns.flatMap (w.matchesBelow honorIgnoreFiles root) := by
  simp only [candidates, List.map_flatMap, List.map_map, Function.comp_def, List.map_id']
  rfl

theorem considered_eq (openable : w.tree.Openable) (root : Location) :
    w.considered false root = w.tree.below root :=
  Eq.trans (if_neg Bool.false_ne_true) (openable.below_listed root)

/-- Without links, what is found below a directory are the files with a matching name. -/
theorem mem_matchesBelow_iff (linkless : w.tree.Linkless) (openable : w.tree.Openable) :
    l ∈ w.matchesBelow false root pattern ↔ root <+: l ∧ l ≠ root ∧
      (∃ content, w.tree.lookup? l = some (.file content)) ∧ nameMatches pattern l = true := by
  rw [matchesBelow, considered_eq openable, List.mem_filter, FileTree.mem_below_iff,
    Bool.and_eq_true, Bool.not_eq_true']
  constructor
  · rintro ⟨⟨under, ne, e, mem⟩, named, entry⟩
    have settled := linkless.settled mem
    by_cases short : l.Short
    · rw [leadsToDirectory, if_pos short, settled.resolve_eq] at entry
      rcases settled with directory | file
      · simp [directory] at entry
      · exact ⟨under, ne, file, named⟩
    · exact ⟨under, ne, openable.exists_file mem short, named⟩
  · rintro ⟨under, ne, ⟨content, file⟩, named⟩
    have settled : w.tree.Settled l := .inr ⟨content, file⟩
    -- only the root of the tree has no entry, and it is no file
    have below : l ≠ [] := by
      rintro rfl
      cases w.tree.lookup?_root.symm.trans file
    exact ⟨⟨under, ne, settled.exists_mem below⟩, named, leadsToDirectory_of_file file⟩

theorem nodup_matchesBelow (w : Workspace) (root : Location) (pattern : List Glob.Token) :
    (w.matchesBelow false root pattern).Nodup :=
  (w.tree.listed.nodup_below root).filter _

/-- **Candidates stand at different locations** if the directories are apart and no name matches
two patterns. -/
theorem nodup_candidates (linkless : w.tree.Linkless) (openable : w.tree.Openable)
    (apart : roots.Pairwise Location.Apart) (exclusive : patterns.Pairwise Glob.Exclusive) :
    ((w.candidates false roots patterns).map Candidate.location).Nodup := by
  rw [map_location_candidates, List.nodup_flatMap]
  constructor
  · intro root _
    rw [List.nodup_flatMap]
    refine ⟨fun pattern _ => w.nodup_matchesBelow root pattern, exclusive.imp fun other => ?_⟩
    intro l mem mem'
    obtain ⟨-, -, -, named⟩ := (mem_matchesBelow_iff linkless openable).1 mem
    obtain ⟨-, -, -, named'⟩ := (mem_matchesBelow_iff linkless openable).1 mem'
    rw [nameMatches] at named named'
    cases last : l.getLast? with
    | none =>
        rw [last] at named
        cases named
    | some n =>
        rw [last] at named named'
        exact other n ⟨named, named'⟩
  · refine apart.imp fun apart => ?_
    intro l mem mem'
    obtain ⟨pattern, -, mem⟩ := List.mem_flatMap.1 mem
    obtain ⟨pattern', -, mem'⟩ := List.mem_flatMap.1 mem'
    exact apart.not_prefix ((mem_matchesBelow_iff linkless openable).1 mem).1
      ((mem_matchesBelow_iff linkless openable).1 mem').1

/-! ## Files -/

/-- Candidates at different locations are read as different files if nothing leads further
there. -/
theorem pairwise_filesOf (settled : ∀ c ∈ cs, w.tree.Settled c.location)
    (nodup : (cs.map Candidate.location).Nodup) :
    (w.filesOf o cs).Pairwise fun f f' => ¬ f.path.Same f'.path := by
  have read : ∀ c ∈ cs, ∀ f, (w.scanFile o c).toOption = some f →
      f.path = c.location.toPath := by
    intro c hc f scanned
    have ok : w.scanFile o c = .ok f := by
      cases outcome : w.scanFile o c <;> simp_all [Except.toOption]
    obtain ⟨l, source, ⟨led, -⟩, rfl⟩ := scanFile_eq_ok_iff.1 ok
    have there := FileTree.resolve_of_canonical led
    rw [(settled c hc).resolve_eq] at there
    rw [Except.ok.inj there]
  rw [List.Nodup, List.pairwise_map] at nodup
  rw [filesOf, List.pairwise_filterMap]
  refine nodup.imp_of_mem fun {c c'} hc hc' other f scanned f' scanned' same => ?_
  rw [read c hc f scanned, read c' hc' f' scanned', Location.same_toPath_iff
    (fun n => (settled c hc).isName) (fun n => (settled c' hc').isName)] at same
  exact other same

/-- The includes of a file are different. -/
theorem pairwise_includes {f : ScannedFile} (h : f ∈ w.filesOf o cs) :
    f.includes.Pairwise fun p q => ¬ p.Same q := by
  obtain ⟨c, -, scanned⟩ := mem_filesOf_iff.1 h
  obtain ⟨l, source, -, rfl⟩ := scanFile_eq_ok_iff.1 scanned
  exact PathSet.pairwise_not_same _

/-- The files below some directories that have the name of a source or a header. -/
def sourcesBelow (w : Workspace) (roots : List Location) : Set Location :=
  {l | (∃ root ∈ roots, root <+: l) ∧ (∃ content, w.tree.lookup? l = some (.file content)) ∧
    ∃ n, l.getLast? = some n ∧ ∃ ending ∈ sourceEndings, ending <:+ n}

/-- With the default patterns, candidates stand at the locations of sources and headers. -/
theorem mem_candidates_iff (linkless : w.tree.Linkless) (openable : w.tree.Openable)
    (directories : ∀ root ∈ roots, w.tree.lookup? root = some .directory) :
    l ∈ (w.candidates false roots defaultTokens).map Candidate.location ↔
      l ∈ w.sourcesBelow roots := by
  have named : (∃ pattern ∈ defaultTokens, nameMatches pattern l = true) ↔
      ∃ n, l.getLast? = some n ∧ ∃ ending ∈ sourceEndings, ending <:+ n := by
    cases last : l.getLast? with
    | none => simp [nameMatches, last]
    | some n =>
        simp only [nameMatches, last, Glob.exists_accepts_defaultTokens_iff, Option.some.injEq,
          exists_eq_left']
  rw [map_location_candidates]
  simp only [List.mem_flatMap, mem_matchesBelow_iff linkless openable]
  constructor
  · rintro ⟨root, hr, pattern, hp, under, -, file, matching⟩
    exact ⟨⟨root, hr, under⟩, file, named.1 ⟨pattern, hp, matching⟩⟩
  · rintro ⟨⟨root, hr, under⟩, ⟨content, file⟩, source⟩
    obtain ⟨pattern, hp, matching⟩ := named.2 source
    refine ⟨root, hr, pattern, hp, under, ?_, ⟨content, file⟩, matching⟩
    rintro rfl
    cases (directories _ hr).symm.trans file

/-- With the default patterns there are as many candidates as sources and headers. -/
theorem length_candidates (linkless : w.tree.Linkless) (openable : w.tree.Openable)
    (apart : roots.Pairwise Location.Apart)
    (directories : ∀ root ∈ roots, w.tree.lookup? root = some .directory) :
    (w.candidates false roots defaultTokens).length = (w.sourcesBelow roots).ncard := by
  have nodup := nodup_candidates linkless openable apart Glob.exclusive_defaultTokens
  have sources : w.sourcesBelow roots =
      ((w.candidates false roots defaultTokens).map Candidate.location).toFinset := by
    ext l
    rw [Finset.mem_coe, List.mem_toFinset]
    exact (mem_candidates_iff linkless openable directories).symm
  rw [sources, Set.ncard_coe_finset, List.toFinset_card_of_nodup nodup, List.length_map]

end Workspace

/-! ## Walks -/

namespace Scanner

/-- A walk from some directories into a graph meets every file once. -/
structure MeetsOnce (s : Scanner) (w : Workspace) (roots : List Location)
    (g g' : IncludeGraph) (summary : Summary) : Prop where
  /-- The files that are read are registered, in their order. -/
  registered : g' = g.replay (historyOf (s.found w roots))
  /-- No two of them are the same file. -/
  distinct : (s.found w roots).Pairwise fun f f' => ¬ f.path.Same f'.path
  /-- So each of them has a scanned node of its own. -/
  scanned : (g'.nodes.filter Node.scanned).length = summary.scanned
  /-- No two edges join the same nodes in the same direction. -/
  edges : (g'.edges.map fun e => (e.source, e.target)).Nodup
  /-- What is scanned or fails are the sources and headers below the directories. -/
  counted : summary.scanned + summary.failed = (w.sourcesBelow roots).ncard

/-- **A scan with the default patterns meets every file once**, in a tree without links whose
directories can all be opened, and from directories that are apart: it succeeds, its edges are
pairwise different, and it counts every source and header below the directories once, whatever
bytes their names are made of. -/
theorem exists_meetsOnce {o : ScanOptions} {w : Workspace} {roots : List Location}
    (options : GraphOptions) (linkless : w.tree.Linkless) (openable : w.tree.Openable)
    (patterns : o.patterns = defaultPatterns) (plain : o.honorIgnoreFiles = false)
    (nonempty : o.roots ≠ [])
    (areRoots : List.Forall₂ w.IsRoot o.roots roots) (apart : roots.Pairwise Location.Apart) :
    ∃ s g summary, Scanner.make o = .ok s ∧
      s.walk w (IncludeGraph.empty options) = (g, .ok summary) ∧
      s.MeetsOnce w roots (IncludeGraph.empty options) g summary := by
  let s : Scanner := ⟨o, defaultTokens⟩
  have made : Scanner.make o = .ok s := by
    refine make_eq_ok_iff.2 ⟨rfl, readPatterns_eq_ok_iff.2 ?_⟩
    rw [patterns]
    exact denotes_defaultPatterns
  have directories := Workspace.lookup?_of_areRoots areRoots
  have candidates : s.candidates w roots = w.candidates false roots defaultTokens := by
    rw [Scanner.candidates, plain]
  have settled : ∀ c ∈ s.candidates w roots, w.tree.Settled c.location := by
    intro c hc
    rw [candidates] at hc
    have source := (Workspace.mem_candidates_iff linkless openable directories).1
      (List.mem_map_of_mem hc)
    exact .inr source.2.1
  have distinct : (s.found w roots).Pairwise fun f f' => ¬ f.path.Same f'.path := by
    refine Workspace.pairwise_filesOf settled ?_
    rw [candidates]
    exact Workspace.nodup_candidates linkless openable apart Glob.exclusive_defaultTokens
  have files : (historyOf (s.found w roots)).Pairwise fun r r' => ¬ r.1.Same r'.1 :=
    List.pairwise_map.2 distinct
  have located : rootsOf w o.roots = .ok roots := rootsOf_eq_ok_iff.2 ⟨nonempty, areRoots⟩
  refine ⟨s, _, _, made, walk_of_ok located _, ⟨rfl, distinct, ?_, ?_, ?_⟩⟩
  · rw [IncludeGraph.length_scanned_replay_empty files, count_eq, historyOf, List.length_map]
  · refine IncludeGraph.nodup_ends_replay_empty files fun r hr => ?_
    obtain ⟨f, hf, rfl⟩ := List.mem_map.1 hr
    exact Workspace.pairwise_includes hf
  · rw [count_eq, ← Workspace.length_candidates linkless openable apart directories,
      ← candidates]
    exact Nat.add_sub_cancel' (s.length_found_le w roots)

end Scanner

namespace Sample

/-- A source and a file of bytes in one directory, a header and a note in another one.  The
source includes the header under three spellings; the file of bytes is named like a source. -/
def siblings : Workspace where
  tree := {
    entries := [([Utf8.encode "p"], .directory),
      ([Utf8.encode "p", Utf8.encode "a.c"], .file (Utf8.encode
        "#include \"../q/b.hpp\"\n#include <b.hpp>\n#include \"/q//b.hpp\"\n")),
      ([Utf8.encode "p", 0xff :: Utf8.encode ".cpp"], .file [0xff]),
      ([Utf8.encode "q"], .directory),
      ([Utf8.encode "q", Utf8.encode "b.hpp"], .file (Utf8.encode "#include \"../p/a.c\"\n")),
      ([Utf8.encode "q", Utf8.encode "note.hp"], .file [])]
    ascending := by decide
    named := by decide
    rooted := by decide }
  directory := []

/-- Options that scan both directories, one of them under a detour. -/
def apart : ScanOptions :=
  ⟨[Path.ofString "/q", Path.ofString "/q/../p"], defaultPatterns, [Path.ofString "/q"], false⟩

/-- Scanned from both directories, all sources are met once. -/
theorem meetsOnce_siblings : siblings.tree.Linkless ∧ siblings.tree.Openable ∧
    ∃ s g summary, Scanner.make apart = .ok s ∧
      s.walk siblings (IncludeGraph.empty GraphOptions.default) = (g, .ok summary) ∧
      s.MeetsOnce siblings [[Utf8.encode "q"], [Utf8.encode "p"]]
        (IncludeGraph.empty GraphOptions.default) g summary := by
  have linkless : siblings.tree.Linkless := by
    unfold FileTree.Linkless siblings
    simp
  have openable : siblings.tree.Openable := FileTree.openable_of_short (by decide)
  have areRoots : List.Forall₂ siblings.IsRoot apart.roots [[Utf8.encode "q"], [Utf8.encode "p"]] :=
    .cons ⟨by cbv, by cbv⟩ (.cons ⟨by cbv, by cbv⟩ .nil)
  have distinct : [[Utf8.encode "q"], [Utf8.encode "p"]].Pairwise Location.Apart := by
    unfold Location.Apart
    decide
  exact ⟨linkless, openable, Scanner.exists_meetsOnce GraphOptions.default linkless openable rfl
    rfl (List.cons_ne_nil _ _) areRoots distinct⟩

end Sample

end IncludeAtlas
