import IncludeAtlas.Proofs.FileTree.Spelling
import IncludeAtlas.Proofs.Scan.Specification
import IncludeAtlas.Proofs.Scan.Weight

/-!
# Files and stray tokens

The nodes of a scan stand for files of the tree, or for tokens that no directory has a file
for.  Both kinds share one registry, which compares paths by their components, so a stray token
that is spelled like the path of a file has the node of that file.  This module says exactly
when that happens.

## Main Definitions

* `Workspace.Grounded`: a file that a candidate is read as, or that one of its tokens leads to
* `Workspace.Stray`: a token of a candidate that leads nowhere
* `IncludeGraph.Separates`: no node stands for both
* `Workspace.SpellsPlainly`: no included token is the path of a file with a slash or a dot
  after it

## Main Results

* `Workspace.search?_of_same`: under a token with the components of its path, a file is found
  in every list of directories or in none
* `ScanOptions.Yields.separates_iff`: a scan separates files from stray tokens exactly if its
  files are spelled plainly
* `Sample.not_separates_selfish`: a file that includes itself with a slash after its name

## What is load-bearing

Only an absolute token has the components of a canonical path, and an absolute token leads to
the same place from every directory.  So whether it is stray is a matter of its spelling alone.
-/

namespace IncludeAtlas

namespace Workspace

variable {w : Workspace} {o : ScanOptions} {cs : List Candidate} {directories : List Path}
  {l : Location} {content : Bytes} {d token : Path}

/-- A file that some candidates give a node: one of them is read as it, or a token of one of
them leads to it. -/
inductive Grounded (w : Workspace) (o : ScanOptions) (cs : List Candidate) : Location → Prop
  | read {c : Candidate} {l : Location} {source : String} :
      c ∈ cs → w.Reads c l source → Grounded w o cs l
  | included {c : Candidate} {includer l : Location} {source t : String} :
      c ∈ cs → w.Reads c includer source → t ∈ Directive.tokens source →
      w.search? (searchDirectories o c) (.ofString t) = some l → Grounded w o cs l

/-- A token that one of some candidates includes and that no directory has a file for. -/
inductive Stray (w : Workspace) (o : ScanOptions) (cs : List Candidate) : Path → Prop
  | missing {c : Candidate} {includer : Location} {source t : String} :
      c ∈ cs → w.Reads c includer source → t ∈ Directive.tokens source →
      w.search? (searchDirectories o c) (.ofString t) = none → Stray w o cs (.ofString t)

/-- Some candidates spell files plainly: nothing stands after the last name of a token that has
the components of the path of one of their files. -/
def SpellsPlainly (w : Workspace) (o : ScanOptions) (cs : List Candidate) : Prop :=
  ∀ c ∈ cs, ∀ includer source, w.Reads c includer source → ∀ t ∈ Directive.tokens source,
    ∀ l, w.Grounded o cs l → (Path.ofString t).Same l.toPath → ¬ (Path.ofString t).TrailsOff

/-! ## Where a token leads -/

/-- What a search finds is a file. -/
theorem exists_file_of_search? (h : w.search? directories token = some l) :
    ∃ content, w.tree.shallow.lookup? l = some (.file content) := by
  obtain ⟨d, -, found⟩ := List.exists_of_findSome?_eq_some h
  exact (file?_eq_some_iff.1 found).2

theorem Grounded.exists_file (h : w.Grounded o cs l) :
    ∃ content, w.tree.shallow.lookup? l = some (.file content) := by
  cases h with
  | read _ reads =>
      obtain ⟨-, content, file, -⟩ := reads
      exact ⟨content, file⟩
  | included _ _ _ found => exact exists_file_of_search? found

/-- An absolute token leads to the same place from every directory. -/
theorem search?_of_isAbsolute (absolute : token.isAbsolute = true) (ne : directories ≠ []) :
    w.search? directories token = w.file? token := by
  have anywhere : ∀ d : Path, d.join token = token := fun d => if_pos absolute
  rw [search?]
  simp only [anywhere]
  induction directories with
  | nil => exact absurd rfl ne
  | cons d ds ih =>
      rw [List.findSome?_cons]
      cases found : w.file? token with
      | some l => rfl
      | none =>
          rw [found] at ih
          by_cases last : ds = []
          · rw [last]
            rfl
          · exact ih last

/-- **A token with the components of the path of a file** leads to the file or nowhere, and
which of the two is a matter of its spelling. -/
theorem search?_of_same (file : w.tree.shallow.lookup? l = some (.file content))
    (same : token.Same l.toPath) (ne : directories ≠ []) :
    w.search? directories token = if token.TrailsOff then none else some l := by
  rw [search?_of_isAbsolute (segments_of_same (.inr ⟨content, file⟩) same).1 ne,
    file?_of_same file same]

theorem searchDirectories_ne_nil (o : ScanOptions) (c : Candidate) :
    searchDirectories o c ≠ [] :=
  List.cons_ne_nil _ _

/-! ## The mentions of a file -/

/-- A file that candidates give a node is mentioned when they are registered. -/
theorem Grounded.exists_mention (h : w.Grounded o cs l) :
    ∃ r ∈ historyOf (w.filesOf o cs), r.1.Same l.toPath ∨ ∃ p ∈ r.2, p.Same l.toPath := by
  cases h with
  | @read c _ source hc reads =>
      have scanned : w.scanFile o c = .ok _ := scanFile_eq_ok_iff.2 ⟨l, source, reads, rfl⟩
      exact ⟨_, List.mem_map_of_mem (mem_filesOf_iff.2 ⟨c, hc, scanned⟩), .inl (Path.Same.refl _)⟩
  | @included c includer _ source t hc reads ht found =>
      have scanned : w.scanFile o c = .ok _ :=
        scanFile_eq_ok_iff.2 ⟨includer, source, reads, rfl⟩
      have denoted : w.Denotes (searchDirectories o c) (.ofString t) l.toPath := by
        rw [denotes_iff, resolve, found]
      obtain ⟨p, hp, same⟩ := (w.isIncludeList_ofList (searchDirectories o c)
        (Directive.tokens source)).complete t ht _ denoted
      exact ⟨_, List.mem_map_of_mem (mem_filesOf_iff.2 ⟨c, hc, scanned⟩), .inr ⟨p, hp, same⟩⟩

end Workspace

/-! ## Nodes -/

/-- No node stands for a file of some candidates and for a stray token of theirs at once. -/
def IncludeGraph.Separates (g : IncludeGraph) (w : Workspace) (o : ScanOptions)
    (cs : List Candidate) : Prop :=
  ∀ n ∈ g.nodes, ¬ ((∃ l, w.Grounded o cs l ∧ n.path.Same l.toPath) ∧
    ∃ token, w.Stray o cs token ∧ n.path.Same token)

/-- Where files are spelled plainly, no graph takes a stray token for a file. -/
theorem Workspace.SpellsPlainly.separates {w : Workspace} {o : ScanOptions} {cs : List Candidate}
    (plain : w.SpellsPlainly o cs) (g : IncludeGraph) : g.Separates w o cs := by
  rintro n - ⟨⟨l, grounded, sameFile⟩, token, stray, sameToken⟩
  obtain ⟨hc, reads, ht, nowhere⟩ := stray
  obtain ⟨content, file⟩ := grounded.exists_file
  have same := sameToken.symm.trans sameFile
  rw [search?_of_same file same (searchDirectories_ne_nil o _),
    if_neg (plain _ hc _ _ reads _ ht l grounded same)] at nowhere
  cases nowhere

namespace ScanOptions

variable {o : ScanOptions} {w : Workspace} {options : GraphOptions} {g : IncludeGraph}
  {summary : Summary} {l : Location} {roots : List Location} {patterns : List (List Glob.Token)}

/-- Every file that the candidates of a scan give a node has one. -/
theorem Yields.exists_node_of_grounded (h : o.Yields w options g summary)
    (areRoots : List.Forall₂ w.IsRoot o.roots roots)
    (arePatterns : List.Forall₂ Glob.Denotes o.patterns patterns)
    (grounded : w.Grounded o (w.candidates o.honorIgnoreFiles roots patterns) l) :
    ∃ n ∈ g.nodes, n.path.Same l.toPath := by
  obtain rfl := h.eq_replay areRoots arePatterns
  exact IncludeGraph.exists_node_replay_iff.2 grounded.exists_mention

/-- A scan that separates files from stray tokens spells its files plainly. -/
theorem Yields.spellsPlainly (h : o.Yields w options g summary)
    (areRoots : List.Forall₂ w.IsRoot o.roots roots)
    (arePatterns : List.Forall₂ Glob.Denotes o.patterns patterns)
    (separates : g.Separates w o (w.candidates o.honorIgnoreFiles roots patterns)) :
    w.SpellsPlainly o (w.candidates o.honorIgnoreFiles roots patterns) := by
  intro c hc includer source reads t ht l grounded same trails
  obtain ⟨content, file⟩ := grounded.exists_file
  obtain ⟨n, hn, sameFile⟩ := h.exists_node_of_grounded areRoots arePatterns grounded
  have nowhere : w.search? (Workspace.searchDirectories o c) (.ofString t) = none := by
    rw [Workspace.search?_of_same file same (Workspace.searchDirectories_ne_nil o c),
      if_pos trails]
  exact separates n hn ⟨⟨l, grounded, sameFile⟩, _, .missing hc reads ht nowhere,
    sameFile.trans same.symm⟩

/-- **When stray tokens are told from files.**  A scan gives no stray token the node of a file,
exactly if no token that it includes is the path of one of its files with a slash or a dot
after it. -/
theorem Yields.separates_iff (h : o.Yields w options g summary)
    (areRoots : List.Forall₂ w.IsRoot o.roots roots)
    (arePatterns : List.Forall₂ Glob.Denotes o.patterns patterns) :
    g.Separates w o (w.candidates o.honorIgnoreFiles roots patterns) ↔
      w.SpellsPlainly o (w.candidates o.honorIgnoreFiles roots patterns) :=
  ⟨h.spellsPlainly areRoots arePatterns, fun plain => plain.separates g⟩

end ScanOptions

namespace Sample

/-- The source, scanned alone below the inner directory. -/
def alone : ScanOptions :=
  { outwards with roots := [Path.ofString "/r/s"] }

/-- A scan whose tokens are relative separates files from stray tokens. -/
theorem separates_alone : ∃ g summary, alone.Yields workspace GraphOptions.default g summary ∧
    g.Separates workspace alone (workspace.candidates false [inner] [pattern]) := by
  have areRoots : List.Forall₂ workspace.IsRoot alone.roots [inner] := .cons isRoot_inner .nil
  obtain ⟨g, summary, scan⟩ := ScanOptions.exists_yields GraphOptions.default
    (List.cons_ne_nil _ _) areRoots arePatterns
  refine ⟨g, summary, scan, (ScanOptions.Yields.separates_iff scan areRoots arePatterns).2 ?_⟩
  intro c hc includer text reads t ht l grounded same
  have only : workspace.candidates alone.honorIgnoreFiles [inner] [pattern] =
      [⟨source, inner⟩] := by
    cbv
  rw [only, List.mem_singleton] at hc
  subst hc
  obtain ⟨-, rfl⟩ := reads.unique (reads_source inner)
  obtain ⟨content, file⟩ := grounded.exists_file
  have absolute := (Workspace.segments_of_same (.inr ⟨content, file⟩) same).1
  rw [tokens_text, List.mem_cons, List.mem_singleton] at ht
  rcases ht with rfl | rfl <;> revert absolute <;> decide

/-- The location of a source that includes itself. -/
def selfish : Location := top ++ [Utf8.encode "a.c"]

/-- The text of the source: its own path, with a slash after it. -/
def selfishText : String := "#include \"/r/a.c/\"\n"

/-- The source alone in its directory. -/
def selfishWorkspace : Workspace where
  tree := {
    entries := [(top, .directory), (selfish, .file (Utf8.encode selfishText))]
    ascending := by decide
    named := by decide
    rooted := by decide }
  directory := []

/-- Options that scan the directory. -/
def selfishScan : ScanOptions :=
  ⟨[Path.ofString "/r"], ["*.c"], [], false⟩

/-- **A stray token may stand for a file.**  With a slash after its name the source would have
to be a directory, so the token leads nowhere; to the registry it is the path of the source. -/
theorem not_separates_selfish : ∃ g summary,
    selfishScan.Yields selfishWorkspace GraphOptions.default g summary ∧
      List.Forall₂ selfishWorkspace.IsRoot selfishScan.roots [top] ∧
      List.Forall₂ Glob.Denotes selfishScan.patterns [pattern] ∧
      ¬ g.Separates selfishWorkspace selfishScan
        (selfishWorkspace.candidates false [top] [pattern]) := by
  have areRoots : List.Forall₂ selfishWorkspace.IsRoot selfishScan.roots [top] :=
    .cons ⟨by cbv, by cbv⟩ .nil
  have patternsHere : List.Forall₂ Glob.Denotes selfishScan.patterns [pattern] := arePatterns
  obtain ⟨g, summary, scan⟩ := ScanOptions.exists_yields GraphOptions.default
    (List.cons_ne_nil _ _) areRoots patternsHere
  refine ⟨g, summary, scan, areRoots, patternsHere, fun separates => ?_⟩
  have plain := scan.spellsPlainly areRoots patternsHere separates
  have only : (⟨selfish, top⟩ : Candidate) ∈
      selfishWorkspace.candidates selfishScan.honorIgnoreFiles [top] [pattern] := by
    rw [show selfishWorkspace.candidates selfishScan.honorIgnoreFiles [top] [pattern] =
      [⟨selfish, top⟩] by cbv]
    exact List.mem_singleton_self _
  have reads : selfishWorkspace.Reads ⟨selfish, top⟩ selfish selfishText :=
    ⟨by cbv, _, rfl, Utf8.decode?_encode selfishText⟩
  have included : "/r/a.c/" ∈ Directive.tokens selfishText := by
    rw [show Directive.tokens selfishText = ["/r/a.c/"] by cbv]
    exact List.mem_singleton_self _
  exact plain _ only _ _ reads _ included selfish (.read only reads) (by decide) (by decide)

end Sample

end IncludeAtlas
