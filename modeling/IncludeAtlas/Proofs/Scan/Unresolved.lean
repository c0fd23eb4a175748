import IncludeAtlas.Proofs.Path.Set
import IncludeAtlas.Proofs.Scan.Composition
import IncludeAtlas.Proofs.Scan.Grounding
import Mathlib.Algebra.Order.BigOperators.Group.List
import Mathlib.Algebra.Order.Group.Nat

/-!
# Unresolved includes

A walk counts the includes of its files and, beside them, the tokens that no file was found for.
The two counts are of different things: includes are paths, each counted once for a file, and
unresolved tokens are counted as they are spelled.  So the second count is no part of the first
one.  This module says by how much it is off.

## Main Definitions

* `ScannedFile.respelled`: how many unresolved tokens of a file only respell another one
* `LeadsAstray`: an edge leads to an unresolved token of its file
* `Scanner.CountsUnresolved`: what the count of a walk has to do with its edges

## Main Results

* `Scanner.walk_unresolved`: the unresolved tokens of a walk are its edges that lead astray, and
  one more for each token that respells another one
* `Sample.includes_lt_unresolved_stutter`: a file with more unresolved tokens than includes

## What is load-bearing

A token may be unresolved below one root and lead to a file below another one, and the same source
can be read below both.  An edge still tells the two apart: a path to a file has other components
than a stray token, unless the token is that path with a slash after it, and then it is stray
everywhere (`search?_of_same`).
-/

namespace IncludeAtlas

/-! ## Files -/

namespace ScannedFile

variable {f : ScannedFile}

/-- How many unresolved tokens of a file only respell another one. -/
def respelled (f : ScannedFile) : Nat :=
  f.unresolved.length - (PathSet.ofList f.unresolved).length

theorem length_unresolved (f : ScannedFile) :
    f.unresolved.length = (PathSet.ofList f.unresolved).length + f.respelled :=
  (Nat.add_sub_cancel' (PathSet.length_ofList_le f.unresolved)).symm

/-- Nothing is respelled exactly if all unresolved tokens are different paths. -/
theorem respelled_eq_zero_iff :
    f.respelled = 0 ↔ f.unresolved.Pairwise fun t t' => ¬ t.Same t' := by
  rw [← PathSet.length_ofList_eq_iff, f.length_unresolved]
  omega

end ScannedFile

/-- An edge, given as a file and what it includes, leads astray: some files have an unresolved
token there. -/
def LeadsAstray (found : List ScannedFile)
    (pair : Option (List Component) × Option (List Component)) : Prop :=
  ∃ f ∈ found, pair.1 = some f.path.components ∧
    ∃ t ∈ f.unresolved, pair.2 = some t.components

instance (found : List ScannedFile)
    (pair : Option (List Component) × Option (List Component)) :
    Decidable (LeadsAstray found pair) :=
  inferInstanceAs (Decidable (∃ f ∈ found, _ ∧ ∃ t ∈ f.unresolved, _))

namespace Workspace

variable {w : Workspace} {o : ScanOptions} {c c' : Candidate} {cs : List Candidate}
  {f f' : ScannedFile} {p t : Path}

/-- A file that is read twice holds one text. -/
theorem Reads.source_eq {l l' : Location} {source source' : String} (h : w.Reads c l source)
    (h' : w.Reads c' l' source') (same : l.toPath.Same l'.toPath) : source = source' := by
  obtain ⟨-, content, file, text⟩ := h
  obtain ⟨-, content', file', text'⟩ := h'
  have settled : w.tree.shallow.Settled l := .inr ⟨content, file⟩
  have settled' : w.tree.shallow.Settled l' := .inr ⟨content', file'⟩
  obtain rfl := (Location.same_toPath_iff (fun _ => settled.isName)
    (fun _ => settled'.isName)).1 same
  obtain rfl := Entry.file.inj (Option.some.inj (file.symm.trans file'))
  exact Option.some.inj (text.symm.trans text')

/-- **What is unresolved in one reading of a file** and has the path of an include of another
reading is unresolved there as well. -/
theorem exists_unresolved_of_same (h : w.scanFile o c = .ok f) (h' : w.scanFile o c' = .ok f')
    (file : f'.path.Same f.path) (hp : p ∈ f.includes) (ht : t ∈ f'.unresolved)
    (same : t.Same p) : ∃ t' ∈ f.unresolved, t'.Same p := by
  obtain ⟨l, source, reads, rfl⟩ := scanFile_eq_ok_iff.1 h
  obtain ⟨l', source', reads', rfl⟩ := scanFile_eq_ok_iff.1 h'
  obtain rfl := reads'.source_eq reads file
  obtain ⟨token, spelled, rfl⟩ := List.mem_map.1 (Ordered.mem_of_mem_ofList hp)
  cases found : w.search? (searchDirectories o c) token with
  | none =>
      -- the include is a token that is unresolved itself
      refine ⟨token, List.mem_filter.2 ⟨spelled, by rw [found]; rfl⟩, ?_⟩
      rw [resolve, found]
      exact Path.Same.refl token
  | some target =>
      -- the include is a file, so the token is its path and trails off
      obtain ⟨content, there⟩ := exists_file_of_search? found
      obtain ⟨spelledT, nowhere⟩ := List.mem_filter.1 ht
      rw [resolve, found] at same ⊢
      rw [search?_of_same there same (searchDirectories_ne_nil o c')] at nowhere
      refine ⟨t, List.mem_filter.2 ⟨spelledT, ?_⟩, same⟩
      rwa [search?_of_same there same (searchDirectories_ne_nil o c)]

/-- An include of a file leads astray exactly if the file has an unresolved token of that path. -/
theorem leadsAstray_iff (hf : f ∈ w.filesOf o cs) (hp : p ∈ f.includes) :
    LeadsAstray (w.filesOf o cs) (some f.path.components, some p.components) ↔
      ∃ t ∈ f.unresolved, t.Same p := by
  constructor
  · rintro ⟨f', hf', file, t, ht, path⟩
    obtain ⟨c, -, scanned⟩ := mem_filesOf_iff.1 hf
    obtain ⟨c', -, scanned'⟩ := mem_filesOf_iff.1 hf'
    exact exists_unresolved_of_same scanned scanned' (Option.some.inj file).symm hp ht
      (Option.some.inj path).symm
  · rintro ⟨t, ht, same⟩
    exact ⟨f, hf, rfl, t, ht, congrArg some same.symm⟩

/-- The includes of a file that lead astray are its unresolved tokens, each path once. -/
theorem length_filter_includes (h : w.scanFile o c = .ok f) :
    (f.includes.filter fun p => ∃ t ∈ f.unresolved, t.Same p).length =
      (PathSet.ofList f.unresolved).length := by
  obtain ⟨l, source, -, rfl⟩ := scanFile_eq_ok_iff.1 h
  refine PathSet.length_filter_ofList fun t ht => ?_
  obtain ⟨spelled, nowhere⟩ := List.mem_filter.1 ht
  have itself : w.resolve (searchDirectories o c) t = t := by
    rw [resolve, of_decide_eq_true nowhere]
  exact ⟨_, List.mem_map_of_mem spelled, by rw [itself]; exact Path.Same.refl t⟩

/-- The edges of some files, each as the file and what it includes. -/
def pairsOf (found : List ScannedFile) : List (Option (List Component) × Option (List Component)) :=
  found.flatMap fun f => f.includes.map fun p => (some f.path.components, some p.components)

/-- **The edges of some files that lead astray** are as many as the unresolved tokens, less those
that respell another one. -/
theorem length_unresolved_filesOf (w : Workspace) (o : ScanOptions) (cs : List Candidate) :
    ((w.filesOf o cs).flatMap ScannedFile.unresolved).length =
      ((pairsOf (w.filesOf o cs)).filter (LeadsAstray (w.filesOf o cs))).length +
        ((w.filesOf o cs).map ScannedFile.respelled).sum := by
  have astray : ∀ f ∈ w.filesOf o cs,
      ((f.includes.map fun p => (some f.path.components, some p.components)).filter
        (LeadsAstray (w.filesOf o cs))).length = (PathSet.ofList f.unresolved).length := by
    intro f hf
    obtain ⟨c, -, scanned⟩ := mem_filesOf_iff.1 hf
    rw [← length_filter_includes scanned, List.filter_map, List.length_map]
    refine congrArg List.length (List.filter_congr fun p hp => ?_)
    exact decide_eq_decide.2 (leadsAstray_iff hf hp)
  rw [pairsOf, List.filter_flatMap, List.length_flatMap, List.length_flatMap,
    List.map_congr_left astray, ← List.sum_map_add]
  exact congrArg List.sum (List.map_congr_left fun f _ => f.length_unresolved)

end Workspace

/-! ## Walks -/

namespace Scanner

/-- What the count of unresolved tokens has to do with the edges that a walk adds, each given as
the file and what it includes. -/
structure CountsUnresolved (found : List ScannedFile)
    (added : List (Option (List Component) × Option (List Component))) (summary : Summary) :
    Prop where
  /-- The includes that are counted are the edges. -/
  includes : summary.includes = added.length
  /-- The unresolved tokens are the edges that lead astray, and one more for each token that only
  respells another one of its file. -/
  unresolved : summary.unresolved =
    (added.filter (LeadsAstray found)).length + (found.map ScannedFile.respelled).sum
  /-- They are the edges that lead astray exactly if no file has two unresolved tokens of one
  path. -/
  part_iff : summary.unresolved = (added.filter (LeadsAstray found)).length ↔
    ∀ f ∈ found, f.unresolved.Pairwise fun t t' => ¬ t.Same t'
  /-- They are no more than the includes exactly if no more of them are respelled than there are
  edges that lead to files. -/
  le_iff : summary.unresolved ≤ summary.includes ↔
    (found.map ScannedFile.respelled).sum ≤ (added.filter fun e => ¬ LeadsAstray found e).length

/-- **When unresolved tokens are a part of the includes.**  In a graph of any history, a walk that
succeeds adds its edges after those there are.  Of these as many lead astray as there are
unresolved tokens, but for the tokens that respell another one. -/
theorem walk_unresolved {options : GraphOptions} {g g' : IncludeGraph} {s : Scanner}
    {w : Workspace} {summary : Summary} (h : IncludeGraph.Reachable options g)
    (walked : s.walk w g = (g', .ok summary)) :
    ∃ roots added, List.Forall₂ w.IsRoot s.options.roots roots ∧
      g'.includePairs = g.includePairs ++ added ∧
      CountsUnresolved (s.found w roots) added summary := by
  obtain ⟨roots, located, rfl, rfl⟩ := walk_eq_ok_iff.1 walked
  let added := Workspace.pairsOf (s.found w roots)
  have edges : (g.replay (historyOf (s.found w roots))).includePairs =
      g.includePairs ++ added := by
    rw [h.coherent.includePairs_replay, historyOf, List.flatMap_map, List.map_flatMap]
    simp only [List.map_map, Function.comp_def, added, Workspace.pairsOf]
  have includes : (s.count w roots).includes = added.length := by
    simp only [count_eq, added, Workspace.pairsOf, List.length_flatMap, List.length_map]
  have unresolved : (s.count w roots).unresolved =
      (added.filter (LeadsAstray (s.found w roots))).length +
        ((s.found w roots).map ScannedFile.respelled).sum := by
    rw [count_eq]
    exact w.length_unresolved_filesOf s.options (s.candidates w roots)
  have parts : added.length = (added.filter (LeadsAstray (s.found w roots))).length +
      (added.filter fun e => ¬ LeadsAstray (s.found w roots) e).length := by
    simpa using List.length_eq_length_filter_add (decide <| LeadsAstray (s.found w roots) ·)
  refine ⟨roots, added, (rootsOf_eq_ok_iff.1 located).2, edges, includes, unresolved, ?_, ?_⟩
  · rw [unresolved]
    simp only [Nat.add_eq_left, List.sum_eq_zero_iff, List.forall_mem_map,
      ScannedFile.respelled_eq_zero_iff]
  · rw [unresolved, includes, parts]
    omega

end Scanner

namespace Sample

/-- The text of a source that includes one missing header under two spellings. -/
def stutterText : String := "#include \"x//y.h\"\n#include \"x/y.h\"\n"

/-- The source alone in its directory. -/
def stutter : Workspace where
  tree := {
    entries := [(top, .directory), (selfish, .file (Utf8.encode stutterText))]
    ascending := by decide
    named := by decide
    rooted := by decide }
  directory := []

/-- A scanner of the directory. -/
def listener : Scanner :=
  ⟨selfishScan, [pattern]⟩

theorem rootsOf_stutter : Scanner.rootsOf stutter listener.options.roots = .ok [top] := by
  cbv

/-- Both tokens are unresolved, and they are one include. -/
theorem scanFile_stutter : stutter.scanFile listener.options ⟨selfish, top⟩ = .ok
    ⟨selfish.toPath, [Path.ofString "x//y.h"],
      [Path.ofString "x//y.h", Path.ofString "x/y.h"]⟩ := by
  have tokens : Directive.tokens stutterText = ["x//y.h", "x/y.h"] := by cbv
  refine Workspace.scanFile_eq_ok_iff.2 ⟨selfish, stutterText,
    ⟨by cbv, _, rfl, Utf8.decode?_encode stutterText⟩, ?_⟩
  rw [tokens]
  cbv

theorem count_stutter : listener.count stutter [top] = ⟨1, 0, 0, 1, 2⟩ := by
  have sightings : listener.sightings stutter [top] = [.candidate ⟨selfish, top⟩] := by cbv
  have candidates : listener.candidates stutter [top] = [⟨selfish, top⟩] := by
    rw [Scanner.candidates_eq_filterMap, sightings]
    rfl
  rw [Scanner.count, sightings, candidates, List.map_singleton, scanFile_stutter]
  rfl

/-- The source has one edge, which leads astray, and two unresolved tokens. -/
theorem walk_unresolved_stutter : ∃ g roots added,
    listener.walk stutter (IncludeGraph.empty GraphOptions.default) = (g, .ok ⟨1, 0, 0, 1, 2⟩) ∧
    List.Forall₂ stutter.IsRoot listener.options.roots roots ∧
    g.includePairs = (IncludeGraph.empty GraphOptions.default).includePairs ++ added ∧
    Scanner.CountsUnresolved (listener.found stutter roots) added ⟨1, 0, 0, 1, 2⟩ := by
  have walked := Scanner.walk_of_ok (s := listener) rootsOf_stutter
    (IncludeGraph.empty GraphOptions.default)
  rw [count_stutter] at walked
  obtain ⟨roots, added, counts⟩ := Scanner.walk_unresolved .empty walked
  exact ⟨_, roots, added, walked, counts⟩

/-- **More tokens may be unresolved than there are includes.** -/
theorem includes_lt_unresolved_stutter : ∃ g summary,
    listener.walk stutter (IncludeGraph.empty GraphOptions.default) = (g, .ok summary) ∧
    ¬ summary.unresolved ≤ summary.includes := by
  have walked := Scanner.walk_of_ok (s := listener) rootsOf_stutter
    (IncludeGraph.empty GraphOptions.default)
  rw [count_stutter] at walked
  exact ⟨_, _, walked, by decide⟩

end Sample

end IncludeAtlas
