import IncludeAtlas.Proofs.Graph.Commutation
import IncludeAtlas.Proofs.Scan.Enumeration
import Mathlib.Data.List.Perm.Basic

/-!
# Scans in another order

The same scan with its roots and its patterns in another order finds the same files in
another order.  What that changes in the graph and what it does not is read off the history
of the files.

## Main Definitions

* `ScanOptions.Reordered`: scan options with roots and patterns in another order

## Main Results

* `ScanOptions.Reordered.alike`: the order does not change whether a scan succeeds, what it
  counts, and the structure of its graph

## Design notes

The numbers of nodes and edges, the draws and the spellings of paths do depend on the order,
so graphs are compared path by path.  Weights are left to a module of their own.
-/

namespace IncludeAtlas

/-- Scan options with their roots and their patterns in another order. -/
structure ScanOptions.Reordered (o o' : ScanOptions) : Prop where
  roots : o.roots.Perm o'.roots
  patterns : o.patterns.Perm o'.patterns
  directories : o.directories = o'.directories
  honorIgnoreFiles : o.honorIgnoreFiles = o'.honorIgnoreFiles

namespace ScanOptions.Reordered

variable {o o' : ScanOptions}

theorem symm (h : o.Reordered o') : o'.Reordered o :=
  ⟨h.roots.symm, h.patterns.symm, h.directories.symm, h.honorIgnoreFiles.symm⟩

end ScanOptions.Reordered

/-! ## Files in another order -/

namespace Workspace

variable {w : Workspace} {o o' : ScanOptions} {roots roots' : List Location}
  {patterns patterns' : List (List Glob.Token)}

/-- What a candidate is read as does not depend on the order of a scan. -/
theorem scanFile_reordered (h : o.Reordered o') : w.scanFile o = w.scanFile o' :=
  scanFile_congr h.directories

theorem sightings_perm (honorIgnoreFiles : Bool) (hr : roots.Perm roots')
    (hp : patterns.Perm patterns') :
    (roots.flatMap (w.sightings honorIgnoreFiles patterns)).Perm
      (roots'.flatMap (w.sightings honorIgnoreFiles patterns')) :=
  hr.flatMap fun _ _ => hp.flatMap_right _

/-- The candidates are the same in another order. -/
theorem candidates_perm (honorIgnoreFiles : Bool) (hr : roots.Perm roots')
    (hp : patterns.Perm patterns') :
    (w.candidates honorIgnoreFiles roots patterns).Perm
      (w.candidates honorIgnoreFiles roots' patterns') :=
  hr.flatMap fun _ _ => hp.flatMap_right _

/-- The files that are read are the same in another order. -/
theorem filesOf_perm (h : o.Reordered o') {cs cs' : List Candidate} (perm : cs.Perm cs') :
    (w.filesOf o cs).Perm (w.filesOf o' cs') := by
  rw [filesOf, filesOf, scanFile_reordered h]
  exact perm.filterMap _

end Workspace

/-! ## Counts -/

/-- What a scan counts does not depend on the order. -/
theorem Scanner.summarize_perm {seen seen' : List Sighting}
    {outcomes outcomes' : List (Except ScanError ScannedFile)} (hs : seen.Perm seen')
    (ho : outcomes.Perm outcomes') : summarize seen outcomes = summarize seen' outcomes' := by
  have found : (files outcomes).Perm (files outcomes') := ho.filterMap _
  have counted : (files outcomes).length = (files outcomes').length := found.length_eq
  simp only [summarize, Summary.mk.injEq]
  refine ⟨counted, ?_, ?_, ?_, ?_⟩
  · rw [counted, ho.length_eq]
  · exact (hs.filter _).length_eq
  · exact (found.flatMap_right _).length_eq
  · exact (found.flatMap_right _).length_eq

/-! ## Scans -/

namespace ScanOptions.Reordered

variable {o o' : ScanOptions} {w : Workspace} {options : GraphOptions}

/-- If a scan succeeds, it succeeds in every order. -/
theorem yields (h : o.Reordered o') {g : IncludeGraph} {summary : Summary}
    (scan : o.Yields w options g summary) :
    ∃ g' summary', o'.Yields w options g' summary' := by
  obtain ⟨roots, patterns, nonempty, areRoots, arePatterns, -, -⟩ := yields_iff.1 scan
  obtain ⟨roots', areRoots', -⟩ := List.perm_comp_forall₂ h.roots.symm areRoots
  obtain ⟨patterns', arePatterns', -⟩ := List.perm_comp_forall₂ h.patterns.symm arePatterns
  have nonempty' : o'.roots ≠ [] := by
    intro none
    have perm := h.roots
    rw [none] at perm
    exact nonempty (List.perm_nil.1 perm)
  exact ⟨_, _, yields_iff.2 ⟨roots', patterns', nonempty', areRoots', arePatterns', rfl, rfl⟩⟩

/-- Two scans in different orders leave graphs of one structure and count the same. -/
theorem alike_of_yields (h : o.Reordered o') {g g' : IncludeGraph} {summary summary' : Summary}
    (scan : o.Yields w options g summary) (scan' : o'.Yields w options g' summary') :
    g.Alike g' ∧ summary = summary' := by
  obtain ⟨roots, patterns, -, areRoots, arePatterns, rfl, rfl⟩ := yields_iff.1 scan
  obtain ⟨roots', patterns', -, areRoots', arePatterns', rfl, rfl⟩ := yields_iff.1 scan'
  have hr : roots.Perm roots' := List.rel_perm_imp w.isRoot_unique areRoots areRoots' h.roots
  have hp : patterns.Perm patterns' :=
    List.rel_perm_imp Glob.denotes_unique arePatterns arePatterns' h.patterns
  have candidates := w.candidates_perm o.honorIgnoreFiles hr hp
  rw [← h.honorIgnoreFiles, ← Workspace.scanFile_reordered h]
  constructor
  · have files := (Workspace.filesOf_perm (w := w) h candidates).map fun f => (f.path, f.includes)
    exact IncludeGraph.alike_replay_reshuffled (.of_perm files) rfl rfl
  · exact Scanner.summarize_perm (w.sightings_perm _ hr hp) (candidates.map _)

/-- **The order of a scan is no matter of structure.**  If the roots and the patterns of a
scan are put in another order, it succeeds if it did before, and then it counts the same and
its graph has the same structure. -/
theorem alike (h : o.Reordered o') :
    ((∃ g summary, o.Yields w options g summary) ↔
      ∃ g summary, o'.Yields w options g summary) ∧
    ∀ g summary g' summary', o.Yields w options g summary → o'.Yields w options g' summary' →
      g.Alike g' ∧ summary = summary' := by
  refine ⟨⟨?_, ?_⟩, fun g summary g' summary' => h.alike_of_yields⟩
  · rintro ⟨g, summary, scan⟩
    exact h.yields scan
  · rintro ⟨g, summary, scan⟩
    exact h.symm.yields scan

end ScanOptions.Reordered

namespace Sample

theorem reordered : outwards.Reordered inwards :=
  ⟨.swap _ _ _, .refl _, rfl, rfl⟩

/-- Two directories, one in the other, are scanned alike in both orders. -/
theorem alike_outwards_inwards : ∃ g summary g' summary',
    outwards.Yields workspace GraphOptions.default g summary ∧
      inwards.Yields workspace GraphOptions.default g' summary' ∧
      g.Alike g' ∧ summary = summary' := by
  obtain ⟨g, summary, scan⟩ := yields_outwards GraphOptions.default
  obtain ⟨g', summary', scan'⟩ := yields_inwards GraphOptions.default
  exact ⟨g, summary, g', summary', scan, scan',
    (ScanOptions.Reordered.alike reordered).2 g summary g' summary' scan scan'⟩

end Sample

end IncludeAtlas
