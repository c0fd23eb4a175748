import IncludeAtlas.Proofs.Graph.Respelling
import IncludeAtlas.Proofs.Scan.Composition

/-!
# Walks that are repeated

A walk that is done again finds all its files scanned and all their includes known.  So it has no
node to add and no weight to fix, and all that it leaves are its edges, once more.

## Main Definitions

* `IncludeGraph.Knows`: a graph has seen everything that a history is about
* `Edge.numberedFrom`: edges with given ends and consecutive numbers

## Main Results

* `IncludeGraph.Coherent.knows_replay`: a graph knows the history that it comes from
* `IncludeGraph.Knows.nodes_replay`: what a graph knows changes none of its nodes
* `IncludeGraph.Coherent.edges_replay`: the edges of a history by the numbers of their ends
* `Scanner.walk_again`: a walk that is repeated leaves its edges once more

## What is load-bearing

The numbers at the ends of an edge are read off the nodes and the history alone
(`Coherent.map_ends`), so if the second walk has the history of the first one and leaves the nodes
as they are, then it has the ends of the first one too.
-/

namespace IncludeAtlas

/-- A row in which every path was mentioned before adds no first mention. -/
theorem Path.firsts_append_of_mentioned {ps qs : List Path}
    (mentioned : ∀ q ∈ qs, ∃ p ∈ ps, p.Same q) : firsts (ps ++ qs) = firsts ps := by
  induction qs generalizing ps with
  | nil => rw [List.append_nil]
  | cons q qs ih =>
      obtain ⟨here, later⟩ := List.forall_mem_cons.1 mentioned
      have still : ∀ q' ∈ qs, ∃ p ∈ ps ++ [q], p.Same q' := by
        intro q' hq'
        obtain ⟨p, hp, same⟩ := later q' hq'
        exact ⟨p, List.mem_append_left _ hp, same⟩
      rw [List.append_cons, ih still, firsts_append_singleton, if_pos here]

/-- Edges with given ends, numbered from some number on. -/
def Edge.numberedFrom (start : Nat) (ends : List (Nat × Nat)) : List Edge :=
  ends.mapIdx fun j e => ⟨start + j, e.1, e.2⟩

namespace IncludeGraph

variable {g : IncludeGraph} {history : List (Path × List Path)}

/-! ## What a graph knows -/

/-- A graph has seen everything that a history is about: its files are scanned, and what they
include has nodes. -/
structure Knows (g : IncludeGraph) (history : List (Path × List Path)) : Prop where
  scanned : ∀ r ∈ history, ∃ weight, g.standing? r.1 = some (true, weight)
  included : ∀ r ∈ history, ∀ p ∈ r.2, ∃ s, g.standing? p = some s

/-- **A graph knows the history that it comes from**, whatever it held before. -/
theorem Coherent.knows_replay (h : g.Coherent) (history : List (Path × List Path)) :
    (g.replay history).Knows history where
  scanned := by
    intro r hr
    have registered : ∃ s ∈ history, s.1.Same r.1 := ⟨r, hr, Path.Same.refl _⟩
    rw [h.standing?_replay]
    cases found : history.find? fun s => s.1.Same r.1 with
    | none => exact absurd registered (by simpa using find?_registration_eq_none_iff.1 found)
    | some s => rcases g.standing? r.1 with _ | ⟨_ | _, weight⟩ <;> exact ⟨_, rfl⟩
  included := by
    intro r hr p hp
    have included : ∃ s ∈ history, ∃ q ∈ s.2, q.Same p := ⟨r, hr, p, hp, Path.Same.refl _⟩
    rw [h.standing?_replay]
    cases history.find? fun s => s.1.Same p with
    | none => rcases g.standing? p with _ | ⟨_ | _, weight⟩ <;> simp [included]
    | some s => rcases g.standing? p with _ | ⟨_ | _, weight⟩ <;> exact ⟨_, rfl⟩

namespace Knows

/-- Everything that a known history mentions has a node. -/
theorem exists_mem_paths (known : g.Knows history) (h : g.Coherent) :
    ∀ q ∈ mentions history, ∃ p ∈ g.paths, p.Same q := by
  intro q hq
  obtain ⟨r, hr, hq⟩ := List.mem_flatMap.1 hq
  have stands : ∃ s, g.standing? q = some s := by
    rcases List.mem_cons.1 hq with rfl | hq
    · obtain ⟨weight, stands⟩ := known.scanned r hr
      exact ⟨_, stands⟩
    · exact known.included r hr q hq
  obtain ⟨n, hn, same⟩ := h.exists_node_iff.2 stands
  exact ⟨n.path, List.mem_map_of_mem hn, same⟩

/-- A known history adds no node. -/
theorem nodeCount_replay (known : g.Knows history) (h : g.Coherent) :
    (g.replay history).nodeCount = g.nodeCount := by
  have paths : (g.replay history).paths = g.paths := by
    rw [h.paths_replay h.paths_eq_firsts,
      Path.firsts_append_of_mentioned (known.exists_mem_paths h), ← h.paths_eq_firsts]
  simpa [IncludeGraph.paths, nodeCount] using congrArg List.length paths

/-- The node of a file of a known history is scanned. -/
theorem scanned_of_same (known : g.Knows history) (h : g.Coherent) {r : Path × List Path}
    (hr : r ∈ history) {n : Node} (hn : n ∈ g.nodes) (same : r.1.Same n.path) :
    n.scanned = true := by
  obtain ⟨weight, stands⟩ := known.scanned r hr
  rw [g.standing?_congr same, h.standing?_of_mem hn] at stands
  exact (Prod.mk.inj (Option.some.inj stands)).1

/-- **What a graph knows changes none of its nodes.** -/
theorem nodes_replay (known : g.Knows history) (h : g.Coherent) :
    (g.replay history).nodes = g.nodes := by
  refine List.ext_getElem (known.nodeCount_replay h) fun i _ hi => ?_
  have here : g.node? i = some g.nodes[i] := List.getElem?_eq_getElem hi
  have there := h.node?_replay here history
  suffices (g.replay history).node? i = some g.nodes[i] from (List.getElem?_eq_some_iff.1 this).2
  rw [there]
  cases found : history.find? fun r => r.1.Same g.nodes[i].path with
  | none => rfl
  | some r =>
      obtain ⟨hr, same⟩ := mem_of_find?_registration found
      have scanned := known.scanned_of_same h hr (List.getElem_mem hi) same
      simp [Node.scan, scanned]

end Knows

/-! ## Edges by numbers -/

/-- The ends of the edges that a history adds, as the numbers that they have in a graph. -/
def endsOf (g : IncludeGraph) (history : List (Path × List Path)) : List (Nat × Nat) :=
  history.flatMap fun r => r.2.map fun p =>
    g.options.relation.orient (g.placeOf (some r.1.components)) (g.placeOf (some p.components))

/-- Where the nodes are the same and so is the direction of edges, so are the numbers of ends. -/
theorem endsOf_congr {g' : IncludeGraph} (nodes : g'.nodes = g.nodes)
    (options : g'.options = g.options) : g'.endsOf history = g.endsOf history := by
  simp only [endsOf, placeOf, nodes, options]

/-- **The edges of a history by the numbers of their ends**: those there were, and one for each
include of each registration, numbered on. -/
theorem Coherent.edges_replay (h : g.Coherent) (history : List (Path × List Path)) :
    (g.replay history).edges =
      g.edges ++ Edge.numberedFrom g.edgeCount ((g.replay history).endsOf history) := by
  have later := h.replay history
  obtain ⟨added, split⟩ := edges_prefix_replay g history
  let old := g.edgePaths.map fun ends =>
    ((g.replay history).placeOf ends.1, (g.replay history).placeOf ends.2)
  have length : old.length = g.edgeCount := by
    simp only [old, edgePaths, List.length_map, edgeCount]
  have ends : (g.replay history).edges.map (fun e => (e.source, e.target)) =
      old ++ (g.replay history).endsOf history := by
    rw [later.map_ends, h.edgePaths_replay, List.map_append, endsOf, options_replay,
      List.map_flatMap]
    simp only [List.map_map, Function.comp_def, orient_map, old]
  -- the edges are known from their ends, those that were there and the new ones alike
  have all := eq_mapIdx_of_edge_id later.edge_id
  rw [ends, List.mapIdx_append, ← split] at all
  obtain ⟨-, rfl⟩ := List.append_inj all (by rw [List.length_mapIdx, length]; rfl)
  rw [← split, Edge.numberedFrom, length]
  simp only [Nat.add_comm]

end IncludeGraph

/-! ## Walks -/

/-- **A walk that is repeated leaves its edges once more.**  In a graph of any history, a walk
that succeeds does so again on the graph that it leaves.  The second time it counts the same, it
leaves all nodes as they are, and it adds edges between the same numbers in the same order. -/
theorem Scanner.walk_again {options : GraphOptions} {g g' : IncludeGraph} {s : Scanner}
    {w : Workspace} {summary : Summary} (h : IncludeGraph.Reachable options g)
    (walked : s.walk w g = (g', .ok summary)) :
    ∃ g'' ends, s.walk w g' = (g'', .ok summary) ∧ g''.nodes = g'.nodes ∧
      g'.edges = g.edges ++ Edge.numberedFrom g.edgeCount ends ∧
      g''.edges = g'.edges ++ Edge.numberedFrom g'.edgeCount ends := by
  obtain ⟨roots, located, rfl, rfl⟩ := walk_eq_ok_iff.1 walked
  let history := historyOf (s.found w roots)
  have coherent := h.coherent.replay history
  have nodes := (h.coherent.knows_replay history).nodes_replay coherent
  refine ⟨_, _, walk_of_ok located _, nodes, h.coherent.edges_replay history, ?_⟩
  rw [coherent.edges_replay history, IncludeGraph.endsOf_congr nodes
    (IncludeGraph.options_replay _ history)]

namespace Sample

/-- A graph in which the header is a node already, in another spelling and not scanned. -/
def acquainted : IncludeGraph :=
  (IncludeGraph.empty GraphOptions.default).register (Path.ofString "z.c")
    [Path.ofString "/r//y.h"]

/-- Below the outer directory, both tokens of the source are the header. -/
theorem scanFile_source_top : workspace.scanFile outwards ⟨source, top⟩ =
    .ok ⟨source.toPath, [Path.ofString "/r/y.h"], []⟩ := by
  refine Workspace.scanFile_eq_ok_iff.2 ⟨source, text, reads_source top, ?_⟩
  rw [tokens_text]
  cbv

/-- Below the inner one, the name of the header is unresolved. -/
theorem scanFile_source_inner : workspace.scanFile outwards ⟨source, inner⟩ =
    .ok ⟨source.toPath, [Path.ofString "/r/y.h", Path.ofString "y.h"],
      [Path.ofString "y.h"]⟩ := by
  refine Workspace.scanFile_eq_ok_iff.2 ⟨source, text, reads_source inner, ?_⟩
  rw [tokens_text]
  cbv

/-- Options that scan both directories find the source twice. -/
theorem count_outwards :
    (Scanner.mk outwards [pattern]).count workspace [top, inner] = ⟨2, 0, 0, 3, 1⟩ := by
  have sightings : (Scanner.mk outwards [pattern]).sightings workspace [top, inner] =
      [.candidate ⟨source, top⟩, .candidate ⟨source, inner⟩] := by cbv
  have candidates : (Scanner.mk outwards [pattern]).candidates workspace [top, inner] =
      [⟨source, top⟩, ⟨source, inner⟩] := by
    rw [Scanner.candidates_eq_filterMap, sightings]
    rfl
  rw [Scanner.count, sightings, candidates, List.map_cons, List.map_singleton,
    scanFile_source_top, scanFile_source_inner]
  rfl

/-- A walk that reads a source twice, with different includes each time, is repeated. -/
theorem walk_again_outwards : ∃ g' g'' ends,
    (Scanner.mk outwards [pattern]).walk workspace acquainted = (g', .ok ⟨2, 0, 0, 3, 1⟩) ∧
    (Scanner.mk outwards [pattern]).walk workspace g' = (g'', .ok ⟨2, 0, 0, 3, 1⟩) ∧
    g''.nodes = g'.nodes ∧
    g'.edges = acquainted.edges ++ Edge.numberedFrom acquainted.edgeCount ends ∧
    g''.edges = g'.edges ++ Edge.numberedFrom g'.edgeCount ends := by
  have located : Scanner.rootsOf workspace outwards.roots = .ok [top, inner] :=
    Scanner.rootsOf_eq_ok_iff.2 ⟨List.cons_ne_nil _ _, areRoots_outwards⟩
  have walked := Scanner.walk_of_ok (s := Scanner.mk outwards [pattern]) located acquainted
  rw [count_outwards] at walked
  obtain ⟨g'', ends, again⟩ := Scanner.walk_again (.register _ _ .empty) walked
  exact ⟨_, g'', ends, walked, again⟩

end Sample

end IncludeAtlas
