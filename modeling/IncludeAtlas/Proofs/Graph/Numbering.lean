import IncludeAtlas.Proofs.Graph.History

/-!
# Numbers from a history

Nodes are numbered in the order in which their paths are first mentioned, and edges in the
order in which they are registered.  This module reads both off the history, so that a graph
is known in full, apart from its draws, without running anything.

## Main Definitions

* `Path.firsts`: the first mention of each path in a row of paths
* `Path.numberIn`: the place of a path among the first mentions
* `mentions`: the paths of a history in the order they are mentioned
* `IncludeGraph.Records`: a graph is what a history says

## Main Results

* `IncludeGraph.Coherent.paths_mention`: a mention adds a path to the end or does nothing
* `IncludeGraph.Coherent.paths_replay`: the nodes of a history are its first mentions
* `IncludeGraph.records_replay`: the graph of a history is what the history says

## What is load-bearing

The edges are not followed step by step.  A number stands for a path and goes on standing for
it (`Keeps`), so the paths at the ends of the edges are known from the history already, and in
the end a path has one number only.
-/

namespace IncludeAtlas

/-! ## First mentions -/

namespace Path

variable {p q : Path} {ps : List Path}

/-- The first mention of each path in a row of paths, in the spelling of that mention. -/
def firsts : List Path → List Path
  | [] => []
  | p :: ps => p :: (firsts ps).filter fun q => ¬ p.Same q

/-- The place of a path among the first mentions. -/
def numberIn (ps : List Path) (p : Path) : Nat :=
  (firsts ps).findIdx fun q => q.Same p

/-- Every path of a row is among the first mentions, in some spelling. -/
theorem exists_mem_firsts_iff : (∃ q ∈ firsts ps, q.Same p) ↔ ∃ q ∈ ps, q.Same p := by
  induction ps with
  | nil => rfl
  | cons r ps ih =>
      rw [firsts, List.exists_mem_cons_iff, List.exists_mem_cons_iff, ← ih]
      by_cases same : r.Same p
      · simp [same]
      · refine or_congr_right ⟨?_, ?_⟩
        · rintro ⟨q, hq, sameq⟩
          exact ⟨q, (List.mem_filter.1 hq).1, sameq⟩
        · rintro ⟨q, hq, sameq⟩
          -- what is filtered out is the path of `r`, and `p` is another one
          have other : ¬ r.Same q := fun here => same (here.trans sameq)
          exact ⟨q, List.mem_filter.2 ⟨hq, by simpa using other⟩, sameq⟩

/-- A path at the end of a row is a first mention unless it was mentioned before. -/
theorem firsts_append_singleton :
    firsts (ps ++ [p]) = if ∃ q ∈ ps, q.Same p then firsts ps else firsts ps ++ [p] := by
  induction ps with
  | nil => simp [firsts]
  | cons r ps ih =>
      rw [List.cons_append, firsts, ih, firsts]
      simp only [List.exists_mem_cons_iff]
      by_cases same : r.Same p <;> by_cases before : ∃ q ∈ ps, q.Same p <;> simp [same, before]

end Path

/-- The paths of a history in the order they are mentioned: each file before what it
includes. -/
def mentions (history : List (Path × List Path)) : List Path :=
  history.flatMap fun r => r.1 :: r.2

namespace IncludeGraph

variable {g : IncludeGraph} {p : Path} {ps : List Path} {i weight : Nat}

/-! ## The nodes -/

/-- The paths of the nodes in the order of their numbers. -/
def paths (g : IncludeGraph) : List Path :=
  g.nodes.map Node.path

theorem paths_addNode (g : IncludeGraph) (p : Path) (color : String) (weight : Nat) :
    (g.addNode p color weight).paths = g.paths ++ [p] :=
  List.map_append

/-- A path has a node exactly if the registry knows it. -/
theorem Coherent.exists_mem_paths_iff (h : g.Coherent) :
    (∃ q ∈ g.paths, q.Same p) ↔ ∃ i, g.registry.get? p = some i := by
  constructor
  · rintro ⟨q, hq, same⟩
    obtain ⟨n, hn, rfl⟩ := List.mem_map.1 hq
    obtain ⟨i, hi⟩ := List.mem_iff_getElem?.1 hn
    exact ⟨i, (h.registered p i).2 ⟨n, hi, same⟩⟩
  · rintro ⟨i, hi⟩
    obtain ⟨n, hn, same⟩ := (h.registered p i).1 hi
    exact ⟨n.path, List.mem_map_of_mem (List.mem_of_getElem? hn), same⟩

/-- A mention adds a path to the end, unless it has a node already. -/
theorem Coherent.paths_mention (h : g.Coherent) :
    (g.mention p weight).2.paths =
      if ∃ q ∈ g.paths, q.Same p then g.paths else g.paths ++ [p] := by
  rcases mention_cases g p weight with ⟨i, hi, eq⟩ | ⟨fresh, eq⟩
  · rw [eq, if_pos (h.exists_mem_paths_iff.2 ⟨i, hi⟩)]
    rfl
  · rw [eq, if_neg (by simp [h.exists_mem_paths_iff, fresh])]
    exact paths_addNode g.drawColor.2 p g.drawColor.1 weight

/-- Scanning leaves the paths of the nodes alone. -/
theorem paths_markScanned (g : IncludeGraph) (i weight : Nat) :
    (g.markScanned i weight).paths = g.paths := by
  refine List.ext_getElem? fun j => ?_
  simp only [paths, markScanned, List.getElem?_map, List.getElem?_modify]
  cases g.nodes[j]? with
  | none => rfl
  | some n => by_cases eq : i = j <;> simp [eq]

/-- A graph of first mentions remains one when a path is mentioned. -/
theorem Coherent.paths_mention_of_firsts (h : g.Coherent) (here : g.paths = Path.firsts ps) :
    (g.mention p weight).2.paths = Path.firsts (ps ++ [p]) := by
  rw [h.paths_mention, here, Path.firsts_append_singleton]
  simp only [Path.exists_mem_firsts_iff]

/-- The includes of a file are mentioned one after the other. -/
theorem Coherent.paths_addIncludes (h : g.Coherent) (hi : i < g.nodeCount)
    (here : g.paths = Path.firsts ps) (qs : List Path) :
    (g.addIncludes i qs).paths = Path.firsts (ps ++ qs) := by
  induction qs generalizing g ps with
  | nil => rwa [List.append_nil]
  | cons q qs ih =>
      have step : (g.addInclude i q).paths = Path.firsts (ps ++ [q]) :=
        h.paths_mention_of_firsts here
      rw [List.append_cons]
      exact ih (h.addInclude hi) (Nat.lt_of_lt_of_le hi (nodeCount_le_addInclude g i q)) step

/-- A registration mentions the file and then what it includes. -/
theorem Coherent.paths_register (h : g.Coherent) (here : g.paths = Path.firsts ps)
    (file : Path) (includes : List Path) :
    (g.register file includes).paths = Path.firsts (ps ++ file :: includes) := by
  have known := h.mention.lt_nodeCount
    (registry_mention g file (min includes.length weightBound))
  rw [register_eq, List.append_cons]
  refine h.mention.markScanned.paths_addIncludes (by rwa [nodeCount_markScanned]) ?_ includes
  rw [paths_markScanned, h.paths_mention_of_firsts here]

/-- **The nodes of a history are its first mentions**, in their order and spelling. -/
theorem Coherent.paths_replay (h : g.Coherent) (here : g.paths = Path.firsts ps)
    (history : List (Path × List Path)) :
    (g.replay history).paths = Path.firsts (ps ++ mentions history) := by
  induction history generalizing g ps with
  | nil => rwa [mentions, List.flatMap_nil, List.append_nil]
  | cons r history ih =>
      have step := ih (h.register r.1 r.2) (h.paths_register here r.1 r.2)
      rwa [List.append_assoc] at step

/-! ## The edges -/

/-- The place of the first node with some components. -/
def placeOf (g : IncludeGraph) (cs : Option (List Component)) : Nat :=
  g.nodes.findIdx fun n => some n.path.components = cs

/-- A node is the first one of its path. -/
theorem Coherent.placeOf_pathAt? (h : g.Coherent) (hi : i < g.nodeCount) :
    g.placeOf (g.pathAt? i) = i := by
  have there : g.pathAt? i = some g.nodes[i].path.components := by
    rw [pathAt?, node?, List.getElem?_eq_getElem hi, Option.map_some]
  have found : g.placeOf (g.pathAt? i) < g.nodes.length :=
    List.findIdx_lt_length_of_exists ⟨g.nodes[i], List.getElem_mem hi, by simp [there]⟩
  have same : some g.nodes[g.placeOf (g.pathAt? i)].path.components = g.pathAt? i :=
    of_decide_eq_true (List.findIdx_getElem (w := found))
  exact h.index_unique (List.getElem?_eq_getElem found) (List.getElem?_eq_getElem hi)
    (Option.some.inj (same.trans there))

/-- Among first mentions, the place of a path is its number. -/
theorem placeOf_of_paths_eq (here : g.paths = Path.firsts ps) (p : Path) :
    g.placeOf (some p.components) = Path.numberIn ps p := by
  rw [Path.numberIn, ← here, paths, List.findIdx_map, placeOf]
  congr 1
  funext n
  exact decide_eq_decide.2 Option.some_inj

/-- The numbers at the ends of an edge are the places of the paths there. -/
theorem Coherent.map_ends (h : g.Coherent) :
    g.edges.map (fun e => (e.source, e.target)) =
      g.edgePaths.map fun ends => (g.placeOf ends.1, g.placeOf ends.2) := by
  rw [edgePaths, List.map_map]
  refine List.map_congr_left fun e he => ?_
  obtain ⟨source, target⟩ := h.joined e he
  simp only [Function.comp_apply, endPaths, h.placeOf_pathAt? source, h.placeOf_pathAt? target]

/-- An edge is turned before or after its ends are numbered. -/
theorem orient_map {α β : Type} (r : Relation) (f : α → β) (includer included : α) :
    (f (r.orient includer included).1, f (r.orient includer included).2) =
      r.orient (f includer) (f included) := by
  cases r <;> rfl

/-- A row of edges that are numbered by their places is known from its ends. -/
theorem eq_mapIdx_of_edge_id {edges : List Edge}
    (h : ∀ {j : Nat} {e : Edge}, edges[j]? = some e → e.id = j) :
    edges = (edges.map fun e => (e.source, e.target)).mapIdx fun j ends =>
      ⟨j, ends.1, ends.2⟩ := by
  refine List.ext_getElem (by simp) fun j hj _ => ?_
  rw [List.getElem_mapIdx, List.getElem_map]
  exact congrArg (Edge.mk · _ _) (h (List.getElem?_eq_getElem hj))

/-! ## The graph -/

/-- A graph is what a history says, under some options. -/
structure Records (options : GraphOptions) (history : List (Path × List Path))
    (g : IncludeGraph) : Prop where
  /-- The nodes are the first mentions, in their order and spelling. -/
  paths : g.nodes.map Node.path = Path.firsts (mentions history)
  /-- A node has the number of its place. -/
  node_ids : g.nodes.map Node.id = List.range g.nodes.length
  /-- There is one edge for each include of each registration, in their order, between the
  numbers of the file and of the include. -/
  edges : g.edges =
    (history.flatMap fun r => r.2.map fun p =>
      options.relation.orient (Path.numberIn (mentions history) r.1)
        (Path.numberIn (mentions history) p)).mapIdx fun j ends => ⟨j, ends.1, ends.2⟩
  /-- A node is scanned exactly if its path is registered. -/
  scanned : ∀ n ∈ g.nodes, n.scanned = true ↔ ∃ r ∈ history, r.1.Same n.path
  /-- A node has the weight of the first registration of its path, and one if there is
  none. -/
  weight : ∀ n ∈ g.nodes, n.weight =
    match history.find? fun r => r.1.Same n.path with
    | some r => min r.2.length weightBound
    | none => 1

/-- **A graph is determined by its history.**  Whatever is registered, in whatever order and
however often, the graph has the nodes, the edges, the scanned files and the weights that the
history says. -/
theorem records_replay (options : GraphOptions) (history : List (Path × List Path)) :
    Records options history ((empty options).replay history) := by
  have coherent := (coherent_empty options).replay history
  have unmentioned : (empty options).paths = Path.firsts [] := rfl
  have firsts : ((empty options).replay history).paths = Path.firsts (mentions history) :=
    (coherent_empty options).paths_replay unmentioned history
  exact {
    paths := firsts
    node_ids := map_eq_range coherent.node_id
    edges := by
      refine (eq_mapIdx_of_edge_id coherent.edge_id).trans ?_
      rw [coherent.map_ends, edgePaths_replay_empty, List.map_flatMap]
      simp only [List.map_map, Function.comp_def, orient_map, placeOf_of_paths_eq firsts]
    scanned := fun n hn => scanned_replay_iff hn
    weight := fun n hn => weight_replay hn }

end IncludeGraph

end IncludeAtlas
