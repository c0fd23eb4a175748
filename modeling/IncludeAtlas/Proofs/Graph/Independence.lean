import IncludeAtlas.Proofs.Graph.Draw
import IncludeAtlas.Proofs.Graph.Run

/-!
# Options act independently

An option of a graph shows in one thing only.  If a history is run twice, under options that
differ in one of them, the two graphs differ in what that option says and in nothing else.

## Main Definitions

* `Node.Mask`, `Node.masked`: fields of nodes that are not looked at
* `GraphOptions.BlindTo`: two options make the same nodes, but for what a mask hides, and the
  same edges, but for a turn
* `IncludeGraph.Agree`: two graphs under two options differ in these things and in nothing else
* `IncludeGraph.SameBut`: what is seen of two such runs
* `IncludeGraph.Independent`: what each option alone changes in the run of a history

## Main Results

* `IncludeGraph.Agree.perform`: a step keeps graphs in agreement and answers alike in both
* `IncludeGraph.independent`: every option acts on its own

## What is load-bearing

What a step does depends on the registry, on how many nodes and edges there are and on how many
draws have been taken, and no option has a part in these.  So it is enough to compare one new
node and one new edge (`BlindTo`); the rest of the argument is the same for all options.
-/

namespace IncludeAtlas

/-! ## What is not looked at -/

namespace Node

/-- Which fields of a node are hidden. -/
structure Mask where
  label : Bool := false
  group : Bool := false
  color : Bool := false
  placement : Bool := false

/-- A node with nothing to be seen in the hidden fields. -/
def masked (m : Mask) (n : Node) : Node :=
  { n with
    label := if m.label then "" else n.label
    group := if m.group then "" else n.group
    color := if m.color then "" else n.color
    placement := if m.placement then ⟨0, 0⟩ else n.placement }

@[simp] theorem masked_none : masked {} = fun n => n := rfl

/-- What can be hidden has no part in scanning. -/
theorem masked_scan (m : Mask) (n : Node) (weight : Nat) :
    (n.scan weight).masked m = (n.masked m).scan weight := by
  cases scanned : n.scanned <;> simp [scan, masked, scanned]

end Node

/-- An edge with its ends exchanged. -/
def Edge.turned (e : Edge) : Edge :=
  ⟨e.id, e.target, e.source⟩

namespace GraphOptions

/-- The key of the draws that graphs under some options take. -/
def key (o : GraphOptions) : ChaCha.Key :=
  Random.keyOfSeed (o.seed.getD 0)

/-- The edge that a graph under some options adds for an include. -/
def edgeOf (o : GraphOptions) (id includer included : Nat) : Edge :=
  ⟨id, (o.relation.orient includer included).1, (o.relation.orient includer included).2⟩

/-- Two options make the same nodes, but for what is hidden of them, and the same edges, but
for a turn. -/
structure BlindTo (m : Node.Mask) (turn : Edge → Edge) (o o' : GraphOptions) : Prop where
  fresh : ∀ taken id p weight, (Node.fresh o' ⟨o'.key, taken⟩ id p weight).masked m =
    (Node.fresh o ⟨o.key, taken⟩ id p weight).masked m
  edge : ∀ id includer included, o'.edgeOf id includer included =
    turn (o.edgeOf id includer included)

variable {o : GraphOptions}

/-- There are two relations, and each exchanges the ends of the edges of the other one. -/
theorem blindTo_relation {relation : Relation} (other : relation ≠ o.relation) :
    o.BlindTo {} Edge.turned { o with relation } where
  fresh := fun _ _ _ _ => rfl
  edge := by
    intro id includer included
    cases relation <;> cases here : o.relation
    · exact absurd here.symm other
    · simp [edgeOf, Edge.turned, Relation.orient, here]
    · simp [edgeOf, Edge.turned, Relation.orient, here]
    · exact absurd here.symm other

theorem blindTo_fullPath (fullPath : Bool) :
    o.BlindTo { label := true } id { o with fullPath } :=
  ⟨fun _ _ _ _ => rfl, fun _ _ _ => rfl⟩

theorem blindTo_granularity (granularity : Nat) :
    o.BlindTo { group := true } id { o with granularity } :=
  ⟨fun _ _ _ _ => rfl, fun _ _ _ => rfl⟩

/-- A color takes four draws under every palette, so the place of the node is the same. -/
theorem blindTo_palette (palette : Palette) :
    o.BlindTo { color := true } id { o with palette } where
  fresh := by
    intro taken number p weight
    simp only [Node.masked, Node.fresh, if_true, key]
  edge := fun _ _ _ => rfl

theorem blindTo_seed (seed : Option UInt64) :
    o.BlindTo { color := true, placement := true } id { o with seed } where
  fresh := by
    intro taken number p weight
    simp only [Node.masked, Node.fresh, if_true]
  edge := fun _ _ _ => rfl

end GraphOptions

namespace IncludeGraph

variable {m : Node.Mask} {turn : Edge → Edge} {o o' : GraphOptions} {g g' : IncludeGraph}

/-! ## Graphs in agreement -/

/-- Two graphs, each under its own options, differ in what is hidden of their nodes and in the
turn of their edges, and in nothing else. -/
structure Agree (m : Node.Mask) (turn : Edge → Edge) (o o' : GraphOptions)
    (g g' : IncludeGraph) : Prop where
  options : g.options = o
  options' : g'.options = o'
  draws : g.draws = ⟨o.key, g.draws.taken⟩
  draws' : g'.draws = ⟨o'.key, g.draws.taken⟩
  nodes : g'.nodes.map (Node.masked m) = g.nodes.map (Node.masked m)
  edges : g'.edges = g.edges.map turn
  registry : g'.registry = g.registry

theorem agree_empty (m : Node.Mask) (turn : Edge → Edge) (o o' : GraphOptions) :
    (empty o).Agree m turn o o' (empty o') :=
  ⟨rfl, rfl, rfl, rfl, rfl, rfl, rfl⟩

namespace Agree

theorem nodeCount_eq (h : Agree m turn o o' g g') : g'.nodeCount = g.nodeCount := by
  simpa [nodeCount] using congrArg List.length h.nodes

theorem edgeCount_eq (h : Agree m turn o o' g g') : g'.edgeCount = g.edgeCount := by
  rw [edgeCount, h.edges, List.length_map, edgeCount]

/-- A path is mentioned under one number in both graphs, and if that adds a node, it adds the
same node to both but for what is hidden. -/
theorem mention (h : Agree m turn o o' g g') (blind : o.BlindTo m turn o') (p : Path)
    (weight : Nat) :
    (g'.mention p weight).1 = (g.mention p weight).1 ∧
      Agree m turn o o' (g.mention p weight).2 (g'.mention p weight).2 := by
  rw [mention_eq, mention_eq, h.registry, h.nodeCount_eq]
  -- the registry is the same, so both graphs know the path or neither does
  cases g.registry.get? p with
  | some i =>
      refine ⟨rfl, h.options, h.options', ?_, ?_, h.nodes, h.edges, rfl⟩
      · exact congrArg (Draws.skip · 4) h.draws
      · exact congrArg (Draws.skip · 4) h.draws'
  | none =>
      refine ⟨rfl, h.options, h.options', ?_, ?_, ?_, h.edges, rfl⟩
      · exact congrArg (Draws.skip · 6) h.draws
      · exact congrArg (Draws.skip · 6) h.draws'
      · rw [List.map_append, List.map_append, h.nodes, List.map_singleton, List.map_singleton,
          h.options, h.options', h.draws, h.draws', blind.fresh]

/-- What can be hidden is left where it is when a node is scanned. -/
theorem map_masked_markScanned (m : Node.Mask) (g : IncludeGraph) (i weight : Nat) :
    (g.markScanned i weight).nodes.map (Node.masked m) =
      (g.nodes.map (Node.masked m)).modify i fun n => n.scan weight := by
  refine List.ext_getElem? fun j => ?_
  simp only [IncludeGraph.markScanned, List.getElem?_map, List.getElem?_modify]
  cases g.nodes[j]? with
  | none => rfl
  | some n => by_cases eq : i = j <;> simp [eq, Node.masked_scan]

theorem markScanned (h : Agree m turn o o' g g') (i weight : Nat) :
    Agree m turn o o' (g.markScanned i weight) (g'.markScanned i weight) where
  options := h.options
  options' := h.options'
  draws := h.draws
  draws' := h.draws'
  nodes := by rw [map_masked_markScanned, map_masked_markScanned, h.nodes]
  edges := h.edges
  registry := h.registry

/-- An edge goes either way, as the options say. -/
theorem addEdge (h : Agree m turn o o' g g') (blind : o.BlindTo m turn o') (i j : Nat) :
    Agree m turn o o' (g.addEdge i j) (g'.addEdge i j) where
  options := h.options
  options' := h.options'
  draws := h.draws
  draws' := h.draws'
  nodes := h.nodes
  edges := by
    show g'.edges ++ [g'.options.edgeOf g'.edgeCount i j] =
      (g.edges ++ [g.options.edgeOf g.edgeCount i j]).map turn
    rw [List.map_append, List.map_singleton, h.edges, h.edgeCount_eq, h.options, h.options',
      blind.edge]
  registry := h.registry

/-! ## Histories -/

theorem addInclude (h : Agree m turn o o' g g') (blind : o.BlindTo m turn o') (i : Nat)
    (p : Path) : Agree m turn o o' (g.addInclude i p) (g'.addInclude i p) := by
  obtain ⟨number, agree⟩ := h.mention blind p 1
  show Agree m turn o o' ((g.mention p 1).2.addEdge i (g.mention p 1).1)
    ((g'.mention p 1).2.addEdge i (g'.mention p 1).1)
  rw [number]
  exact agree.addEdge blind i _

theorem addIncludes (h : Agree m turn o o' g g') (blind : o.BlindTo m turn o') (i : Nat)
    (ps : List Path) : Agree m turn o o' (g.addIncludes i ps) (g'.addIncludes i ps) := by
  induction ps generalizing g g' with
  | nil => exact h
  | cons p ps ih => exact ih (h.addInclude blind i p)

theorem register (h : Agree m turn o o' g g') (blind : o.BlindTo m turn o') (file : Path)
    (includes : List Path) :
    Agree m turn o o' (g.register file includes) (g'.register file includes) := by
  obtain ⟨number, agree⟩ := h.mention blind file (min includes.length weightBound)
  rw [register_eq, register_eq, number]
  exact (agree.markScanned _ _).addIncludes blind _ includes

theorem enter (h : Agree m turn o o' g g') (blind : o.BlindTo m turn o')
    (found : List ScannedFile) :
    Agree m turn o o' (Scanner.enter g found) (Scanner.enter g' found) := by
  induction found generalizing g g' with
  | nil => exact h
  | cons f found ih => exact ih (h.register blind f.path f.includes)

/-- What a walk finds does not depend on the graph that it enters it into. -/
theorem walk (h : Agree m turn o o' g g') (blind : o.BlindTo m turn o') (s : Scanner)
    (w : Workspace) :
    Agree m turn o o' (s.walk w g).1 (s.walk w g').1 ∧ (s.walk w g').2 = (s.walk w g).2 := by
  rw [Scanner.walk, Scanner.walk]
  cases Scanner.rootsOf w s.options.roots with
  | error e => exact ⟨h, rfl⟩
  | ok roots => exact ⟨h.enter blind _, rfl⟩

/-- **A step keeps graphs in agreement**, and answers alike in both. -/
theorem perform (h : Agree m turn o o' g g') (blind : o.BlindTo m turn o') (step : Step) :
    Agree m turn o o' (g.perform step).1 (g'.perform step).1 ∧
      (g'.perform step).2 = (g.perform step).2 := by
  cases step with
  | register file includes => exact ⟨h.register blind file includes, rfl⟩
  | walk s w =>
      obtain ⟨agree, answer⟩ := h.walk blind s w
      exact ⟨agree, congrArg some answer⟩

/-- A history keeps graphs in agreement, and answers alike in both. -/
theorem run (h : Agree m turn o o' g g') (blind : o.BlindTo m turn o') (steps : List Step) :
    Agree m turn o o' (g.run steps).1 (g'.run steps).1 ∧ (g'.run steps).2 = (g.run steps).2 := by
  induction steps generalizing g g' with
  | nil => exact ⟨h, rfl⟩
  | cons step steps ih =>
      obtain ⟨agree, answer⟩ := h.perform blind step
      obtain ⟨agree, answers⟩ := ih agree
      rw [run_cons, run_cons]
      exact ⟨agree, congrArg₂ List.cons answer answers⟩

end Agree

/-! ## What is seen of two runs -/

/-- Two runs leave the same graph but for what is hidden of nodes and for the turn of edges, and
they answer alike. -/
structure SameBut (m : Node.Mask) (turn : Edge → Edge) (r r' : IncludeGraph × List Answer) :
    Prop where
  nodes : r'.1.nodes.map (Node.masked m) = r.1.nodes.map (Node.masked m)
  edges : r'.1.edges = r.1.edges.map turn
  registry : r'.1.registry = r.1.registry
  /-- As many draws have been taken. -/
  taken : r'.1.draws.taken = r.1.draws.taken
  /-- Under one seed, the same draws are next. -/
  draws : r'.1.options.seed = r.1.options.seed → r'.1.draws = r.1.draws
  answers : r'.2 = r.2

/-- Options that make the same nodes and edges leave the same graph, whatever the history. -/
theorem sameBut_of_blindTo (blind : o.BlindTo m turn o') (steps : List Step) :
    SameBut m turn ((empty o).run steps) ((empty o').run steps) := by
  obtain ⟨agree, answers⟩ := (agree_empty m turn o o').run blind steps
  exact {
    nodes := agree.nodes
    edges := agree.edges
    registry := agree.registry
    taken := by rw [agree.draws']
    draws := by
      intro seeds
      rw [agree.options, agree.options'] at seeds
      rw [agree.draws', GraphOptions.key, seeds]
      exact agree.draws.symm
    answers := answers }

/-- What each option alone changes in the run of a history. -/
structure Independent (o : GraphOptions) (steps : List Step) : Prop where
  /-- Another relation exchanges the ends of the edges, and all nodes are the same. -/
  relation : ∀ relation, relation ≠ o.relation →
    SameBut {} Edge.turned ((empty o).run steps) ((empty { o with relation }).run steps) ∧
      ((empty { o with relation }).run steps).1.nodes = ((empty o).run steps).1.nodes
  /-- Whether paths are shown in full changes labels. -/
  fullPath : ∀ fullPath,
    SameBut { label := true } id ((empty o).run steps) ((empty { o with fullPath }).run steps)
  /-- The granularity changes groups. -/
  granularity : ∀ granularity,
    SameBut { group := true } id ((empty o).run steps) ((empty { o with granularity }).run steps)
  /-- The palette changes colors, and no place. -/
  palette : ∀ palette,
    SameBut { color := true } id ((empty o).run steps) ((empty { o with palette }).run steps)
  /-- The seed changes colors and places. -/
  seed : ∀ seed, SameBut { color := true, placement := true } id
    ((empty o).run steps) ((empty { o with seed := some seed }).run steps)

/-- **Options act independently.**  Whatever is registered and walked under a seed, each option
changes the nodes and the edges in what it stands for, and nothing else. -/
theorem independent (o : GraphOptions) (seed : UInt64) (steps : List Step) :
    Independent { o with seed := some seed } steps where
  relation := by
    intro relation other
    have same := sameBut_of_blindTo (GraphOptions.blindTo_relation other) steps
    exact ⟨same, by simpa using same.nodes⟩
  fullPath := fun fullPath => sameBut_of_blindTo (GraphOptions.blindTo_fullPath fullPath) steps
  granularity := fun granularity =>
    sameBut_of_blindTo (GraphOptions.blindTo_granularity granularity) steps
  palette := fun palette => sameBut_of_blindTo (GraphOptions.blindTo_palette palette) steps
  seed := fun seed => sameBut_of_blindTo (GraphOptions.blindTo_seed (some seed)) steps

end IncludeGraph

end IncludeAtlas
