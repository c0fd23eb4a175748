import IncludeAtlas.Graph.Relation
import IncludeAtlas.Graph.Registry
import IncludeAtlas.Path.Label
import IncludeAtlas.Palette

/-!
# The include graph

Nodes are files, or tokens that no file was found for; edges are includes.  Nodes and
edges are numbered in the order they appear and never go away.

## Main Definitions

* `Node`, `Edge`, `IncludeGraph`: the graph
* `IncludeGraph.find?`, `IncludeGraph.node?`, `IncludeGraph.edge?`: what it holds
* `IncludeGraph.register`: a scanned file enters with its includes

## Design notes

A path has one node, whatever its spelling, and the node keeps the spelling it was
first mentioned with.  The registry says which node that is; it is kept beside the nodes,
and only a new node changes it.  Every mention of a path takes the draws of a color, also if its
node is there already; a new node takes two more for its place.  A graph without a seed
shows neither, and its draws are those of the seed zero.
-/

namespace IncludeAtlas

/-- Where a node is drawn at first. -/
structure Placement where
  x : Float
  y : Float

/-- The place that the next two draws give. -/
def Placement.draw (draws : Draws) : Placement × Draws :=
  let (x, draws) := draws.next
  let (y, draws) := draws.next
  (⟨x * 0.01, y * 0.01⟩, draws)

/-- A file, or a token that no file was found for. -/
structure Node where
  id : Nat
  /-- The canonical path of the file, or the token. -/
  path : Path
  label : String
  group : String
  /-- How many includes the file has if it was scanned, and one otherwise. -/
  weight : Nat
  placement : Placement
  color : String
  scanned : Bool

/-- The node of a file that is scanned.  The first time fixes its weight. -/
def Node.scan (n : Node) (weight : Nat) : Node :=
  if n.scanned then n else { n with scanned := true, weight }

namespace Node

@[simp] theorem scan_id (n : Node) (weight : Nat) : (n.scan weight).id = n.id := by
  unfold scan
  split <;> rfl

@[simp] theorem scan_path (n : Node) (weight : Nat) : (n.scan weight).path = n.path := by
  unfold scan
  split <;> rfl

@[simp] theorem scan_label (n : Node) (weight : Nat) : (n.scan weight).label = n.label := by
  unfold scan
  split <;> rfl

@[simp] theorem scan_group (n : Node) (weight : Nat) : (n.scan weight).group = n.group := by
  unfold scan
  split <;> rfl

end Node

/-- An include, already turned into the direction of the graph. -/
structure Edge where
  id : Nat
  source : Nat
  target : Nat
  deriving DecidableEq, Repr

/-- What is fixed for a graph as a whole. -/
structure GraphOptions where
  relation : Relation
  /-- Whether nodes are labelled with their whole path. -/
  fullPath : Bool
  /-- How many directories name a group. -/
  granularity : Nat
  palette : Palette
  seed : Option UInt64

/-- The options used where nothing else is asked for. -/
def GraphOptions.default : GraphOptions :=
  ⟨Relation.default, false, 2, Palette.default, none⟩

/-- Nodes and edges in the order of their numbers. -/
structure IncludeGraph where
  options : GraphOptions
  nodes : List Node
  edges : List Edge
  /-- The number of the node of each path. -/
  registry : Registry
  draws : Draws

namespace IncludeGraph

/-- A graph without nodes. -/
def empty (options : GraphOptions) : IncludeGraph :=
  ⟨options, [], [], Registry.empty, Draws.ofSeed (options.seed.getD 0)⟩

/-- The node with a number. -/
def node? (g : IncludeGraph) (id : Nat) : Option Node :=
  g.nodes[id]?

/-- The node of a path. -/
def find? (g : IncludeGraph) (p : Path) : Option Node :=
  (g.registry.get? p).bind g.node?

/-- The edge with a number. -/
def edge? (g : IncludeGraph) (id : Nat) : Option Edge :=
  g.edges[id]?

/-- How many nodes there are. -/
def nodeCount (g : IncludeGraph) : Nat :=
  g.nodes.length

/-- How many edges there are. -/
def edgeCount (g : IncludeGraph) : Nat :=
  g.edges.length

/-- The node that a path without one gets. -/
def newNode (g : IncludeGraph) (p : Path) (color : String) (weight : Nat) : Node where
  id := g.nodeCount
  path := p
  label := p.label g.options.fullPath
  group := p.group g.options.granularity
  weight := weight
  placement := (Placement.draw g.draws).1
  color := color
  scanned := false

/-- Adds a node of a path that has none yet. -/
def addNode (g : IncludeGraph) (p : Path) (color : String) (weight : Nat) : IncludeGraph :=
  { g with
    nodes := g.nodes ++ [g.newNode p color weight]
    registry := g.registry.insert p g.nodeCount
    draws := (Placement.draw g.draws).2 }

/-- Draws a color, which changes nothing but the place in the row of draws. -/
def drawColor (g : IncludeGraph) : String × IncludeGraph :=
  let (color, draws) := g.options.palette.color g.draws
  (color, { g with draws })

/-- Mentions a path: draws a color, adds a node unless there is one, and gives the
node's number. -/
def mention (g : IncludeGraph) (p : Path) (weight : Nat) : Nat × IncludeGraph :=
  let (color, g) := g.drawColor
  match g.registry.get? p with
  | some id => (id, g)
  | none => (g.nodeCount, g.addNode p color weight)

/-- Marks a node as scanned. -/
def markScanned (g : IncludeGraph) (id weight : Nat) : IncludeGraph :=
  { g with nodes := g.nodes.modify id fun n => n.scan weight }

/-- Adds an edge between two nodes. -/
def addEdge (g : IncludeGraph) (includer included : Nat) : IncludeGraph :=
  let (source, target) := g.options.relation.orient includer included
  { g with edges := g.edges ++ [⟨g.edgeCount, source, target⟩] }

/-- Adds an include of a file. -/
def addInclude (g : IncludeGraph) (file : Nat) (p : Path) : IncludeGraph :=
  let (id, g) := g.mention p 1
  g.addEdge file id

/-- Adds the includes of a file, in their order. -/
def addIncludes (g : IncludeGraph) (file : Nat) (ps : List Path) : IncludeGraph :=
  ps.foldl (fun g p => g.addInclude file p) g

/-- The greatest weight. -/
def weightBound : Nat := UInt32.size - 1

/-- Enters a scanned file with its includes, one edge for each of them. -/
def register (g : IncludeGraph) (file : Path) (includes : List Path) : IncludeGraph :=
  let weight := min includes.length weightBound
  let (id, g) := g.mention file weight
  (g.markScanned id weight).addIncludes id includes

/-- The size of the graph in a sentence. -/
def summary (g : IncludeGraph) : String :=
  "<Graph: nodes = " ++ Natural.text g.nodeCount ++ ", edges = " ++ Natural.text g.edgeCount ++ ">"

/-- The size and the direction of the graph, in the notation for records. -/
def describe (g : IncludeGraph) : String :=
  let relation :=
    match g.options.relation with
    | .includes => "Includes"
    | .includedBy => "IncludedBy"
  "IncludeGraph \x7b node_count: " ++ Natural.text g.nodeCount
    ++ ", edge_count: " ++ Natural.text g.edgeCount
    ++ ", relation: " ++ relation ++ " \x7d"

end IncludeGraph

end IncludeAtlas
