import IncludeAtlas.Graph.Basic

/-!
# Graph documents

What is handed out of a graph: records of its nodes and edges in the order of their
numbers, as the page that draws the graph wants them.

## Main Definitions

* `NodeRecord`, `EdgeRecord`, `GraphDocument`
* `IncludeGraph.toDocument`: the document of a graph
-/

namespace IncludeAtlas

/-- A node of a document. -/
structure NodeRecord where
  id : Nat
  label : String
  group : String
  size : Nat
  x : Float
  y : Float
  color : String

/-- An edge of a document. -/
structure EdgeRecord where
  id : Nat
  source : Nat
  target : Nat
  size : Nat
  kind : String
  deriving DecidableEq, Repr

/-- Nodes and edges. -/
structure GraphDocument where
  nodes : List NodeRecord
  edges : List EdgeRecord

/-- The record of a node. -/
def Node.toRecord (n : Node) : NodeRecord :=
  ⟨n.id, n.label, n.group, n.weight, n.placement.x, n.placement.y, n.color⟩

/-- The record of an edge.  All edges are drawn alike. -/
def Edge.toRecord (e : Edge) : EdgeRecord :=
  ⟨e.id, e.source, e.target, 10, "curvedArrow"⟩

/-- The document of a graph. -/
def IncludeGraph.toDocument (g : IncludeGraph) : GraphDocument :=
  ⟨g.nodes.map Node.toRecord, g.edges.map Edge.toRecord⟩

end IncludeAtlas
