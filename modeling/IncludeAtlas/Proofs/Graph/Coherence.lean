import Mathlib.Data.List.Basic
import Mathlib.Data.List.Nodup
import IncludeAtlas.Document.Basic
import IncludeAtlas.Scan.Walk

/-!
# Nodes, edges and the registry agree

A graph keeps three records that no single step changes together: the nodes, the edges
and the registry.  This module shows that they never come apart, whatever is registered
and walked, and what that means for everyone who reads a graph.

## Main Definitions

* `IncludeGraph.Coherent`: the three records agree
* `IncludeGraph.Reachable`: the graphs that some history of registrations and walks leads to
* `IncludeGraph.Representation`: what a reader of a graph and of its document relies on

## Main Results

* `IncludeGraph.Coherent.mention`, `Coherent.markScanned`, `Coherent.addEdge`: the steps
  keep the records together
* `IncludeGraph.Reachable.representation`: every reachable graph is read as it was written

## What is load-bearing

`Coherent.registered` is an equivalence.  Its one direction finds the node of a path, the
other makes it the only one: two nodes of one path would give the registry two answers.
-/

namespace IncludeAtlas

namespace IncludeGraph

variable {g : IncludeGraph} {p q : Path} {i j weight : Nat} {color : String}

/-- The nodes, the edges and the registry of a graph agree. -/
structure Coherent (g : IncludeGraph) : Prop where
  /-- A node stands where its number says. -/
  node_id : ∀ {i : Nat} {n : Node}, g.nodes[i]? = some n → n.id = i
  /-- An edge stands where its number says. -/
  edge_id : ∀ {j : Nat} {e : Edge}, g.edges[j]? = some e → e.id = j
  /-- The registry gives a path the number under which a node of that path stands. -/
  registered : ∀ p i, g.registry.get? p = some i ↔ ∃ n, g.nodes[i]? = some n ∧ n.path.Same p
  /-- An edge joins nodes that are there. -/
  joined : ∀ e ∈ g.edges, e.source < g.nodeCount ∧ e.target < g.nodeCount
  /-- A node has the label of its path. -/
  labelled : ∀ n ∈ g.nodes, n.label = n.path.label g.options.fullPath
  /-- A node is in the group of its path. -/
  grouped : ∀ n ∈ g.nodes, n.group = n.path.group g.options.granularity

namespace Coherent

/-! ## Reading a coherent graph -/

/-- A number that the registry gives out is the number of a node. -/
theorem lt_nodeCount (h : g.Coherent) (known : g.registry.get? p = some i) : i < g.nodeCount := by
  obtain ⟨n, hn, -⟩ := (h.registered p i).1 known
  exact (List.getElem?_eq_some_iff.1 hn).1

/-- Nodes of one path stand in one place. -/
theorem index_unique (h : g.Coherent) {m n : Node} (hm : g.nodes[i]? = some m)
    (hn : g.nodes[j]? = some n) (same : m.path.Same n.path) : i = j := by
  have hi := (h.registered n.path i).2 ⟨m, hm, same⟩
  have hj := (h.registered n.path j).2 ⟨n, hn, Path.Same.refl _⟩
  rw [hi] at hj
  exact Option.some.inj hj

/-- The node of a path is found under every spelling. -/
theorem find?_eq_some_iff (h : g.Coherent) {n : Node} :
    g.find? p = some n ↔ n ∈ g.nodes ∧ n.path.Same p := by
  rw [find?, Option.bind_eq_some_iff]
  constructor
  · rintro ⟨i, known, hn⟩
    obtain ⟨m, hm, same⟩ := (h.registered p i).1 known
    have : m = n := Option.some.inj (hm.symm.trans hn)
    exact ⟨List.mem_of_getElem? hn, this ▸ same⟩
  · rintro ⟨hn, same⟩
    obtain ⟨i, hi⟩ := List.mem_iff_getElem?.1 hn
    exact ⟨i, (h.registered p i).2 ⟨n, hi, same⟩, hi⟩

/-- Nothing is found exactly where no node has the path. -/
theorem find?_eq_none_iff (h : g.Coherent) :
    g.find? p = none ↔ ∀ n ∈ g.nodes, ¬ n.path.Same p := by
  rw [Option.eq_none_iff_forall_not_mem]
  constructor
  · intro none n hn same
    exact none n (h.find?_eq_some_iff.2 ⟨hn, same⟩)
  · intro none n hn
    obtain ⟨mem, same⟩ := h.find?_eq_some_iff.1 hn
    exact none n mem same

end Coherent

/-! ## The steps -/

/-- What stands in a list with one more element at its end. -/
theorem getElem?_append_singleton_iff {α : Type} {xs : List α} {x y : α} {i : Nat} :
    (xs ++ [x])[i]? = some y ↔ xs[i]? = some y ∨ i = xs.length ∧ y = x := by
  rcases Nat.lt_trichotomy i xs.length with lt | rfl | gt
  · simp [List.getElem?_append_left lt, Nat.ne_of_lt lt]
  · simp [eq_comm]
  · have outside : (xs ++ [x]).length ≤ i := by
      simp only [List.length_append, List.length_singleton]
      omega
    simp [List.getElem?_eq_none outside, Nat.le_of_lt gt, Nat.ne_of_gt gt]

/-- The empty graph has nothing that could disagree. -/
theorem coherent_empty (options : GraphOptions) : (empty options).Coherent where
  node_id := by simp [empty]
  edge_id := by simp [empty]
  registered := by simp [empty]
  joined := by simp [empty]
  labelled := by simp [empty]
  grouped := by simp [empty]

/-- The place in the row of draws has no part in the records. -/
theorem Coherent.drawColor (h : g.Coherent) : g.drawColor.2.Coherent :=
  ⟨h.node_id, h.edge_id, h.registered, h.joined, h.labelled, h.grouped⟩

/-- A node can be added for a path that the registry does not know. -/
theorem Coherent.addNode (h : g.Coherent) (fresh : g.registry.get? p = none) :
    (g.addNode p color weight).Coherent where
  node_id := by
    intro i n hn
    rcases getElem?_append_singleton_iff.1 hn with hn | ⟨rfl, rfl⟩
    · exact h.node_id hn
    · rfl
  edge_id := h.edge_id
  registered := by
    intro q i
    simp only [IncludeGraph.addNode, Registry.get?_insert, getElem?_append_singleton_iff]
    split
    · rename_i same
      constructor
      · intro eq
        exact ⟨_, .inr ⟨(Option.some.inj eq).symm, rfl⟩, same⟩
      · rintro ⟨n, hn | ⟨rfl, -⟩, sameq⟩
        · -- an old node of this path would have been known
          have known := (h.registered p i).2 ⟨n, hn, sameq.trans same.symm⟩
          rw [fresh] at known
          cases known
        · rfl
    · rename_i other
      rw [h.registered]
      constructor
      · rintro ⟨n, hn, sameq⟩
        exact ⟨n, .inl hn, sameq⟩
      · rintro ⟨n, hn | ⟨-, rfl⟩, sameq⟩
        · exact ⟨n, hn, sameq⟩
        · exact absurd sameq other
  joined := by
    intro e he
    have := h.joined e he
    simp only [nodeCount, IncludeGraph.addNode, List.length_append, List.length_singleton]
      at this ⊢
    omega
  labelled := by
    intro n hn
    rcases List.mem_append.1 hn with hn | hn
    · exact h.labelled n hn
    · rw [List.mem_singleton.1 hn]
      rfl
  grouped := by
    intro n hn
    rcases List.mem_append.1 hn with hn | hn
    · exact h.grouped n hn
    · rw [List.mem_singleton.1 hn]
      rfl

/-- What mentioning a path does: nothing but a draw if the registry knows the path, and
otherwise a new node. -/
theorem mention_cases (g : IncludeGraph) (p : Path) (weight : Nat) :
    (∃ i, g.registry.get? p = some i ∧ g.mention p weight = (i, g.drawColor.2)) ∨
      (g.registry.get? p = none ∧
        g.mention p weight = (g.nodeCount, g.drawColor.2.addNode p g.drawColor.1 weight)) := by
  cases known : g.registry.get? p with
  | some i => exact .inl ⟨i, rfl, by simp [mention, drawColor, known]⟩
  | none => exact .inr ⟨rfl, by simp [mention, drawColor, known, nodeCount]⟩

/-- Mentioning a path keeps the records together. -/
theorem Coherent.mention (h : g.Coherent) : (g.mention p weight).2.Coherent := by
  rcases mention_cases g p weight with ⟨i, -, eq⟩ | ⟨fresh, eq⟩
  · rw [eq]
    exact h.drawColor
  · rw [eq]
    exact h.drawColor.addNode fresh

/-- A path is registered once it is mentioned. -/
theorem registry_mention (g : IncludeGraph) (p : Path) (weight : Nat) :
    (g.mention p weight).2.registry.get? p = some (g.mention p weight).1 := by
  rcases mention_cases g p weight with ⟨i, known, eq⟩ | ⟨-, eq⟩
  · rw [eq]
    exact known
  · rw [eq]
    simp [addNode, Path.Same.refl, drawColor, nodeCount]

/-- No node goes away when a path is mentioned. -/
theorem nodeCount_le_mention (g : IncludeGraph) (p : Path) (weight : Nat) :
    g.nodeCount ≤ (g.mention p weight).2.nodeCount := by
  rcases mention_cases g p weight with ⟨i, -, eq⟩ | ⟨-, eq⟩ <;> rw [eq] <;>
    simp [addNode, drawColor, nodeCount]

/-- Scanning leaves every node where it is, with its path, label and group. -/
theorem nodes_markScanned_iff {n : Node} :
    (g.markScanned i weight).nodes[j]? = some n ↔
      ∃ m, g.nodes[j]? = some m ∧ n = if i = j then m.scan weight else m := by
  simp only [markScanned, List.getElem?_modify, Option.map_eq_map, Option.map_eq_some_iff]
  exact exists_congr fun m => and_congr_right fun _ => eq_comm

/-- What scanning leaves alone, for each node of the graph. -/
theorem exists_of_mem_markScanned {n : Node} (h : n ∈ (g.markScanned i weight).nodes) :
    ∃ m ∈ g.nodes, n.path = m.path ∧ n.label = m.label ∧ n.group = m.group := by
  obtain ⟨j, hj⟩ := List.mem_iff_getElem?.1 h
  obtain ⟨m, hm, rfl⟩ := nodes_markScanned_iff.1 hj
  refine ⟨m, List.mem_of_getElem? hm, ?_⟩
  split <;> simp

@[simp] theorem nodeCount_markScanned (g : IncludeGraph) (i weight : Nat) :
    (g.markScanned i weight).nodeCount = g.nodeCount := by
  simp [markScanned, nodeCount]

/-- Marking a node as scanned keeps the records together. -/
theorem Coherent.markScanned (h : g.Coherent) : (g.markScanned i weight).Coherent where
  node_id := by
    intro j n hn
    obtain ⟨m, hm, rfl⟩ := nodes_markScanned_iff.1 hn
    split <;> simp [h.node_id hm]
  edge_id := h.edge_id
  registered := by
    intro p j
    refine (h.registered p j).trans ⟨?_, ?_⟩
    · rintro ⟨m, hm, same⟩
      refine ⟨_, nodes_markScanned_iff.2 ⟨m, hm, rfl⟩, ?_⟩
      split <;> simpa using same
    · rintro ⟨n, hn, same⟩
      obtain ⟨m, hm, rfl⟩ := nodes_markScanned_iff.1 hn
      refine ⟨m, hm, ?_⟩
      split at same <;> simpa using same
  joined := by
    intro e he
    simpa using h.joined e he
  labelled := by
    intro n hn
    obtain ⟨m, hm, path, label, -⟩ := exists_of_mem_markScanned hn
    rw [label, path]
    exact h.labelled m hm
  grouped := by
    intro n hn
    obtain ⟨m, hm, path, -, group⟩ := exists_of_mem_markScanned hn
    rw [group, path]
    exact h.grouped m hm

/-- An edge between nodes that are there keeps the records together. -/
theorem Coherent.addEdge (h : g.Coherent) (hi : i < g.nodeCount) (hj : j < g.nodeCount) :
    (g.addEdge i j).Coherent where
  node_id := h.node_id
  edge_id := by
    intro k e he
    rcases getElem?_append_singleton_iff.1 he with he | ⟨rfl, rfl⟩
    · exact h.edge_id he
    · rfl
  registered := h.registered
  joined := by
    intro e he
    rcases List.mem_append.1 he with he | he
    · exact h.joined e he
    · rw [List.mem_singleton.1 he]
      cases relation : g.options.relation with
      | includes => exact ⟨hi, hj⟩
      | includedBy => exact ⟨hj, hi⟩
  labelled := h.labelled
  grouped := h.grouped

/-! ## Registrations and walks -/

/-- Adding an include keeps the records together. -/
theorem Coherent.addInclude (h : g.Coherent) (hi : i < g.nodeCount) :
    (g.addInclude i p).Coherent := by
  have known : (g.mention p 1).1 < (g.mention p 1).2.nodeCount :=
    h.mention.lt_nodeCount (registry_mention g p 1)
  exact h.mention.addEdge (Nat.lt_of_lt_of_le hi (nodeCount_le_mention g p 1)) known

theorem nodeCount_le_addInclude (g : IncludeGraph) (i : Nat) (p : Path) :
    g.nodeCount ≤ (g.addInclude i p).nodeCount :=
  nodeCount_le_mention g p 1

/-- Adding includes keeps the records together. -/
theorem Coherent.addIncludes (h : g.Coherent) (hi : i < g.nodeCount) (ps : List Path) :
    (g.addIncludes i ps).Coherent := by
  induction ps generalizing g with
  | nil => exact h
  | cons p ps ih =>
      exact ih (h.addInclude hi) (Nat.lt_of_lt_of_le hi (nodeCount_le_addInclude g i p))

/-- A registration as the row of its steps: the file is mentioned, marked and given its
includes. -/
theorem register_eq (g : IncludeGraph) (file : Path) (includes : List Path) :
    g.register file includes =
      ((g.mention file (min includes.length weightBound)).2.markScanned
        (g.mention file (min includes.length weightBound)).1
        (min includes.length weightBound)).addIncludes
          (g.mention file (min includes.length weightBound)).1 includes := rfl

/-- **Registering a file keeps the records together**, also if it includes itself or
includes a path twice. -/
theorem Coherent.register (h : g.Coherent) (file : Path) (includes : List Path) :
    (g.register file includes).Coherent := by
  have known := h.mention.lt_nodeCount
    (registry_mention g file (min includes.length weightBound))
  rw [register_eq]
  exact h.mention.markScanned.addIncludes (by rwa [nodeCount_markScanned]) includes

/-- Entering scanned files keeps the records together. -/
theorem Coherent.enter (h : g.Coherent) (found : List ScannedFile) :
    (Scanner.enter g found).Coherent := by
  induction found generalizing g with
  | nil => exact h
  | cons f found ih => exact ih (h.register f.path f.includes)

/-- A walk keeps the records together, whether it succeeds or fails. -/
theorem Coherent.walk (h : g.Coherent) (s : Scanner) (w : Workspace) :
    (s.walk w g).1.Coherent := by
  unfold Scanner.walk
  split
  · exact h
  · exact h.enter _

/-! ## Every history -/

/-- The graphs that start without nodes under some options and then see registrations and
walks in any order.  A walk may fail, and the tree may change from one walk to the next. -/
inductive Reachable (options : GraphOptions) : IncludeGraph → Prop where
  | empty : Reachable options (empty options)
  | register {g : IncludeGraph} (file : Path) (includes : List Path) :
      Reachable options g → Reachable options (g.register file includes)
  | walk {g : IncludeGraph} (s : Scanner) (w : Workspace) :
      Reachable options g → Reachable options (s.walk w g).1

/-- No history takes the records apart. -/
theorem Reachable.coherent {options : GraphOptions} (h : Reachable options g) : g.Coherent := by
  induction h with
  | empty => exact coherent_empty options
  | register file includes _ ih => exact ih.register file includes
  | walk s w _ ih => exact ih.walk s w

theorem options_mention (g : IncludeGraph) (p : Path) (weight : Nat) :
    (g.mention p weight).2.options = g.options := by
  rcases mention_cases g p weight with ⟨i, -, eq⟩ | ⟨-, eq⟩ <;> rw [eq] <;> rfl

theorem options_addInclude (g : IncludeGraph) (i : Nat) (p : Path) :
    (g.addInclude i p).options = g.options :=
  options_mention g p 1

theorem options_addIncludes (g : IncludeGraph) (i : Nat) (ps : List Path) :
    (g.addIncludes i ps).options = g.options := by
  induction ps generalizing g with
  | nil => rfl
  | cons p ps ih => exact (ih _).trans (options_addInclude g i p)

/-- The options of a graph stay what they are. -/
theorem options_register (g : IncludeGraph) (file : Path) (includes : List Path) :
    (g.register file includes).options = g.options := by
  rw [register_eq, options_addIncludes]
  exact options_mention g file _

theorem options_enter (g : IncludeGraph) (found : List ScannedFile) :
    (Scanner.enter g found).options = g.options := by
  induction found generalizing g with
  | nil => rfl
  | cons f found ih => exact (ih _).trans (options_register g f.path f.includes)

theorem options_walk (g : IncludeGraph) (s : Scanner) (w : Workspace) :
    (s.walk w g).1.options = g.options := by
  unfold Scanner.walk
  split
  · rfl
  · exact options_enter g _

/-- A reachable graph has the options it started with. -/
theorem Reachable.options_eq {options : GraphOptions} (h : Reachable options g) :
    g.options = options := by
  induction h with
  | empty => rfl
  | register file includes _ ih => exact (options_register _ file includes).trans ih
  | walk s w _ ih => exact (options_walk _ s w).trans ih

/-! ## What a reader relies on -/

/-- What holds of a graph under some options, and of its document, for everyone who reads
them. -/
structure Representation (options : GraphOptions) (g : IncludeGraph) : Prop where
  /-- The numbers of the nodes, in their order, are those below the number of nodes. -/
  node_ids : g.nodes.map Node.id = List.range g.nodeCount
  /-- The numbers of the edges, in their order, are those below the number of edges. -/
  edge_ids : g.edges.map Edge.id = List.range g.edgeCount
  /-- No path has two nodes. -/
  distinct : g.nodes.Pairwise fun m n => ¬ m.path.Same n.path
  /-- What is found for a path is the only node of that path. -/
  found : ∀ p n, g.find? p = some n ↔
    n ∈ g.nodes ∧ n.path.Same p ∧ ∀ m ∈ g.nodes, m.path.Same p → m = n
  /-- Nothing is found only if no node has the path. -/
  not_found : ∀ p, g.find? p = none ↔ ∀ n ∈ g.nodes, ¬ n.path.Same p
  /-- There are nodes under exactly the numbers below the number of nodes. -/
  node_some : ∀ id, (g.node? id).isSome ↔ id < g.nodeCount
  /-- The node under a number is the one in the list that bears it. -/
  node_mem : ∀ id n, g.node? id = some n ↔ n ∈ g.nodes ∧ n.id = id
  /-- There are edges under exactly the numbers below the number of edges. -/
  edge_some : ∀ id, (g.edge? id).isSome ↔ id < g.edgeCount
  /-- The edge under a number is the one in the list that bears it. -/
  edge_mem : ∀ id e, g.edge? id = some e ↔ e ∈ g.edges ∧ e.id = id
  /-- Both ends of an edge are numbers of nodes. -/
  joined : ∀ e ∈ g.edges, (∃ n ∈ g.nodes, n.id = e.source) ∧ ∃ n ∈ g.nodes, n.id = e.target
  /-- A node is labelled and grouped by its path, as the options say. -/
  shown : ∀ n ∈ g.nodes, n.label = n.path.label options.fullPath ∧
    n.group = n.path.group options.granularity
  /-- The records of a document are numbered by their places. -/
  record_ids : g.toDocument.nodes.map NodeRecord.id = List.range g.toDocument.nodes.length ∧
    g.toDocument.edges.map EdgeRecord.id = List.range g.toDocument.edges.length
  /-- The ends of an edge record are places of node records. -/
  record_joined : ∀ e ∈ g.toDocument.edges,
    e.source < g.toDocument.nodes.length ∧ e.target < g.toDocument.nodes.length
  /-- A node record is as large as its node is heavy. -/
  record_sizes : g.toDocument.nodes.map NodeRecord.size = g.nodes.map Node.weight

/-- A list whose elements bear the numbers of their places bears them in order. -/
theorem map_eq_range {α : Type} {xs : List α} {f : α → Nat}
    (h : ∀ {i : Nat} {x : α}, xs[i]? = some x → f x = i) : xs.map f = List.range xs.length := by
  refine List.ext_getElem (by simp) fun i hi _ => ?_
  rw [List.getElem_map, List.getElem_range]
  exact h (List.getElem?_eq_getElem (by simpa using hi))

/-- An element that bears the number of its place is found there. -/
theorem getElem?_eq_some_iff_mem {α : Type} {xs : List α} {f : α → Nat}
    (h : ∀ {i : Nat} {x : α}, xs[i]? = some x → f x = i) {i : Nat} {x : α} :
    xs[i]? = some x ↔ x ∈ xs ∧ f x = i := by
  constructor
  · intro hx
    exact ⟨List.mem_of_getElem? hx, h hx⟩
  · rintro ⟨mem, rfl⟩
    obtain ⟨j, hj⟩ := List.mem_iff_getElem?.1 mem
    rwa [h hj]

namespace Coherent

/-- Nodes of one path are one node. -/
theorem eq_of_same (h : g.Coherent) {m n : Node} (hm : m ∈ g.nodes) (hn : n ∈ g.nodes)
    (same : m.path.Same n.path) : m = n := by
  obtain ⟨i, hi⟩ := List.mem_iff_getElem?.1 hm
  obtain ⟨j, hj⟩ := List.mem_iff_getElem?.1 hn
  obtain rfl := h.index_unique hi hj same
  exact Option.some.inj (hi.symm.trans hj)

/-- No path has two nodes. -/
theorem pairwise_not_same (h : g.Coherent) :
    g.nodes.Pairwise fun m n => ¬ m.path.Same n.path := by
  rw [List.pairwise_iff_getElem]
  intro i j hi hj lt same
  have := h.index_unique (List.getElem?_eq_getElem hi) (List.getElem?_eq_getElem hj) same
  omega

/-- There is a node under every number below the number of nodes. -/
theorem exists_node (h : g.Coherent) {id : Nat} (hid : id < g.nodeCount) :
    ∃ n ∈ g.nodes, n.id = id :=
  ⟨g.nodes[id], List.getElem_mem hid, h.node_id (List.getElem?_eq_getElem hid)⟩

/-- A coherent graph is read as it was written. -/
theorem represents (h : g.Coherent) : g.Representation g.options where
  node_ids := map_eq_range h.node_id
  edge_ids := map_eq_range h.edge_id
  distinct := h.pairwise_not_same
  found := by
    intro p n
    rw [h.find?_eq_some_iff]
    constructor
    · rintro ⟨mem, same⟩
      exact ⟨mem, same, fun m hm sameM => h.eq_of_same hm mem (sameM.trans same.symm)⟩
    · rintro ⟨mem, same, -⟩
      exact ⟨mem, same⟩
  not_found := fun p => h.find?_eq_none_iff
  node_some := by
    intro id
    rw [node?, isSome_getElem?]
    rfl
  node_mem := fun id n => getElem?_eq_some_iff_mem h.node_id
  edge_some := by
    intro id
    rw [edge?, isSome_getElem?]
    rfl
  edge_mem := fun id e => getElem?_eq_some_iff_mem h.edge_id
  joined := by
    intro e he
    exact ⟨h.exists_node (h.joined e he).1, h.exists_node (h.joined e he).2⟩
  shown := fun n hn => ⟨h.labelled n hn, h.grouped n hn⟩
  record_ids := by
    constructor
    · rw [toDocument, List.map_map, List.length_map]
      exact map_eq_range h.node_id
    · rw [toDocument, List.map_map, List.length_map]
      exact map_eq_range h.edge_id
  record_joined := by
    intro e he
    obtain ⟨e, mem, rfl⟩ := List.mem_map.1 he
    rw [toDocument, List.length_map]
    exact h.joined e mem
  record_sizes := by
    rw [toDocument, List.map_map]
    rfl

end Coherent

/-- **Every reachable graph is read as it was written.**  After any history of
registrations and walks, numbers are places, a path has at most one node, lookups by path
and by number agree with the lists, and the ends of every edge are nodes, in the graph and
in its document. -/
theorem Reachable.representation {options : GraphOptions} (h : Reachable options g) :
    g.Representation options := by
  have := h.coherent.represents
  rwa [h.options_eq] at this

/-- A graph in which a file includes itself in two spellings is reachable, and so it is read
as it was written. -/
theorem representation_self_include :
    Reachable GraphOptions.default
      ((empty GraphOptions.default).register (Path.ofString "a/b")
        [Path.ofString "a//b", Path.ofString "a/./b"]) ∧
    Representation GraphOptions.default
      ((empty GraphOptions.default).register (Path.ofString "a/b")
        [Path.ofString "a//b", Path.ofString "a/./b"]) := by
  have reachable : Reachable GraphOptions.default _ :=
    Reachable.empty.register (Path.ofString "a/b")
      [Path.ofString "a//b", Path.ofString "a/./b"]
  exact ⟨reachable, Reachable.representation reachable⟩

end IncludeGraph

end IncludeAtlas
