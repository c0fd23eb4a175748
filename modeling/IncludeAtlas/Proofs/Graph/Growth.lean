import IncludeAtlas.Proofs.Graph.History
import Mathlib.Algebra.GroupWithZero.Nat
import Mathlib.Data.Sym.Sym2

/-!
# What becomes of nodes and edges

Nodes and edges never go away and never change their numbers.  An edge stays what it is, and so
does a node, except that it may become scanned once, with the weight of the registration that
scans it.

## Main Definitions

* `IncludeGraph.scannedNodes`, `IncludeGraph.scannedWeight`: the scanned nodes, and what they weigh
  together

## Main Results

* `IncludeGraph.Coherent.node?_register`, `Coherent.node?_replay`: what becomes of a node
* `IncludeGraph.Coherent.mem_of_mem_replay`: where the nodes of paths come from that are not
  registered
* `IncludeGraph.Coherent.exists_edges_register`: the edges of a file that includes no path twice
* `IncludeGraph.edges_prefix_replay`: edges are only added, after the ones that are there
* `IncludeGraph.nodeCount_replay_le`, `Coherent.edgeCount_replay`: how many nodes and edges are
  added
* `IncludeGraph.Coherent.scannedNodes_register`: what a registration does to the scanned nodes
* `IncludeGraph.Coherent.scannedWeight_replay_le`, `Coherent.scannedWeight_replay`: how much weight
  is added
-/

namespace IncludeAtlas

namespace Node

/-- A node is scanned once. -/
@[simp] theorem scan_scan (n : Node) (first later : Nat) :
    (n.scan first).scan later = n.scan first := by
  cases scanned : n.scanned <;> simp [scan, scanned]

/-- Scanning a node changes nothing, or it makes it scanned and gives it its weight. -/
theorem scan_cases (n : Node) (weight : Nat) :
    n.scan weight = n ∨ n.scanned = false ∧ n.scan weight = { n with scanned := true, weight } := by
  cases scanned : n.scanned
  · exact .inr ⟨rfl, by simp [scan, scanned]⟩
  · exact .inl (by simp [scan, scanned])

end Node

namespace IncludeGraph

variable {g : IncludeGraph} {n : Node} {p : Path} {i j weight : Nat}

/-! ## Nodes -/

theorem node?_mention (p : Path) (weight : Nat) (hn : g.node? i = some n) :
    (g.mention p weight).2.node? i = some n := by
  rcases mention_cases g p weight with ⟨j, -, eq⟩ | ⟨-, eq⟩
  · rw [eq]
    exact hn
  · rw [eq]
    exact getElem?_append_singleton_iff.2 (.inl hn)

/-- Includes of a file leave the nodes that are there alone. -/
theorem node?_addIncludes (j : Nat) (ps : List Path) (hn : g.node? i = some n) :
    (g.addIncludes j ps).node? i = some n := by
  induction ps generalizing g with
  | nil => exact hn
  | cons p ps ih => exact ih (node?_mention p 1 hn)

/-- A path is mentioned under the number of a node exactly if it is the path of the node. -/
theorem Coherent.mention_fst_eq_iff (h : g.Coherent) (hn : g.node? i = some n) :
    (g.mention p weight).1 = i ↔ p.Same n.path := by
  have there := node?_mention p weight hn
  have known := registry_mention g p weight
  constructor
  · intro eq
    obtain ⟨m, hm, same⟩ := (h.mention.registered p _).1 known
    rw [eq] at hm
    obtain rfl := Option.some.inj (hm.symm.trans there)
    exact same.symm
  · intro same
    have here := (h.mention.registered p i).2 ⟨n, there, same.symm⟩
    exact Option.some.inj (known.symm.trans here)

/-- **Mentioned one after the other**, two paths get one number exactly if they are one path. -/
theorem Coherent.mention_mention_fst_eq_iff (h : g.Coherent) (q : Path) (later : Nat) :
    ((g.mention p weight).2.mention q later).1 = (g.mention p weight).1 ↔ p.Same q := by
  obtain ⟨n, hn, same⟩ := (h.mention.registered p _).1 (registry_mention g p weight)
  rw [h.mention.mention_fst_eq_iff hn, same.congr_right]
  exact ⟨Path.Same.symm, Path.Same.symm⟩

/-- **What a registration makes of a node**: it is scanned if it is the node of the file, and
otherwise it stays what it is. -/
theorem Coherent.node?_register (h : g.Coherent) (hn : g.node? i = some n) (file : Path)
    (includes : List Path) :
    (g.register file includes).node? i =
      some (if file.Same n.path then n.scan (min includes.length weightBound) else n) := by
  rw [register_eq]
  refine node?_addIncludes _ includes (nodes_markScanned_iff.2 ⟨n, node?_mention file _ hn, ?_⟩)
  simp only [h.mention_fst_eq_iff hn]

/-- **What a history makes of a node**: the first registration of its path scans it. -/
theorem Coherent.node?_replay (h : g.Coherent) (hn : g.node? i = some n)
    (history : List (Path × List Path)) :
    (g.replay history).node? i =
      some (match history.find? fun r => r.1.Same n.path with
        | some r => n.scan (min r.2.length weightBound)
        | none => n) := by
  induction history generalizing g n with
  | nil => exact hn
  | cons r history ih =>
      rw [replay_cons, ih (h.register r.1 r.2) (h.node?_register hn r.1 r.2), List.find?_cons]
      by_cases same : r.1.Same n.path
      · -- later registrations of the path find the node scanned
        simp only [same, if_true, decide_true, Node.scan_path, Node.scan_scan]
        split <;> rfl
      · simp only [same, if_false, decide_false]

/-- **Where no file is registered**: a node under such a path is one that was there, or one that
was made for an include. -/
theorem Coherent.mem_of_mem_replay (h : g.Coherent) {history : List (Path × List Path)}
    (unregistered : ∀ r ∈ history, ¬ r.1.Same n.path) (hn : n ∈ (g.replay history).nodes) :
    n ∈ g.nodes ∨
      n.scanned = false ∧ n.weight = 1 ∧ ∃ r ∈ history, ∃ q ∈ r.2, q.Same n.path := by
  have nothing : ∀ p, p.Same n.path → history.find? (fun r => r.1.Same p) = none := by
    intro p same
    exact find?_registration_eq_none_iff.2 fun r hr sameR => unregistered r hr (sameR.trans same)
  by_cases old : ∃ m ∈ g.nodes, m.path.Same n.path
  · -- the node that the path had is still there, so it is the one it has
    obtain ⟨m, hm, same⟩ := old
    obtain ⟨i, hi⟩ := List.mem_iff_getElem?.1 hm
    have there := h.node?_replay hi history
    rw [nothing m.path same] at there
    obtain rfl := (h.replay history).eq_of_same (List.mem_of_getElem? there) hn same
    exact .inl hm
  · have unknown : g.standing? n.path = none :=
      Option.eq_none_iff_forall_ne_some.2 fun s hs => old (h.exists_node_iff.2 ⟨s, hs⟩)
    have stands := (h.replay history).standing?_of_mem hn
    rw [h.standing?_replay, unknown, nothing n.path (Path.Same.refl _)] at stands
    simp only [Option.getD_none] at stands
    split at stands
    · rename_i included
      have eq := Prod.ext_iff.1 (Option.some.inj stands)
      exact .inr ⟨eq.1.symm, eq.2.symm, included⟩
    · cases stands

/-! ## Edges -/

theorem edges_prefix_addInclude (g : IncludeGraph) (i : Nat) (p : Path) :
    g.edges <+: (g.addInclude i p).edges := by
  rw [← edges_mention g p 1]
  exact List.prefix_append _ _

theorem edges_prefix_addIncludes (g : IncludeGraph) (i : Nat) (ps : List Path) :
    g.edges <+: (g.addIncludes i ps).edges := by
  induction ps generalizing g with
  | nil => exact List.prefix_rfl
  | cons p ps ih => exact (edges_prefix_addInclude g i p).trans (ih _)

/-- A registration adds its edges after the ones that are there. -/
theorem edges_prefix_register (g : IncludeGraph) (file : Path) (includes : List Path) :
    g.edges <+: (g.register file includes).edges := by
  rw [register_eq, ← edges_mention g file (min includes.length weightBound)]
  exact edges_prefix_addIncludes (IncludeGraph.markScanned _ _ _) _ includes

/-- A registration leaves every node its path. -/
theorem Coherent.keeps_register (h : g.Coherent) (file : Path) (includes : List Path) :
    g.Keeps (g.register file includes) := by
  intro i cs hi
  obtain ⟨n, hn, rfl⟩ := Option.map_eq_some_iff.1 hi
  rw [pathAt?, h.node?_register hn, Option.map_some]
  split
  · rw [Node.scan_path]
  · rfl

/-- **Includes that are different paths** get one edge each, and no two of these edges join the
same nodes, whichever way they point. -/
theorem Coherent.exists_edges_register (h : g.Coherent) (file : Path) {includes : List Path}
    (apart : includes.Pairwise fun p q => ¬ p.Same q) :
    ∃ added, (g.register file includes).edges = g.edges ++ added ∧
      added.length = includes.length ∧
      added.Pairwise fun e e' => s(e.source, e.target) ≠ s(e'.source, e'.target) := by
  let g' := g.register file includes
  obtain ⟨added, edges⟩ := edges_prefix_register g file includes
  have ends : added.map g'.endPaths = includes.map fun p =>
      g.options.relation.orient (some file.components) (some p.components) := by
    have all := h.edgePaths_register file includes
    rw [edgePaths, ← edges, List.map_append,
      h.map_endPaths_of_keeps (h.keeps_register file includes)] at all
    exact List.append_cancel_left all
  have different : (added.map g'.endPaths).Pairwise fun x y => s(x.1, x.2) ≠ s(y.1, y.2) := by
    rw [ends, List.pairwise_map]
    refine apart.imp fun {p q} other eq => other ?_
    -- one end of both edges is the file, so the other ends agree
    cases relation : g.options.relation with
    | includes =>
        rw [relation] at eq
        exact Option.some.inj (Sym2.congr_right.1 eq)
    | includedBy =>
        rw [relation] at eq
        exact Option.some.inj (Sym2.congr_left.1 eq)
  refine ⟨added, edges.symm, ?_, ?_⟩
  · rw [← List.length_map g'.endPaths, ends, List.length_map]
  · refine (List.pairwise_map.1 different).imp fun other eq => other ?_
    exact congrArg (Sym2.map g'.pathAt?) eq

theorem edges_prefix_replay (g : IncludeGraph) (history : List (Path × List Path)) :
    g.edges <+: (g.replay history).edges := by
  induction history generalizing g with
  | nil => exact List.prefix_rfl
  | cons r history ih => exact (edges_prefix_register g r.1 r.2).trans (ih _)

/-! ## Sizes -/

theorem nodeCount_mention_le (g : IncludeGraph) (p : Path) (weight : Nat) :
    (g.mention p weight).2.nodeCount ≤ g.nodeCount + 1 := by
  rcases mention_cases g p weight with ⟨i, -, eq⟩ | ⟨-, eq⟩ <;> rw [eq] <;>
    simp [addNode, drawColor, nodeCount]

theorem nodeCount_addIncludes_le (g : IncludeGraph) (i : Nat) (ps : List Path) :
    (g.addIncludes i ps).nodeCount ≤ g.nodeCount + ps.length := by
  induction ps generalizing g with
  | nil => exact Nat.le_refl _
  | cons p ps ih =>
      have step : (g.addInclude i p).nodeCount ≤ g.nodeCount + 1 := nodeCount_mention_le g p 1
      have rest := ih (g.addInclude i p)
      rw [addIncludes_cons, List.length_cons]
      omega

/-- A registration adds at most a node for the file and one for each include. -/
theorem nodeCount_register_le (g : IncludeGraph) (file : Path) (includes : List Path) :
    (g.register file includes).nodeCount ≤ g.nodeCount + 1 + includes.length := by
  have mentioned := nodeCount_mention_le g file (min includes.length weightBound)
  have included := nodeCount_addIncludes_le
    ((g.mention file (min includes.length weightBound)).2.markScanned
      (g.mention file (min includes.length weightBound)).1 (min includes.length weightBound))
    (g.mention file (min includes.length weightBound)).1 includes
  rw [nodeCount_markScanned] at included
  rw [register_eq]
  omega

/-- A history adds at most a node for each registration and each include. -/
theorem nodeCount_replay_le (g : IncludeGraph) (history : List (Path × List Path)) :
    (g.replay history).nodeCount ≤
      g.nodeCount + history.length + (history.flatMap Prod.snd).length := by
  induction history generalizing g with
  | nil => exact Nat.le_refl _
  | cons r history ih =>
      have step := nodeCount_register_le g r.1 r.2
      have rest := ih (g.register r.1 r.2)
      rw [replay_cons, List.length_cons, List.flatMap_cons, List.length_append]
      omega

/-- A history adds an edge for each include. -/
theorem Coherent.edgeCount_replay (h : g.Coherent) (history : List (Path × List Path)) :
    (g.replay history).edgeCount = g.edgeCount + (history.flatMap Prod.snd).length := by
  have paths := congrArg List.length (h.edgePaths_replay history)
  simpa [edgePaths, edgeCount, List.length_flatMap] using paths

/-! ## Scanned nodes -/

/-- The nodes of the files that were scanned. -/
def scannedNodes (g : IncludeGraph) : List Node :=
  g.nodes.filter Node.scanned

/-- What the scanned nodes weigh together. -/
def scannedWeight (g : IncludeGraph) : Nat :=
  (g.scannedNodes.map Node.weight).sum

/-- A new node is not scanned. -/
theorem scannedNodes_mention (g : IncludeGraph) (p : Path) (weight : Nat) :
    (g.mention p weight).2.scannedNodes = g.scannedNodes := by
  rcases mention_cases g p weight with ⟨i, -, eq⟩ | ⟨-, eq⟩
  · rw [eq]
    rfl
  · rw [eq, scannedNodes, addNode, List.filter_append]
    exact List.append_nil _

theorem scannedNodes_addIncludes (g : IncludeGraph) (i : Nat) (ps : List Path) :
    (g.addIncludes i ps).scannedNodes = g.scannedNodes := by
  induction ps generalizing g with
  | nil => rfl
  | cons p ps ih => exact (ih (g.addInclude i p)).trans (scannedNodes_mention g p 1)

/-- Marking a node leaves the others where they are. -/
theorem exists_nodes_markScanned (weight : Nat) (hn : g.node? i = some n) :
    ∃ before after, g.nodes = before ++ n :: after ∧
      (g.markScanned i weight).nodes = before ++ n.scan weight :: after := by
  obtain ⟨lt, here⟩ := List.getElem?_eq_some_iff.1 hn
  obtain ⟨before, m, after, split, length, marked⟩ :=
    List.exists_of_modify (fun n : Node => n.scan weight) lt
  have eq : m = n := by simpa [split, ← length] using here
  exact ⟨before, after, eq ▸ split, eq ▸ marked⟩

/-- Marking a node that is scanned already changes nothing. -/
theorem scannedNodes_markScanned_of_scanned (hn : g.node? i = some n)
    (scanned : n.scanned = true) :
    (g.markScanned i weight).scannedNodes = g.scannedNodes := by
  obtain ⟨before, after, split, marked⟩ := exists_nodes_markScanned weight hn
  have same : n.scan weight = n := if_pos scanned
  rw [scannedNodes, scannedNodes, marked, split, same]

/-- Marking another node adds it to the scanned ones, with its weight. -/
theorem scannedNodes_markScanned_of_not_scanned (hn : g.node? i = some n)
    (unscanned : n.scanned = false) :
    (g.markScanned i weight).scannedNodes.Perm
      ({ n with scanned := true, weight } :: g.scannedNodes) := by
  obtain ⟨before, after, split, marked⟩ := exists_nodes_markScanned weight hn
  have changed : n.scan weight = { n with scanned := true, weight } :=
    if_neg (by rw [unscanned]; exact Bool.false_ne_true)
  rw [scannedNodes, scannedNodes, marked, split, changed, List.filter_append, List.filter_append,
    List.filter_cons_of_pos rfl, List.filter_cons_of_neg (by simp [unscanned])]
  exact List.perm_middle

/-- **What a registration does to the scanned nodes**: nothing if the file is among them, and
otherwise it adds a node for the file, with the number of its includes for a weight. -/
theorem Coherent.scannedNodes_register (h : g.Coherent) (file : Path) (includes : List Path) :
    (∃ n ∈ g.scannedNodes, n.path.Same file) ∧
        (g.register file includes).scannedNodes = g.scannedNodes ∨
      (∀ n ∈ g.scannedNodes, ¬ n.path.Same file) ∧
        ∃ n, n.path.Same file ∧ n.weight = min includes.length weightBound ∧
          (g.register file includes).scannedNodes.Perm (n :: g.scannedNodes) := by
  have mentioned := scannedNodes_mention g file (min includes.length weightBound)
  obtain ⟨n, hn, same⟩ := (h.mention.registered file _).1
    (registry_mention g file (min includes.length weightBound))
  have found : ∀ m ∈ g.scannedNodes, m.path.Same file → m = n := by
    intro m hm sameM
    rw [← mentioned] at hm
    exact h.mention.eq_of_same (List.mem_of_mem_filter hm) (List.mem_of_getElem? hn)
      (sameM.trans same.symm)
  rw [register_eq, scannedNodes_addIncludes]
  cases scanned : n.scanned with
  | true =>
      refine .inl ⟨⟨n, ?_, same⟩, ?_⟩
      · rw [← mentioned]
        exact List.mem_filter.2 ⟨List.mem_of_getElem? hn, scanned⟩
      · rw [scannedNodes_markScanned_of_scanned hn scanned, mentioned]
  | false =>
      refine .inr ⟨fun m hm sameM => ?_,
        { n with scanned := true, weight := min includes.length weightBound }, same, rfl,
        mentioned ▸ scannedNodes_markScanned_of_not_scanned hn scanned⟩
      rw [found m hm sameM] at hm
      cases scanned.symm.trans (List.mem_filter.1 hm).2

/-- A history adds at most a scanned node for each registration. -/
theorem Coherent.length_scannedNodes_replay_le (h : g.Coherent)
    (history : List (Path × List Path)) :
    (g.replay history).scannedNodes.length ≤ g.scannedNodes.length + history.length := by
  induction history generalizing g with
  | nil => exact Nat.le_refl _
  | cons r history ih =>
      have rest := ih (h.register r.1 r.2)
      rw [replay_cons, List.length_cons]
      rcases h.scannedNodes_register r.1 r.2 with ⟨-, same⟩ | ⟨-, n, -, -, more⟩
      · rw [same] at rest
        omega
      · rw [more.length_eq, List.length_cons] at rest
        omega

theorem scannedWeight_of_perm {g' : IncludeGraph}
    (more : g'.scannedNodes.Perm (n :: g.scannedNodes)) :
    g'.scannedWeight = n.weight + g.scannedWeight :=
  (more.map Node.weight).sum_nat

/-- The scanned nodes gain no more weight than there are includes. -/
theorem Coherent.scannedWeight_replay_le (h : g.Coherent) (history : List (Path × List Path)) :
    (g.replay history).scannedWeight ≤ g.scannedWeight + (history.flatMap Prod.snd).length := by
  induction history generalizing g with
  | nil => exact Nat.le_refl _
  | cons r history ih =>
      have rest := ih (h.register r.1 r.2)
      rw [replay_cons, List.flatMap_cons, List.length_append]
      rcases h.scannedNodes_register r.1 r.2 with ⟨-, same⟩ | ⟨-, n, -, weight, more⟩
      · have kept : (g.register r.1 r.2).scannedWeight = g.scannedWeight := by
          rw [scannedWeight, same, scannedWeight]
        omega
      · have gained := scannedWeight_of_perm more
        have bounded : n.weight ≤ r.2.length := weight ▸ Nat.min_le_left _ _
        omega

/-- They gain exactly that if the files are different, not scanned before, and do not include too
much. -/
theorem Coherent.scannedWeight_replay (h : g.Coherent) {history : List (Path × List Path)}
    (unscanned : ∀ r ∈ history, ∀ n ∈ g.scannedNodes, ¬ n.path.Same r.1)
    (different : history.Pairwise fun r r' => ¬ r.1.Same r'.1)
    (short : ∀ r ∈ history, r.2.length ≤ weightBound) :
    (g.replay history).scannedWeight = g.scannedWeight + (history.flatMap Prod.snd).length := by
  induction history generalizing g with
  | nil => rfl
  | cons r history ih =>
      obtain ⟨new, others⟩ := List.forall_mem_cons.1 unscanned
      obtain ⟨other, different⟩ := List.pairwise_cons.1 different
      obtain ⟨shortFile, short⟩ := List.forall_mem_cons.1 short
      rcases h.scannedNodes_register r.1 r.2 with ⟨⟨n, hn, same⟩, -⟩ | ⟨-, n, same, weight, more⟩
      · exact absurd same (new n hn)
      · have still : ∀ r' ∈ history, ∀ m ∈ (g.register r.1 r.2).scannedNodes,
            ¬ m.path.Same r'.1 := by
          intro r' hr' m hm sameM
          rcases List.mem_cons.1 (more.mem_iff.1 hm) with rfl | hm
          · exact other r' hr' (same.symm.trans sameM)
          · exact others r' hr' m hm sameM
        rw [replay_cons, ih (h.register r.1 r.2) still different short, scannedWeight_of_perm more,
          weight, Nat.min_eq_left shortFile, List.flatMap_cons, List.length_append]
        omega

end IncludeGraph

end IncludeAtlas
