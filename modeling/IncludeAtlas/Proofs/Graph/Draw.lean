import IncludeAtlas.Proofs.Graph.Numbering

/-!
# Which draws a node shows

Every mention of a path takes four draws for a color, and every new node takes two more for its
place.  Whether a mention brings a new node depends on all mentions before it, and still the
draws of a node can be told from two numbers: its own, and the position of its first mention.

## Main Definitions

* `Node.fresh`: the node that is added where some draws are next
* `Path.FreshAt`: a path is mentioned at a place of a row and not before
* `Node.Wears`: a node shows the draws of its number and of a place
* `IncludeGraph.Drawn`: a graph has taken the draws of a row of mentions and shows them

## Main Results

* `IncludeGraph.mention_eq`: a mention is four draws, and six if it adds a node
* `IncludeGraph.draws_mention`: how many draws that is, by the nodes
* `IncludeGraph.Drawn.mention`: one more mention keeps every node at its draws
* `IncludeGraph.cosmetics_replay`: the nodes of a history show the draws of their first mentions

## What is load-bearing

The nodes that are there when a path is first mentioned are those with smaller numbers.  So
node `i`, first mentioned at place `j`, comes after `j` colors and `i` placements, and
`Drawn.draws` carries this count from one mention to the next.
-/

namespace IncludeAtlas

/-! ## New nodes -/

/-- The place in a row of draws that is some draws further on. -/
def Draws.skip (d : Draws) (n : Nat) : Draws :=
  { d with taken := d.taken + n }

/-- The node that a graph under some options adds for a path, from the draws that are next when
the path is mentioned. -/
def Node.fresh (o : GraphOptions) (d : Draws) (id : Nat) (p : Path) (weight : Nat) : Node where
  id := id
  path := p
  label := p.label o.fullPath
  group := p.group o.granularity
  weight := weight
  placement := (Placement.draw (d.skip 4)).1
  color := (o.palette.color d).1
  scanned := false

@[simp] theorem Node.scan_color (n : Node) (weight : Nat) : (n.scan weight).color = n.color := by
  unfold scan
  split <;> rfl

@[simp] theorem Node.scan_placement (n : Node) (weight : Nat) :
    (n.scan weight).placement = n.placement := by
  unfold scan
  split <;> rfl

/-- **What a mention does**: four draws if the path has a node, and otherwise six draws and a
node that shows them. -/
theorem IncludeGraph.mention_eq (g : IncludeGraph) (p : Path) (weight : Nat) :
    g.mention p weight =
      match g.registry.get? p with
      | some i => (i, { g with draws := g.draws.skip 4 })
      | none => (g.nodeCount, { g with
          nodes := g.nodes ++ [Node.fresh g.options g.draws g.nodeCount p weight]
          registry := g.registry.insert p g.nodeCount
          draws := g.draws.skip 6 }) := by
  rcases mention_cases g p weight with ⟨i, known, eq⟩ | ⟨fresh, eq⟩
  · rw [eq, known]
    rfl
  · rw [eq, fresh]
    rfl

/-! ## First mentions and draws -/

/-- A path is mentioned at a place of a row, in this spelling, and not before. -/
def Path.FreshAt (p : Path) (ps : List Path) (j : Nat) : Prop :=
  ps[j]? = some p ∧ ∀ i < j, ∀ q, ps[i]? = some q → ¬ q.Same p

namespace Path.FreshAt

variable {p q : Path} {ps qs : List Path} {i j : Nat}

/-- A path is fresh at one place. -/
theorem unique (h : p.FreshAt ps i) (h' : p.FreshAt ps j) : i = j := by
  rcases Nat.lt_trichotomy i j with lt | eq | gt
  · exact absurd (Same.refl p) (h'.2 i lt p h.1)
  · exact eq
  · exact absurd (Same.refl p) (h.2 j gt p h'.1)

/-- Later mentions do not move the first one. -/
theorem append (h : p.FreshAt ps j) (qs : List Path) : p.FreshAt (ps ++ qs) j := by
  have inside : j < ps.length := (List.getElem?_eq_some_iff.1 h.1).1
  refine ⟨?_, fun i lt q hq => h.2 i lt q ?_⟩
  · rw [List.getElem?_append_left inside]
    exact h.1
  · rwa [List.getElem?_append_left (Nat.lt_trans lt inside)] at hq

/-- A path that no mention of a row spells is fresh right after the row. -/
theorem length (h : ∀ q ∈ ps, ¬ q.Same p) : p.FreshAt (ps ++ [p]) ps.length := by
  refine ⟨List.getElem?_concat_length, fun i lt q hq => h q ?_⟩
  rw [List.getElem?_append_left lt] at hq
  exact List.mem_of_getElem? hq

end Path.FreshAt

/-- A node shows the draws of a seed that belong to its number and to a place among the
mentions: four for its color, and the next two for where it stands. -/
structure Node.Wears (n : Node) (palette : Palette) (seed : UInt64) (j : Nat) : Prop where
  /-- Red, green, blue and the opacity show one draw each, in this order.  A draw moves a channel
  of the base color by up to the variation, in whole steps and not out of 8 to 255, and the
  opacity is the draw itself where that is above the bound. -/
  color :
    let draw (k : Nat) := Random.fraction (Random.keyOfSeed seed) (4 * j + 2 * n.id + k)
    let moved (channel : UInt8) (k : Nat) : Int :=
      (channel.toFloat + (2.0 * draw k - 1.0) * palette.variation.toFloat).toInt64.toInt
    let red := max 8 (min (moved palette.base.red 0) 255)
    let green := max 8 (min (moved palette.base.green 1) 255)
    let blue := max 8 (min (moved palette.base.blue 2) 255)
    let opacity := if draw 3 ≤ palette.alphaMin then palette.alphaMin else draw 3
    n.color = "rgba(" ++ Natural.text red.toNat ++ "," ++ Natural.text green.toNat ++ ","
      ++ Natural.text blue.toNat ++ "," ++ Decimal.display opacity ++ ")"
  placement : n.placement =
    ⟨Random.fraction (Random.keyOfSeed seed) (4 * j + 2 * n.id + 4) * 0.01,
      Random.fraction (Random.keyOfSeed seed) (4 * j + 2 * n.id + 5) * 0.01⟩

namespace Node.Wears

variable {n : Node} {palette : Palette} {seed : UInt64} {j : Nat}

/-- Scanning changes nothing that a node shows of its draws. -/
theorem scan (h : n.Wears palette seed j) (weight : Nat) :
    (n.scan weight).Wears palette seed j where
  color := by
    rw [scan_color, scan_id]
    exact h.color
  placement := by
    rw [scan_placement, scan_id]
    exact h.placement

/-- A new node shows the draws that are next. -/
theorem fresh (o : GraphOptions) (id : Nat) (p : Path) (weight : Nat) :
    (Node.fresh o ⟨Random.keyOfSeed seed, 4 * j + 2 * id⟩ id p weight).Wears o.palette seed j :=
  ⟨rfl, rfl⟩

end Node.Wears

namespace IncludeGraph

variable {g : IncludeGraph} {palette : Palette} {seed : UInt64} {p : Path} {ps : List Path}
  {i weight : Nat}

/-- A graph has taken the draws of a row of mentions, and its nodes show them. -/
structure Drawn (palette : Palette) (seed : UInt64) (ps : List Path) (g : IncludeGraph) :
    Prop where
  colored : g.options.palette = palette
  /-- The nodes are the first mentions, in their order and spelling. -/
  paths : g.paths = Path.firsts ps
  /-- Four draws are taken for every mention and two for every node. -/
  draws : g.draws = ⟨Random.keyOfSeed seed, 4 * ps.length + 2 * g.nodeCount⟩
  /-- Every node shows the draws of its first mention. -/
  worn : ∀ n ∈ g.nodes, ∃ j, n.path.FreshAt ps j ∧ n.Wears palette seed j

/-! ## The steps -/

/-- A path without a number is none of those mentioned so far. -/
theorem Coherent.not_same_of_fresh (h : g.Coherent) (here : g.paths = Path.firsts ps)
    (fresh : g.registry.get? p = none) : ∀ q ∈ ps, ¬ q.Same p := by
  intro q hq same
  have known := h.exists_mem_paths_iff.1 (here ▸ Path.exists_mem_firsts_iff.2 ⟨q, hq, same⟩)
  rw [fresh] at known
  simp at known

/-- A mention takes four draws, and two more if it adds a node. -/
theorem draws_mention (g : IncludeGraph) (p : Path) (weight : Nat) :
    (g.mention p weight).2.draws =
      g.draws.skip (4 + 2 * ((g.mention p weight).2.nodeCount - g.nodeCount)) := by
  rw [mention_eq]
  cases g.registry.get? p with
  | some i => simp [nodeCount]
  | none => simp [nodeCount]

/-- **One more mention** keeps every node at its draws, and a node that it adds shows the draws
that are next. -/
theorem Drawn.mention (d : g.Drawn palette seed ps) (h : g.Coherent) :
    (g.mention p weight).2.Drawn palette seed (ps ++ [p]) where
  colored := by
    rw [options_mention]
    exact d.colored
  paths := h.paths_mention_of_firsts d.paths
  draws := by
    have grows := nodeCount_le_mention g p weight
    rw [draws_mention, d.draws, List.length_append, List.length_singleton]
    simp only [Draws.skip, Draws.mk.injEq, true_and]
    omega
  worn := by
    have kept : ∀ n ∈ g.nodes, ∃ j, n.path.FreshAt (ps ++ [p]) j ∧ n.Wears palette seed j := by
      intro n hn
      obtain ⟨j, first, wears⟩ := d.worn n hn
      exact ⟨j, first.append [p], wears⟩
    rw [mention_eq]
    cases known : g.registry.get? p with
    | some i => exact kept
    | none =>
        intro n hn
        rcases List.mem_append.1 hn with hn | hn
        · exact kept n hn
        · -- before the new node there are `ps.length` colors and as many places as nodes
          rw [List.mem_singleton.1 hn, d.draws, ← d.colored]
          exact ⟨ps.length, .length (h.not_same_of_fresh d.paths known), .fresh _ _ _ _⟩

/-- Scanning moves no node and takes no draw. -/
theorem Drawn.markScanned (d : g.Drawn palette seed ps) :
    (g.markScanned i weight).Drawn palette seed ps where
  colored := d.colored
  paths := (paths_markScanned g i weight).trans d.paths
  draws := by
    rw [nodeCount_markScanned]
    exact d.draws
  worn := by
    intro n hn
    obtain ⟨j, hj⟩ := List.mem_iff_getElem?.1 hn
    obtain ⟨m, hm, rfl⟩ := nodes_markScanned_iff.1 hj
    obtain ⟨j, first, wears⟩ := d.worn m (List.mem_of_getElem? hm)
    refine ⟨j, ?_⟩
    split
    · rw [Node.scan_path]
      exact ⟨first, wears.scan weight⟩
    · exact ⟨first, wears⟩

/-- An edge has no draws. -/
theorem Drawn.addEdge (d : g.Drawn palette seed ps) (i j : Nat) :
    (g.addEdge i j).Drawn palette seed ps :=
  ⟨d.colored, d.paths, d.draws, d.worn⟩

/-! ## Histories -/

theorem Drawn.addInclude (d : g.Drawn palette seed ps) (h : g.Coherent) :
    (g.addInclude i p).Drawn palette seed (ps ++ [p]) :=
  (d.mention h).addEdge _ _

/-- The includes of a file are mentioned one after the other. -/
theorem Drawn.addIncludes (d : g.Drawn palette seed ps) (h : g.Coherent) (hi : i < g.nodeCount)
    (qs : List Path) : (g.addIncludes i qs).Drawn palette seed (ps ++ qs) := by
  induction qs generalizing g ps with
  | nil => rwa [List.append_nil]
  | cons q qs ih =>
      rw [List.append_cons]
      exact ih (d.addInclude h) (h.addInclude hi)
        (Nat.lt_of_lt_of_le hi (nodeCount_le_addInclude g i q))

/-- A registration mentions the file and then what it includes. -/
theorem Drawn.register (d : g.Drawn palette seed ps) (h : g.Coherent) (file : Path)
    (includes : List Path) :
    (g.register file includes).Drawn palette seed (ps ++ file :: includes) := by
  have known := h.mention.lt_nodeCount
    (registry_mention g file (min includes.length weightBound))
  rw [register_eq, List.append_cons]
  exact (d.mention h).markScanned.addIncludes h.mention.markScanned
    (by rwa [nodeCount_markScanned]) includes

theorem Drawn.replay (d : g.Drawn palette seed ps) (h : g.Coherent)
    (history : List (Path × List Path)) :
    (g.replay history).Drawn palette seed (ps ++ mentions history) := by
  induction history generalizing g ps with
  | nil => rwa [mentions, List.flatMap_nil, List.append_nil]
  | cons r history ih =>
      have step := ih (d.register h r.1 r.2) (h.register r.1 r.2)
      rwa [List.append_assoc] at step

/-- A graph without nodes has taken no draw. -/
theorem drawn_empty (options : GraphOptions) (seed : UInt64) :
    (empty { options with seed := some seed }).Drawn options.palette seed [] where
  colored := rfl
  paths := rfl
  draws := rfl
  worn := by simp [empty]

/-- A history from the beginning: every node shows the draws of its first mention. -/
theorem drawn_replay_empty (options : GraphOptions) (seed : UInt64)
    (history : List (Path × List Path)) :
    ((empty { options with seed := some seed }).replay history).Drawn options.palette seed
      (mentions history) :=
  (drawn_empty options seed).replay (coherent_empty _) history

/-- A node shows the draws of its first mention, wherever that is. -/
theorem Drawn.wears (d : g.Drawn palette seed ps) {n : Node} (hn : n ∈ g.nodes) {j : Nat}
    (first : n.path.FreshAt ps j) : n.Wears palette seed j := by
  obtain ⟨j', first', wears⟩ := d.worn n hn
  rwa [first.unique first']

/-- **The draws of a node are known from its number and its first mention.**  In every history
under a seed, node `i` with its first mention at place `j` shows the draws from `4 * j + 2 * i`
on, and `m` mentions with `n` nodes take `4 * m + 2 * n` draws.  So whatever else two histories
and their options differ in, nodes of one number and one first place look alike. -/
theorem cosmetics_replay (options : GraphOptions) (seed : UInt64)
    (history : List (Path × List Path)) :
    ((empty { options with seed := some seed }).replay history).Drawn options.palette seed
      (mentions history) ∧
    ∀ (options' : GraphOptions) (history' : List (Path × List Path)),
      options'.palette = options.palette →
      ∀ n ∈ ((empty { options with seed := some seed }).replay history).nodes,
      ∀ n' ∈ ((empty { options' with seed := some seed }).replay history').nodes,
      ∀ j, n.id = n'.id → n.path.FreshAt (mentions history) j →
        n'.path.FreshAt (mentions history') j →
        n.color = n'.color ∧ n.placement = n'.placement := by
  have drawn := drawn_replay_empty options seed history
  refine ⟨drawn, fun options' history' palette n hn n' hn' j id first first' => ?_⟩
  have wears := drawn.wears hn first
  have wears' := (drawn_replay_empty options' seed history').wears hn' first'
  rw [palette] at wears'
  constructor
  · rw [wears.color, wears'.color, id]
  · rw [wears.placement, wears'.placement, id]

/-- Two files, each of which includes the other, and the second one also a third. -/
def mutualHistory : List (Path × List Path) :=
  [(Path.ofString "a.h", [Path.ofString "b.h"]),
    (Path.ofString "b.h", [Path.ofString "a.h", Path.ofString "c.h"])]

/-- The third file gets the number two. -/
theorem exists_node_mutualHistory (options : GraphOptions) (seed : UInt64) :
    ∃ n ∈ ((empty { options with seed := some seed }).replay mutualHistory).nodes,
      n.id = 2 ∧ n.path = Path.ofString "c.h" := by
  have paths := (drawn_replay_empty options seed mutualHistory).paths
  rw [show Path.firsts (mentions mutualHistory) =
    [Path.ofString "a.h", Path.ofString "b.h", Path.ofString "c.h"] by decide] at paths
  have third := congrArg (fun ps => ps[2]?) paths
  rw [IncludeGraph.paths, List.getElem?_map] at third
  obtain ⟨n, hn, path⟩ := Option.map_eq_some_iff.1 third
  exact ⟨n, List.mem_of_getElem? hn, ((coherent_empty _).replay mutualHistory).node_id hn, path⟩

/-- The third file is first mentioned at place four.  So the draws from number 20 on color it,
each channel around that of the usual base color and by no more than 200, it stands where the
draws number 24 and 25 put it, and it looks the same in a graph whose edges and labels are
others. -/
theorem cosmetics_mutualHistory :
    let draw (k : Nat) := Random.fraction (Random.keyOfSeed 7) k
    let moved (channel : UInt8) (k : Nat) : Int :=
      (channel.toFloat + (2.0 * draw k - 1.0) * (200 : UInt32).toFloat).toInt64.toInt
    let red := max 8 (min (moved 234 20) 255)
    let green := max 8 (min (moved 82 21) 255)
    let blue := max 8 (min (moved 77 22) 255)
    let opacity := if draw 23 ≤ 0.7 then 0.7 else draw 23
    ∃ n ∈ ((empty { GraphOptions.default with seed := some 7 }).replay mutualHistory).nodes,
    ∃ n' ∈ ((empty { GraphOptions.default with
      seed := some 7, relation := .includes, fullPath := true }).replay mutualHistory).nodes,
    n.id = 2 ∧ n.path.FreshAt (mentions mutualHistory) 4 ∧
      n.color = "rgba(" ++ Natural.text red.toNat ++ "," ++ Natural.text green.toNat ++ ","
        ++ Natural.text blue.toNat ++ "," ++ Decimal.display opacity ++ ")" ∧
      n.placement = ⟨draw 24 * 0.01, draw 25 * 0.01⟩ ∧
      n.color = n'.color ∧ n.placement = n'.placement := by
  intro draw moved red green blue opacity
  obtain ⟨n, hn, id, path⟩ := exists_node_mutualHistory GraphOptions.default 7
  obtain ⟨n', hn', id', path'⟩ := exists_node_mutualHistory
    { GraphOptions.default with relation := .includes, fullPath := true } 7
  have first : (Path.ofString "c.h").FreshAt (mentions mutualHistory) 4 :=
    ⟨by decide, by decide⟩
  have cosmetics := cosmetics_replay GraphOptions.default 7 mutualHistory
  have wears := cosmetics.1.wears hn (path ▸ first)
  refine ⟨n, hn, n', hn', id, path ▸ first, ?_, ?_, ?_⟩
  · rw [wears.color, id]
    rfl
  · rw [wears.placement, id]
  · exact cosmetics.2 _ mutualHistory rfl n hn n' hn' 4 (id.trans id'.symm) (path ▸ first)
      (path' ▸ first)

end IncludeGraph

end IncludeAtlas
