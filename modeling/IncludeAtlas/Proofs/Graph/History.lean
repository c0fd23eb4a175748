import IncludeAtlas.Proofs.Graph.Coherence

/-!
# What a history of registrations leaves behind

A graph is built by registering one file after the other.  This module reads off the
history what the graph says of a path, and which edges it has, without running it.

## Main Definitions

* `IncludeGraph.replay`: registers the files of a history
* `IncludeGraph.standing?`: whether a path was scanned, and its weight
* `IncludeGraph.edgePaths`: the edges as the paths they join

## Main Results

* `IncludeGraph.Coherent.standing?_replay`: a file stands as its first registration left it,
  and a path that is only included has weight one
* `IncludeGraph.Coherent.edgePaths_replay`: every include of every registration is one edge,
  in the order of the history

## Design notes

Paths are read as their components.  A node keeps the spelling of its first mention, so the
spelling of an end of an edge depends on the whole history, and its components do not.
-/

namespace IncludeAtlas

namespace IncludeGraph

variable {g g' : IncludeGraph} {p q : Path} {i j weight : Nat} {color : String}

/-- Registers files with their includes, one after the other. -/
def replay (g : IncludeGraph) (history : List (Path × List Path)) : IncludeGraph :=
  history.foldl (fun g r => g.register r.1 r.2) g

/-- A history is replayed one registration after the other. -/
theorem replay_cons (g : IncludeGraph) (r : Path × List Path) (history : List (Path × List Path)) :
    g.replay (r :: history) = (g.register r.1 r.2).replay history := rfl

/-- The includes of a file are added one after the other. -/
theorem addIncludes_cons (g : IncludeGraph) (i : Nat) (p : Path) (ps : List Path) :
    g.addIncludes i (p :: ps) = (g.addInclude i p).addIncludes i ps := rfl

theorem enter_eq_replay (g : IncludeGraph) (found : List ScannedFile) :
    Scanner.enter g found = g.replay (found.map fun f => (f.path, f.includes)) := by
  simp [Scanner.enter, replay, List.foldl_map]

/-- A replay keeps the records together. -/
theorem Coherent.replay (h : g.Coherent) (history : List (Path × List Path)) :
    (g.replay history).Coherent := by
  induction history generalizing g with
  | nil => exact h
  | cons r history ih => exact ih (h.register r.1 r.2)

/-! ## What a graph says of a path -/

/-- Whether a path was scanned, and its weight, if it has a node. -/
def standing? (g : IncludeGraph) (p : Path) : Option (Bool × Nat) :=
  (g.find? p).map fun n => (n.scanned, n.weight)

/-- How a path stands once it is scanned: the first time fixes the weight. -/
def scanStanding (weight : Nat) (s : Bool × Nat) : Bool × Nat :=
  (true, if s.1 then s.2 else weight)

theorem find?_congr (g : IncludeGraph) (same : p.Same q) : g.find? p = g.find? q := by
  rw [find?, find?, g.registry.get?_congr same]

theorem standing?_congr (g : IncludeGraph) (same : p.Same q) :
    g.standing? p = g.standing? q := by
  rw [standing?, standing?, g.find?_congr same]

theorem standing?_empty (options : GraphOptions) (p : Path) :
    (empty options).standing? p = none := rfl

/-- A path that the registry knows has a standing. -/
theorem Coherent.standing?_of_known (h : g.Coherent) (known : g.registry.get? p = some i) :
    ∃ s, g.standing? p = some s := by
  obtain ⟨n, hn, -⟩ := (h.registered p i).1 known
  exact ⟨(n.scanned, n.weight), by simp [standing?, find?, known, node?, hn]⟩

/-- A new node is found for its path, and for every other path what was found before. -/
theorem Coherent.find?_addNode (h : g.Coherent) :
    (g.addNode p color weight).find? q =
      if p.Same q then some (g.newNode p color weight) else g.find? q := by
  rw [find?, IncludeGraph.addNode, Registry.get?_insert]
  split
  · simp [node?, nodeCount]
  · cases known : g.registry.get? q with
    | none => simp [find?, known]
    | some i =>
        have lt : i < g.nodes.length := h.lt_nodeCount known
        simp [find?, known, node?, List.getElem?_append_left lt]

/-- A mention gives a path a standing if it has none, and changes no other. -/
theorem Coherent.standing?_mention (h : g.Coherent) :
    (g.mention p weight).2.standing? q =
      if p.Same q then some ((g.standing? q).getD (false, weight)) else g.standing? q := by
  rcases mention_cases g p weight with ⟨i, known, eq⟩ | ⟨fresh, eq⟩
  · rw [eq]
    show g.standing? q = _
    split
    · rename_i same
      rw [g.registry.get?_congr same] at known
      obtain ⟨s, hs⟩ := h.standing?_of_known known
      rw [hs, Option.getD_some]
    · rfl
  · rw [eq, standing?, h.drawColor.find?_addNode]
    split
    · rename_i same
      rw [g.registry.get?_congr same] at fresh
      have none : g.standing? q = none := by
        rw [standing?, find?, fresh, Option.bind_none, Option.map_none]
      rw [none]
      rfl
    · rfl

/-- Scanning a file changes its own node and no other. -/
theorem Coherent.find?_markScanned (h : g.Coherent) (known : g.registry.get? p = some i) :
    (g.markScanned i weight).find? q =
      if p.Same q then (g.find? q).map fun n => n.scan weight else g.find? q := by
  have reads : (g.markScanned i weight).find? q =
      (g.registry.get? q).bind fun j =>
        (g.nodes[j]?).map fun n => if i = j then n.scan weight else n := by
    rw [find?]
    exact congrArg _ (funext fun j => by rw [node?, IncludeGraph.markScanned, List.getElem?_modify]; rfl)
  rw [reads, find?]
  split
  · rename_i same
    rw [← g.registry.get?_congr same, known]
    simp [node?]
  · rename_i other
    cases knownq : g.registry.get? q with
    | none => rfl
    | some j =>
        have ne : i ≠ j := by
          rintro rfl
          obtain ⟨n, hn, same⟩ := (h.registered p i).1 known
          obtain ⟨m, hm, sameq⟩ := (h.registered q i).1 knownq
          obtain rfl := Option.some.inj (hn.symm.trans hm)
          exact other (same.symm.trans sameq)
        simp [node?, ne]

/-- Scanning a file changes its own standing and no other. -/
theorem Coherent.standing?_markScanned (h : g.Coherent) (known : g.registry.get? p = some i) :
    (g.markScanned i weight).standing? q =
      if p.Same q then (g.standing? q).map (scanStanding weight) else g.standing? q := by
  rw [standing?, h.find?_markScanned known, standing?]
  split
  · rw [Option.map_map, Option.map_map]
    congr 1
    funext n
    cases scanned : n.scanned <;> simp [Node.scan, scanStanding, scanned]
  · rfl

/-- An include gives a path a standing if it has none. -/
theorem Coherent.standing?_addInclude (h : g.Coherent) :
    (g.addInclude i p).standing? q =
      if p.Same q then some ((g.standing? q).getD (false, 1)) else g.standing? q :=
  h.standing?_mention

/-- Includes give standings to the paths that have none. -/
theorem Coherent.standing?_addIncludes (h : g.Coherent) (hi : i < g.nodeCount)
    (ps : List Path) :
    (g.addIncludes i ps).standing? q =
      if ∃ p ∈ ps, p.Same q then some ((g.standing? q).getD (false, 1))
      else g.standing? q := by
  induction ps generalizing g with
  | nil => simp [IncludeGraph.addIncludes]
  | cons p ps ih =>
      have step := ih (h.addInclude hi) (Nat.lt_of_lt_of_le hi (nodeCount_le_addInclude g i p))
      rw [addIncludes_cons, step, h.standing?_addInclude]
      by_cases same : p.Same q <;> by_cases later : ∃ p ∈ ps, p.Same q <;> simp [same, later]

/-- **What a registration makes of a path.**  The file stands as scanned, with the weight
of its first scan; what it includes stands at least as an include; all else stands as
before. -/
theorem Coherent.standing?_register (h : g.Coherent) (file : Path) (includes : List Path) :
    (g.register file includes).standing? q =
      if file.Same q then
        some (scanStanding (min includes.length weightBound)
          ((g.standing? q).getD (false, min includes.length weightBound)))
      else if ∃ p ∈ includes, p.Same q then some ((g.standing? q).getD (false, 1))
      else g.standing? q := by
  have known := registry_mention g file (min includes.length weightBound)
  rw [register_eq, h.mention.markScanned.standing?_addIncludes
    (by rw [nodeCount_markScanned]; exact h.mention.lt_nodeCount known),
    h.mention.standing?_markScanned known, h.standing?_mention]
  by_cases same : file.Same q <;> by_cases later : ∃ p ∈ includes, p.Same q <;>
    simp [same, later]

/-- **What a history makes of a path.**  A path that was scanned before the history keeps
its standing.  Every other one stands as its first registration leaves it, and if it is not
registered but included, it stands as an include. -/
theorem Coherent.standing?_replay (h : g.Coherent) (history : List (Path × List Path)) :
    (g.replay history).standing? q =
      match g.standing? q with
      | some (true, w) => some (true, w)
      | s =>
        match history.find? fun r => r.1.Same q with
        | some r => some (true, min r.2.length weightBound)
        | none => if ∃ r ∈ history, ∃ p ∈ r.2, p.Same q then some (s.getD (false, 1)) else s := by
  induction history generalizing g with
  | nil =>
      show g.standing? q = _
      rcases g.standing? q with _ | ⟨_ | _, w⟩ <;> simp
  | cons r history ih =>
      -- what the first registration makes of the path is what the others find
      rw [replay_cons, ih (h.register r.1 r.2), h.standing?_register, List.find?_cons]
      by_cases file : r.1.Same q
      · rcases g.standing? q with _ | ⟨_ | _, w⟩ <;> simp [file, scanStanding]
      · have included : (∃ s ∈ r :: history, ∃ p ∈ s.2, p.Same q) ↔
            (∃ p ∈ r.2, p.Same q) ∨ ∃ s ∈ history, ∃ p ∈ s.2, p.Same q :=
          List.exists_mem_cons_iff _ _ _
        by_cases here : ∃ p ∈ r.2, p.Same q
        · rcases g.standing? q with _ | ⟨_ | _, w⟩ <;> simp [file, here]
        · simp only [file, here, included, if_false, false_or, decide_false]

/-- A history from the beginning: a file has the weight of its first registration, and a
path that is only included has weight one. -/
theorem standing?_replay_empty (options : GraphOptions) (history : List (Path × List Path)) :
    ((empty options).replay history).standing? q =
      match history.find? fun r => r.1.Same q with
      | some r => some (true, min r.2.length weightBound)
      | none => if ∃ r ∈ history, ∃ p ∈ r.2, p.Same q then some (false, 1) else none := by
  rw [(coherent_empty options).standing?_replay, standing?_empty]
  rfl

/-! ## The nodes of a history -/

/-- A node is how its path stands. -/
theorem Coherent.standing?_of_mem (h : g.Coherent) {n : Node} (hn : n ∈ g.nodes) :
    g.standing? n.path = some (n.scanned, n.weight) := by
  rw [standing?, h.find?_eq_some_iff.2 ⟨hn, Path.Same.refl _⟩, Option.map_some]

/-- A path stands as its node. -/
theorem Coherent.exists_node_iff (h : g.Coherent) :
    (∃ n ∈ g.nodes, n.path.Same q) ↔ ∃ s, g.standing? q = some s := by
  constructor
  · rintro ⟨n, hn, same⟩
    exact ⟨_, (g.standing?_congr same).symm.trans (h.standing?_of_mem hn)⟩
  · rintro ⟨s, hs⟩
    obtain ⟨n, found, -⟩ := Option.map_eq_some_iff.1 hs
    exact ⟨n, h.find?_eq_some_iff.1 found⟩

/-- A path stands as scanned exactly if its node is. -/
theorem Coherent.exists_scanned_iff (h : g.Coherent) :
    (∃ n ∈ g.nodes, n.scanned = true ∧ n.path.Same q) ↔
      ∃ weight, g.standing? q = some (true, weight) := by
  constructor
  · rintro ⟨n, hn, scanned, same⟩
    refine ⟨n.weight, ?_⟩
    rw [← g.standing?_congr same, h.standing?_of_mem hn, scanned]
  · rintro ⟨weight, stands⟩
    obtain ⟨n, found, eq⟩ := Option.map_eq_some_iff.1 stands
    obtain ⟨hn, same⟩ := h.find?_eq_some_iff.1 found
    exact ⟨n, hn, congrArg Prod.fst eq, same⟩

section

variable {options : GraphOptions} {history : List (Path × List Path)} {r : Path × List Path}

/-- The first registration of a path is one of them. -/
theorem mem_of_find?_registration (found : history.find? (fun r => r.1.Same q) = some r) :
    r ∈ history ∧ r.1.Same q :=
  ⟨List.mem_of_find?_eq_some found, by simpa using List.find?_some found⟩

theorem find?_registration_eq_none_iff :
    history.find? (fun r => r.1.Same q) = none ↔ ∀ r ∈ history, ¬ r.1.Same q := by
  simp only [List.find?_eq_none, decide_eq_true_eq]

/-- The paths with a node are those that had one, and those that are registered or included. -/
theorem Coherent.exists_node_replay_iff (h : g.Coherent) :
    (∃ n ∈ (g.replay history).nodes, n.path.Same q) ↔
      (∃ n ∈ g.nodes, n.path.Same q) ∨ ∃ r ∈ history, r.1.Same q ∨ ∃ p ∈ r.2, p.Same q := by
  rw [(h.replay history).exists_node_iff, h.exists_node_iff, h.standing?_replay]
  cases found : history.find? fun r => r.1.Same q with
  | some r =>
      obtain ⟨mem, same⟩ := mem_of_find?_registration found
      refine iff_of_true ?_ (.inr ⟨r, mem, .inl same⟩)
      rcases g.standing? q with _ | ⟨_ | _, weight⟩ <;> exact ⟨_, rfl⟩
  | none =>
      have other := find?_registration_eq_none_iff.1 found
      have included : (∃ r ∈ history, r.1.Same q ∨ ∃ p ∈ r.2, p.Same q) ↔
          ∃ r ∈ history, ∃ p ∈ r.2, p.Same q :=
        exists_congr fun r => and_congr_right fun hr => or_iff_right (other r hr)
      rw [included]
      by_cases here : ∃ r ∈ history, ∃ p ∈ r.2, p.Same q <;>
        rcases g.standing? q with _ | ⟨_ | _, weight⟩ <;> simp [here]

/-- The paths that stand as scanned are those that did, and those that are registered. -/
theorem Coherent.exists_scanned_replay_iff (h : g.Coherent) :
    (∃ n ∈ (g.replay history).nodes, n.scanned = true ∧ n.path.Same q) ↔
      (∃ n ∈ g.nodes, n.scanned = true ∧ n.path.Same q) ∨ ∃ r ∈ history, r.1.Same q := by
  rw [(h.replay history).exists_scanned_iff, h.exists_scanned_iff, h.standing?_replay]
  cases found : history.find? fun r => r.1.Same q with
  | some r =>
      refine iff_of_true ?_ (.inr ⟨r, mem_of_find?_registration found⟩)
      rcases g.standing? q with _ | ⟨_ | _, weight⟩ <;> exact ⟨_, rfl⟩
  | none =>
      have other := find?_registration_eq_none_iff.1 found
      have none : ¬ ∃ r ∈ history, r.1.Same q := fun ⟨r, hr, same⟩ => other r hr same
      rw [or_iff_left none]
      by_cases here : ∃ r ∈ history, ∃ p ∈ r.2, p.Same q <;>
        rcases g.standing? q with _ | ⟨_ | _, weight⟩ <;> simp [here]

/-- From the beginning, the paths with a node are those that are registered or included. -/
theorem exists_node_replay_iff :
    (∃ n ∈ ((empty options).replay history).nodes, n.path.Same q) ↔
      ∃ r ∈ history, r.1.Same q ∨ ∃ p ∈ r.2, p.Same q := by
  rw [(coherent_empty options).exists_node_replay_iff]
  exact or_iff_right fun ⟨_, hn, _⟩ => List.not_mem_nil hn

/-- A node stands as the first registration of its path leaves it, and as an include if there
is none. -/
theorem standing_of_mem_replay {n : Node} (hn : n ∈ ((empty options).replay history).nodes) :
    (n.scanned, n.weight) = match history.find? fun r => r.1.Same n.path with
      | some r => (true, min r.2.length weightBound)
      | none => (false, 1) := by
  have stands := ((coherent_empty options).replay history).standing?_of_mem hn
  rw [standing?_replay_empty] at stands
  cases found : history.find? fun r => r.1.Same n.path with
  | some r =>
      rw [found] at stands
      exact (Option.some.inj stands).symm
  | none =>
      simp only [found] at stands
      split at stands
      · exact (Option.some.inj stands).symm
      · -- what is neither registered nor included has no node
        cases stands

/-- A node is scanned exactly if its path is registered. -/
theorem scanned_replay_iff {n : Node} (hn : n ∈ ((empty options).replay history).nodes) :
    n.scanned = true ↔ ∃ r ∈ history, r.1.Same n.path := by
  have scanned := congrArg Prod.fst (standing_of_mem_replay hn)
  cases found : history.find? fun r => r.1.Same n.path with
  | some r =>
      rw [found] at scanned
      exact iff_of_true scanned ⟨r, mem_of_find?_registration found⟩
  | none =>
      rw [found] at scanned
      refine iff_of_false (Bool.not_eq_true _ ▸ scanned) ?_
      rintro ⟨r, hr, same⟩
      exact find?_registration_eq_none_iff.1 found r hr same

/-- A node has the weight of the first registration of its path, and one if there is
none. -/
theorem weight_replay {n : Node} (hn : n ∈ ((empty options).replay history).nodes) :
    n.weight = match history.find? fun r => r.1.Same n.path with
      | some r => min r.2.length weightBound
      | none => 1 := by
  have weight := congrArg Prod.snd (standing_of_mem_replay hn)
  cases found : history.find? fun r => r.1.Same n.path with
  | some r => rwa [found] at weight
  | none => rwa [found] at weight

end

/-! ## The edges of a history -/

/-- What a number stands for: the components of the path of its node. -/
def pathAt? (g : IncludeGraph) (i : Nat) : Option (List Component) :=
  (g.node? i).map fun n => n.path.components

/-- The paths that an edge joins, from its source to its target. -/
def endPaths (g : IncludeGraph) (e : Edge) : Option (List Component) × Option (List Component) :=
  (g.pathAt? e.source, g.pathAt? e.target)

/-- The edges in the order of their numbers, as the paths they join. -/
def edgePaths (g : IncludeGraph) : List (Option (List Component) × Option (List Component)) :=
  g.edges.map g.endPaths

/-- Whatever stands for a path goes on standing for it. -/
def Keeps (g g' : IncludeGraph) : Prop :=
  ∀ i cs, g.pathAt? i = some cs → g'.pathAt? i = some cs

theorem Keeps.trans {g'' : IncludeGraph} (h : g.Keeps g') (h' : g'.Keeps g'') : g.Keeps g'' :=
  fun i cs hi => h' i cs (h i cs hi)

theorem keeps_addNode (g : IncludeGraph) (p : Path) (color : String) (weight : Nat) :
    g.Keeps (g.addNode p color weight) := by
  intro i cs hi
  obtain ⟨n, hn, rfl⟩ := Option.map_eq_some_iff.1 hi
  have lt : i < g.nodes.length := (List.getElem?_eq_some_iff.1 hn).1
  rw [pathAt?, node?, addNode, List.getElem?_append_left lt]
  exact hi

theorem keeps_mention (g : IncludeGraph) (p : Path) (weight : Nat) :
    g.Keeps (g.mention p weight).2 := by
  rcases mention_cases g p weight with ⟨i, -, eq⟩ | ⟨-, eq⟩
  · rw [eq]
    exact fun i cs hi => hi
  · rw [eq]
    exact keeps_addNode g.drawColor.2 p g.drawColor.1 weight

theorem pathAt?_markScanned (g : IncludeGraph) (i j weight : Nat) :
    (g.markScanned i weight).pathAt? j = g.pathAt? j := by
  rw [pathAt?, pathAt?, node?, node?, markScanned, List.getElem?_modify]
  cases g.nodes[j]? with
  | none => rfl
  | some n => by_cases eq : i = j <;> simp [eq]

theorem keeps_addInclude (g : IncludeGraph) (i : Nat) (p : Path) :
    g.Keeps (g.addInclude i p) :=
  keeps_mention g p 1

/-- The ends of the edges of a coherent graph go on being the same paths. -/
theorem Coherent.map_endPaths_of_keeps (h : g.Coherent) (keeps : g.Keeps g') :
    g.edges.map g'.endPaths = g.edgePaths := by
  refine List.map_congr_left fun e he => ?_
  have kept : ∀ i < g.nodeCount, g'.pathAt? i = g.pathAt? i := by
    intro i hi
    have : g.pathAt? i = some g.nodes[i].path.components := by
      rw [pathAt?, node?, List.getElem?_eq_getElem hi, Option.map_some]
    rw [this]
    exact keeps i _ this
  rw [endPaths, endPaths, kept _ (h.joined e he).1, kept _ (h.joined e he).2]

/-- The number that a mention gives stands for the path. -/
theorem Coherent.pathAt?_mention (h : g.Coherent) :
    (g.mention p weight).2.pathAt? (g.mention p weight).1 = some p.components := by
  obtain ⟨n, hn, same⟩ := (h.mention.registered p _).1 (registry_mention g p weight)
  rw [pathAt?, node?, hn]
  exact congrArg some same

theorem edges_mention (g : IncludeGraph) (p : Path) (weight : Nat) :
    (g.mention p weight).2.edges = g.edges := by
  rcases mention_cases g p weight with ⟨i, -, eq⟩ | ⟨-, eq⟩ <;> rw [eq] <;> rfl

/-- An include is one more edge, between the file and the path. -/
theorem Coherent.edgePaths_addInclude (h : g.Coherent) {cs : List Component}
    (file : g.pathAt? i = some cs) :
    (g.addInclude i p).edgePaths =
      g.edgePaths ++ [g.options.relation.orient (some cs) (some p.components)] := by
  have old := h.map_endPaths_of_keeps (keeps_addInclude g i p)
  have edges : (g.addInclude i p).edges = g.edges ++ [⟨g.edgeCount,
      (g.options.relation.orient i (g.mention p 1).1).1,
      (g.options.relation.orient i (g.mention p 1).1).2⟩] := by
    rw [edgeCount, ← options_mention g p 1, ← edges_mention g p 1]
    rfl
  rw [edgePaths, edges, List.map_append, old, List.map_singleton]
  congr 2
  have fileLater : (g.addInclude i p).pathAt? i = some cs := keeps_addInclude g i p i cs file
  have pathLater : (g.addInclude i p).pathAt? (g.mention p 1).1 = some p.components :=
    h.pathAt?_mention
  cases g.options.relation <;> simp [endPaths, Relation.orient, fileLater, pathLater]

/-- The includes of a file are one edge each, in their order. -/
theorem Coherent.edgePaths_addIncludes (h : g.Coherent) (hi : i < g.nodeCount)
    {cs : List Component} (file : g.pathAt? i = some cs) (ps : List Path) :
    (g.addIncludes i ps).edgePaths =
      g.edgePaths ++ ps.map fun p =>
        g.options.relation.orient (some cs) (some p.components) := by
  induction ps generalizing g with
  | nil => simp [IncludeGraph.addIncludes]
  | cons p ps ih =>
      have rest := ih (h.addInclude hi)
        (Nat.lt_of_lt_of_le hi (nodeCount_le_addInclude g i p))
        (keeps_addInclude g i p i cs file)
      rw [addIncludes_cons, rest, h.edgePaths_addInclude file, options_addInclude,
        List.append_assoc]
      rfl

theorem edgePaths_markScanned (g : IncludeGraph) (i weight : Nat) :
    (g.markScanned i weight).edgePaths = g.edgePaths := by
  refine List.map_congr_left fun e _ => ?_
  rw [endPaths, endPaths, pathAt?_markScanned, pathAt?_markScanned]

theorem Coherent.edgePaths_mention (h : g.Coherent) :
    (g.mention p weight).2.edgePaths = g.edgePaths := by
  rw [edgePaths, edges_mention, h.map_endPaths_of_keeps (keeps_mention g p weight)]

/-- A registration adds the includes of the file, and changes no edge there was. -/
theorem Coherent.edgePaths_register (h : g.Coherent) (file : Path) (includes : List Path) :
    (g.register file includes).edgePaths =
      g.edgePaths ++ includes.map fun p =>
        g.options.relation.orient (some file.components) (some p.components) := by
  have known := registry_mention g file (min includes.length weightBound)
  rw [register_eq, h.mention.markScanned.edgePaths_addIncludes
      (by rw [nodeCount_markScanned]; exact h.mention.lt_nodeCount known)
      ((pathAt?_markScanned _ _ _ _).trans h.pathAt?_mention),
    edgePaths_markScanned, h.edgePaths_mention]
  exact congrArg (fun o => g.edgePaths ++ includes.map fun p =>
    o.relation.orient (some file.components) (some p.components)) (options_mention g file _)

theorem options_replay (g : IncludeGraph) (history : List (Path × List Path)) :
    (g.replay history).options = g.options := by
  induction history generalizing g with
  | nil => rfl
  | cons r history ih => exact (ih _).trans (options_register g r.1 r.2)

/-- **The edges of a history.**  They are the edges there were, and one for each include of
each registration, in the order of the history. -/
theorem Coherent.edgePaths_replay (h : g.Coherent) (history : List (Path × List Path)) :
    (g.replay history).edgePaths =
      g.edgePaths ++ history.flatMap fun r => r.2.map fun p =>
        g.options.relation.orient (some r.1.components) (some p.components) := by
  induction history generalizing g with
  | nil => simp [IncludeGraph.replay]
  | cons r history ih =>
      rw [replay_cons, ih (h.register r.1 r.2), h.edgePaths_register, options_register,
        List.append_assoc]
      rfl

/-- A history from the beginning: its includes are the edges. -/
theorem edgePaths_replay_empty (options : GraphOptions) (history : List (Path × List Path)) :
    ((empty options).replay history).edgePaths =
      history.flatMap fun r => r.2.map fun p =>
        options.relation.orient (some r.1.components) (some p.components) :=
  (coherent_empty options).edgePaths_replay history

end IncludeGraph

end IncludeAtlas
