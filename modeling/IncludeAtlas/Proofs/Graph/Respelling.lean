import IncludeAtlas.Proofs.Graph.Draw
import IncludeAtlas.Proofs.Path.Label
import Mathlib.Data.List.Forall2

/-!
# Histories in another spelling

One path has many spellings: slashes can be doubled, dots put in, and a slash put at the end.  If
the paths of a history are spelled in another way, its graph is spelled in another way, and is the
same otherwise, draws included.

## Main Definitions

* `Respelling`: two histories register the same paths, in whatever spelling
* `Node.Respelled`, `IncludeGraph.Respelled`: two nodes, or two graphs, differ in spelling only
* `IncludeGraph.SpelledFirst`: nodes have the spelling that their paths were seen in first
* `IncludeGraph.ReplaysAlike`: what two histories leave alike in a graph

## Main Results

* `IncludeGraph.Respelled.mention`: another spelling of a path is known under the same number, or
  gets the same new one
* `IncludeGraph.Respelled.replay`: histories in two spellings keep graphs the same
* `IncludeGraph.Reachable.replay_respelled`: what two spellings of a history have in common

## What is load-bearing

Two registries that are filled with different spellings have different entries, and what they
answer is the same for every spelling of every path.  Only the answers are compared.
-/

namespace IncludeAtlas

/-! ## Paths -/

namespace Path

variable {p q : Path} {ps : List Path}

/-- The first spelling of a path in a row does not depend on the spelling it is asked for in. -/
theorem find?_same_congr (same : p.Same q) :
    ps.find? (fun r => r.Same p) = ps.find? fun r => r.Same q := by
  congr 1
  funext r
  exact decide_eq_decide.2 same.congr_right

/-- A first mention is the first of its path. -/
theorem find?_of_mem_firsts (h : p ∈ firsts ps) : ps.find? (fun q => q.Same p) = some p := by
  induction ps with
  | nil => cases h
  | cons r ps ih =>
      rcases List.mem_cons.1 h with rfl | later
      · exact List.find?_cons_of_pos (by simpa using Same.refl p)
      · obtain ⟨mem, other⟩ := List.mem_filter.1 later
        rw [List.find?_cons_of_neg (by simpa using other)]
        exact ih mem

/-- Different paths are all first mentions. -/
theorem firsts_eq_self (h : ps.Pairwise fun p q => ¬ p.Same q) : firsts ps = ps := by
  induction h with
  | nil => rfl
  | cons other _ ih =>
      rw [firsts, ih, List.filter_eq_self.2]
      intro q hq
      simpa using other q hq

end Path

/-- Two histories of one shape have the same paths in the same places, in whatever spelling. -/
def Respelling (history history' : List (Path × List Path)) : Prop :=
  List.Forall₂ (fun r r' => r.1.Same r'.1 ∧ List.Forall₂ Path.Same r.2 r'.2) history history'

/-! ## Nodes -/

/-- Two nodes are the same but for the spelling of their path, and for a label that shows it. -/
structure Node.Respelled (fullPath : Bool) (n n' : Node) : Prop where
  id : n'.id = n.id
  path : n.path.Same n'.path
  label : fullPath = false → n.path.fileName? ≠ none → n'.label = n.label
  group : n'.group = n.group
  weight : n'.weight = n.weight
  placement : n'.placement = n.placement
  color : n'.color = n.color
  scanned : n'.scanned = n.scanned

namespace Node.Respelled

variable {fullPath : Bool} {n n' : Node} {p p' : Path}

/-- Whatever the spelling of its path, a new node gets the same number, group and draws. -/
theorem fresh (o : GraphOptions) (d : Draws) (id : Nat) (same : p.Same p') (weight : Nat) :
    Node.Respelled o.fullPath (Node.fresh o d id p weight) (Node.fresh o d id p' weight) where
  id := rfl
  path := same
  label := by
    intro short named
    show p'.label o.fullPath = p.label o.fullPath
    rw [short]
    exact (Path.label_congr same named).symm
  group := (Path.group_congr same _).symm
  weight := rfl
  placement := rfl
  color := rfl
  scanned := rfl

/-- Both nodes are scanned, or both were before. -/
theorem scan (h : n.Respelled fullPath n') (weight : Nat) :
    (n.scan weight).Respelled fullPath (n'.scan weight) := by
  rw [Node.scan, Node.scan, h.scanned]
  split
  · exact h
  · exact { h with weight := rfl, scanned := rfl }

theorem refl (fullPath : Bool) (n : Node) : n.Respelled fullPath n :=
  ⟨rfl, Path.Same.refl _, fun _ _ => rfl, rfl, rfl, rfl, rfl, rfl⟩

end Node.Respelled

/-! ## Rows of related things -/

section

variable {α β : Type} {R : α → β → Prop} {xs : List α} {ys : List β}

/-- What stands at one place of two related rows is related. -/
theorem rel_getElem? (h : List.Forall₂ R xs ys) (i : Nat) : Option.Rel R xs[i]? ys[i]? := by
  induction h generalizing i with
  | nil => exact .none
  | cons here _ ih =>
      cases i with
      | zero => exact .some here
      | succ i => exact ih i

/-- Two related rows stay so if related things are done at one place. -/
theorem forall₂_modify {f : α → α} {f' : β → β} (h : List.Forall₂ R xs ys)
    (step : ∀ x y, R x y → R (f x) (f' y)) (i : Nat) :
    List.Forall₂ R (xs.modify i f) (ys.modify i f') := by
  induction h generalizing i with
  | nil =>
      rw [List.modify_nil, List.modify_nil]
      exact .nil
  | cons here later ih =>
      cases i with
      | zero => exact .cons (step _ _ here) later
      | succ i => exact .cons here (ih i)

end

/-! ## Graphs -/

namespace IncludeGraph

variable {g g' : IncludeGraph} {p p' : Path} {ps ps' : List Path}
  {history history' : List (Path × List Path)}

/-- Two graphs are the same but for the spelling of paths. -/
structure Respelled (g g' : IncludeGraph) : Prop where
  options : g'.options = g.options
  draws : g'.draws = g.draws
  nodes : List.Forall₂ (Node.Respelled g.options.fullPath) g.nodes g'.nodes
  edges : g'.edges = g.edges
  /-- Every path is known under the same number. -/
  registry : ∀ p, g'.registry.get? p = g.registry.get? p

namespace Respelled

theorem refl (g : IncludeGraph) : g.Respelled g :=
  ⟨rfl, rfl, List.forall₂_same.2 fun n _ => .refl _ n, rfl, fun _ => rfl⟩

theorem nodeCount_eq (h : g.Respelled g') : g'.nodeCount = g.nodeCount :=
  h.nodes.length_eq.symm

theorem get?_eq (h : g.Respelled g') (same : p.Same p') :
    g'.registry.get? p' = g.registry.get? p := by
  rw [h.registry, g.registry.get?_congr same]

/-- Under every spelling of a path the same node is found, or none. -/
theorem find? (h : g.Respelled g') (same : p.Same p') :
    Option.Rel (Node.Respelled g.options.fullPath) (g.find? p) (g'.find? p') := by
  rw [IncludeGraph.find?, IncludeGraph.find?, h.get?_eq same]
  cases g.registry.get? p with
  | none => exact .none
  | some i => exact rel_getElem? h.nodes i

/-! ### The steps -/

/-- **Another spelling of a path is the same mention**: the path is known under the same number,
or it gets a node with the same number and the same draws. -/
theorem mention (h : g.Respelled g') (same : p.Same p') (weight : Nat) :
    (g'.mention p' weight).1 = (g.mention p weight).1 ∧
      (g.mention p weight).2.Respelled (g'.mention p' weight).2 := by
  rw [mention_eq, mention_eq, h.get?_eq same, h.nodeCount_eq, h.options, h.draws]
  cases g.registry.get? p with
  | some i => exact ⟨rfl, rfl, rfl, h.nodes, h.edges, h.registry⟩
  | none =>
      refine ⟨rfl, rfl, rfl, ?_, h.edges, ?_⟩
      · exact List.rel_append h.nodes (.cons (.fresh _ _ _ same weight) .nil)
      · intro q
        have either : p'.Same q ↔ p.Same q := ⟨same.trans, same.symm.trans⟩
        simp only [Registry.get?_insert, h.registry, either]

theorem markScanned (h : g.Respelled g') (i weight : Nat) :
    (g.markScanned i weight).Respelled (g'.markScanned i weight) where
  options := h.options
  draws := h.draws
  nodes := forall₂_modify h.nodes (fun _ _ node => node.scan weight) i
  edges := h.edges
  registry := h.registry

/-- Edges join numbers, and numbers have no spelling. -/
theorem addEdge (h : g.Respelled g') (i j : Nat) :
    (g.addEdge i j).Respelled (g'.addEdge i j) where
  options := h.options
  draws := h.draws
  nodes := h.nodes
  edges := by
    rw [IncludeGraph.addEdge, IncludeGraph.addEdge, edgeCount, edgeCount, h.options, h.edges]
  registry := h.registry

theorem addInclude (h : g.Respelled g') (i : Nat) (same : p.Same p') :
    (g.addInclude i p).Respelled (g'.addInclude i p') := by
  obtain ⟨number, respelled⟩ := h.mention same 1
  show ((g.mention p 1).2.addEdge i (g.mention p 1).1).Respelled
    ((g'.mention p' 1).2.addEdge i (g'.mention p' 1).1)
  rw [number]
  exact respelled.addEdge i _

/-! ### Histories -/

theorem addIncludes (h : g.Respelled g') (i : Nat) (same : List.Forall₂ Path.Same ps ps') :
    (g.addIncludes i ps).Respelled (g'.addIncludes i ps') :=
  List.rel_foldl (fun _ _ respelled _ _ same => respelled.addInclude i same) h same

theorem register (h : g.Respelled g') (same : p.Same p')
    (includes : List.Forall₂ Path.Same ps ps') :
    (g.register p ps).Respelled (g'.register p' ps') := by
  obtain ⟨number, respelled⟩ := h.mention same (min ps.length weightBound)
  rw [register_eq, register_eq, ← includes.length_eq, number]
  exact (respelled.markScanned _ _).addIncludes _ includes

/-- **Two spellings of a history** keep two graphs the same but for spelling. -/
theorem replay (h : g.Respelled g') (respelling : Respelling history history') :
    (g.replay history).Respelled (g'.replay history') :=
  List.rel_foldl (fun _ _ respelled _ _ same => respelled.register same.1 same.2) h respelling

end Respelled

/-! ## Which spelling is shown -/

/-- The node of a path has the spelling that the path was seen in first, and shows it unless its
label is the last name of the path. -/
structure SpelledFirst (seen : List Path) (g : IncludeGraph) : Prop where
  path : ∀ p, (g.find? p).map Node.path = seen.find? fun q => q.Same p
  label : ∀ p n, g.find? p = some n → g.options.fullPath = true ∨ n.path.fileName? = none →
    n.label = n.path.display

/-- Among the paths of its nodes, a graph finds a path in the spelling of its node. -/
theorem Coherent.map_path_find? (h : g.Coherent) (here : g.paths = Path.firsts ps) (p : Path) :
    (g.find? p).map Node.path = ps.find? fun q => q.Same p := by
  cases found : g.find? p with
  | some n =>
      obtain ⟨hn, same⟩ := h.find?_eq_some_iff.1 found
      have mem : n.path ∈ Path.firsts ps := here ▸ List.mem_map_of_mem hn
      exact ((Path.find?_same_congr same).symm.trans (Path.find?_of_mem_firsts mem)).symm
  | none =>
      refine (List.find?_eq_none.2 fun q hq => ?_).symm
      rw [decide_eq_true_eq]
      intro same
      obtain ⟨r, hr, sameR⟩ := Path.exists_mem_firsts_iff.2 ⟨q, hq, same⟩
      rw [← here] at hr
      obtain ⟨n, hn, rfl⟩ := List.mem_map.1 hr
      exact h.find?_eq_none_iff.1 found n hn sameR

/-- The paths of the nodes are different, so all of them are first mentions. -/
theorem Coherent.paths_eq_firsts (h : g.Coherent) : g.paths = Path.firsts g.paths :=
  (Path.firsts_eq_self (List.pairwise_map.2 h.pairwise_not_same)).symm

/-- A history adds nodes in the spelling of their first mention, and respells none. -/
theorem Coherent.spelledFirst_replay (h : g.Coherent) (history : List (Path × List Path)) :
    (g.replay history).SpelledFirst (g.paths ++ mentions history) where
  path := (h.replay history).map_path_find? (h.paths_replay h.paths_eq_firsts history)
  label := by
    intro p n found whole
    rw [(h.replay history).labelled n ((h.replay history).find?_eq_some_iff.1 found).1]
    exact Path.label_eq_display whole

/-- What is shown of a path whose last component is no name. -/
theorem SpelledFirst.exists_label {seen : List Path} (s : g.SpelledFirst seen)
    (first : seen.find? (fun q => q.Same p) = some p') (nameless : p'.fileName? = none) :
    ∃ n, g.find? p = some n ∧ n.label = p'.display := by
  obtain ⟨n, found, rfl⟩ := Option.map_eq_some_iff.1 ((s.path p).trans first)
  exact ⟨n, found, s.label p n found (.inr nameless)⟩

/-- What two histories leave alike in a graph, if one is the other in another spelling. -/
structure ReplaysAlike (fullPath : Bool) (history history' : List (Path × List Path))
    (g : IncludeGraph) : Prop where
  /-- Nodes keep their numbers, weights, groups, colors and places, and scanned ones stay scanned.
  Labels are the same if they are last names. -/
  nodes : List.Forall₂ (Node.Respelled fullPath) (g.replay history).nodes (g.replay history').nodes
  edges : (g.replay history').edges = (g.replay history).edges
  /-- Every path is found under every spelling. -/
  found : ∀ p p', p.Same p' → Option.Rel (Node.Respelled fullPath)
    ((g.replay history).find? p) ((g.replay history').find? p')
  /-- Every path has the spelling it was seen in first, in the graph or else in the history, and
  this is what other labels show. -/
  spelled : (g.replay history).SpelledFirst (g.paths ++ mentions history)
  /-- So it is after the other history, with the spellings in there. -/
  spelled' : (g.replay history').SpelledFirst (g.paths ++ mentions history')
  /-- Groups are the same for all paths, whether they are in the graph or not. -/
  groups : ∀ (p p' : Path) (granularity : Nat), p.Same p' →
    p.group granularity = p'.group granularity

/-- **Respelling paths changes nothing but spelling.**  If the paths of a history are spelled in
another way, its graph has the same nodes but for their spelling, and the same edges. -/
theorem Reachable.replay_respelled {options : GraphOptions} {seed : UInt64}
    (h : Reachable { options with seed := some seed } g)
    (respelling : Respelling history history') :
    g.ReplaysAlike options.fullPath history history' := by
  have respelled := (Respelled.refl g).replay respelling
  have fullPath : (g.replay history).options.fullPath = options.fullPath := by
    rw [options_replay, h.options_eq]
  rw [← fullPath]
  exact {
    nodes := respelled.nodes
    edges := respelled.edges
    found := fun _ _ => respelled.find?
    spelled := h.coherent.spelledFirst_replay history
    spelled' := h.coherent.spelledFirst_replay history'
    groups := fun _ _ granularity same => Path.group_congr same granularity }

/-- A file that includes a directory above itself, and itself. -/
def plainHistory : List (Path × List Path) :=
  [(Path.ofString "a/b.h", [Path.ofString "a/..", Path.ofString "a/b.h"])]

/-- The same in other spellings, each of them another one. -/
def variedHistory : List (Path × List Path) :=
  [(Path.ofString "a//b.h", [Path.ofString "a/./../", Path.ofString "a/b.h/."])]

/-- Both histories leave the same edges, and each one labels the directory as it spells it. -/
theorem replay_respelled_varied :
    Respelling plainHistory variedHistory ∧
    ∃ g g', g = (empty { GraphOptions.default with seed := some 7 }).replay plainHistory ∧
      g' = (empty { GraphOptions.default with seed := some 7 }).replay variedHistory ∧
      List.Forall₂ (Node.Respelled false) g.nodes g'.nodes ∧ g'.edges = g.edges ∧
      (∃ n, g.find? (Path.ofString "a//..") = some n ∧ n.label = "a/..") ∧
      ∃ n, g'.find? (Path.ofString "a//..") = some n ∧ n.label = "a/./../" := by
  have respelling : Respelling plainHistory variedHistory :=
    .cons ⟨by decide, .cons (by decide) (.cons (by decide) .nil)⟩ .nil
  have reachable : Reachable { GraphOptions.default with seed := some 7 } _ := .empty
  have alike := Reachable.replay_respelled reachable respelling
  have first : (mentions plainHistory).find? (fun q => q.Same (Path.ofString "a//..")) =
    some (Path.ofString "a/..") := by decide
  have first' : (mentions variedHistory).find? (fun q => q.Same (Path.ofString "a//..")) =
    some (Path.ofString "a/./../") := by decide
  exact ⟨respelling, _, _, rfl, rfl, alike.nodes, alike.edges,
    alike.spelled.exists_label first (by decide), alike.spelled'.exists_label first' (by decide)⟩

end IncludeGraph

end IncludeAtlas
