import IncludeAtlas.Proofs.Graph.History
import Mathlib.Data.List.Forall2
import Mathlib.Data.List.Perm.Basic

/-!
# Registrations in another order

The numbers of a graph, its spellings and its draws tell the order in which files were registered.
Its structure does not: which paths have nodes, which of them are scanned, how they are grouped,
and which edges join them.  Nor do the weights, if no file is registered with different numbers of
includes.

## Main Definitions

* `Reshuffling`: the registrations of a history, and the includes of each, in another order
* `EvenlyRegistered`: all registrations of a path have equally many includes
* `IncludeGraph.Alike`: two graphs have the same structure

## Main Results

* `IncludeGraph.alike_replay_reshuffled`: the order of a history is no matter of structure
* `IncludeGraph.registration_commutes`: nor of weights, if files are evenly registered

## Design notes

Two registrations next to each other cannot just be exchanged, since the graphs that this leaves
are different: nodes get other numbers.  So the steps are not commuted.  What a history says of a
path (`exists_node_replay_iff`, `scanned_replay_iff`, `weight_replay`) does not mention its order,
apart from the registration that is the first of a path, and here that may be any.
-/

namespace IncludeAtlas

variable {history history' : List (Path × List Path)} {p q : Path} {r : Path × List Path}

/-- Two histories have the same registrations in another order, each with its includes in another
order. -/
def Reshuffling (history history' : List (Path × List Path)) : Prop :=
  ∃ reordered, history.Perm reordered ∧
    List.Forall₂ (fun r r' => r.1 = r'.1 ∧ r.2.Perm r'.2) reordered history'

/-- All registrations of a path have equally many includes. -/
def EvenlyRegistered (history : List (Path × List Path)) : Prop :=
  ∀ r ∈ history, ∀ r' ∈ history, r.1.Same r'.1 → r.2.length = r'.2.length

instance (history : List (Path × List Path)) : Decidable (EvenlyRegistered history) :=
  inferInstanceAs (Decidable (∀ r ∈ history, ∀ r' ∈ history, _ → _))

namespace Reshuffling

theorem of_perm (h : history.Perm history') : Reshuffling history history' :=
  ⟨history', h, List.forall₂_same.2 fun _ _ => ⟨rfl, .refl _⟩⟩

/-- What the order of includes does not matter for is said of a registration in both histories or
in none. -/
theorem exists_iff (h : Reshuffling history history') {P : Path × List Path → Prop}
    (stable : ∀ file includes includes', includes.Perm includes' →
      (P (file, includes) ↔ P (file, includes'))) :
    (∃ r ∈ history, P r) ↔ ∃ r ∈ history', P r := by
  obtain ⟨reordered, perm, pairs⟩ := h
  refine (exists_congr fun r => and_congr_left fun _ => perm.mem_iff).trans ?_
  clear perm
  induction pairs with
  | nil => rfl
  | @cons r r' _ _ pair _ ih =>
      obtain ⟨file, includes⟩ := r
      obtain ⟨file', includes'⟩ := r'
      obtain ⟨rfl, perm⟩ := pair
      rw [List.exists_mem_cons_iff, List.exists_mem_cons_iff, stable _ _ _ perm, ih]

/-- Every registration has its counterpart. -/
theorem exists_of_mem (h : Reshuffling history history') (hr : r ∈ history) :
    ∃ r' ∈ history', r'.1 = r.1 ∧ r'.2.length = r.2.length :=
  (h.exists_iff fun _ _ _ perm => by rw [perm.length_eq]).1 ⟨r, hr, rfl, rfl⟩

/-- The same paths are registered or included. -/
theorem mentioned_iff (h : Reshuffling history history') :
    (∃ r ∈ history, r.1.Same q ∨ ∃ p ∈ r.2, p.Same q) ↔
      ∃ r ∈ history', r.1.Same q ∨ ∃ p ∈ r.2, p.Same q :=
  h.exists_iff fun _ _ _ perm =>
    or_congr_right (exists_congr fun _ => and_congr_left fun _ => perm.mem_iff)

/-- The same paths are registered, in whatever spelling. -/
theorem registered_iff (h : Reshuffling history history') (same : p.Same q) :
    (∃ r ∈ history, r.1.Same p) ↔ ∃ r ∈ history', r.1.Same q := by
  simp only [same.congr_right]
  exact h.exists_iff fun _ _ _ _ => Iff.rfl

/-- The same includes are registered, equally often. -/
theorem flatMap_perm {β : Type} (h : Reshuffling history history') (f : Path → Path → β) :
    (history.flatMap fun r => r.2.map (f r.1)).Perm
      (history'.flatMap fun r => r.2.map (f r.1)) := by
  obtain ⟨reordered, perm, pairs⟩ := h
  refine (perm.flatMap_right _).trans ?_
  clear perm
  induction pairs with
  | nil => rfl
  | cons pair _ ih =>
      rw [List.flatMap_cons, List.flatMap_cons, pair.1]
      exact (pair.2.map _).append ih

/-- Files remain evenly registered. -/
theorem evenlyRegistered (h : Reshuffling history history') (even : EvenlyRegistered history) :
    EvenlyRegistered history' := by
  -- the counterpart of a registration, looked for in the first history
  have counterpart : ∀ r ∈ history', ∃ s ∈ history, s.1 = r.1 ∧ s.2.length = r.2.length :=
    fun r hr => (h.exists_iff fun _ _ _ perm => by rw [perm.length_eq]).2 ⟨r, hr, rfl, rfl⟩
  intro r hr r' hr' same
  obtain ⟨s, hs, file, length⟩ := counterpart r hr
  obtain ⟨s', hs', file', length'⟩ := counterpart r' hr'
  rw [← length, ← length']
  exact even s hs s' hs' (by rwa [file, file'])

end Reshuffling

namespace IncludeGraph

variable {options options' : GraphOptions} {n n' : Node}

/-! ## Structure -/

/-- Two graphs have the same structure: the same paths have nodes, the nodes of one path are
both scanned or both not and are in one group, and as many edges join two paths. -/
structure Alike (g g' : IncludeGraph) : Prop where
  nodes : ∀ p, (∃ n ∈ g.nodes, n.path.Same p) ↔ ∃ n ∈ g'.nodes, n.path.Same p
  scanned : ∀ n ∈ g.nodes, ∀ n' ∈ g'.nodes, n.path.Same n'.path → n.scanned = n'.scanned
  group : ∀ n ∈ g.nodes, ∀ n' ∈ g'.nodes, n.path.Same n'.path → n.group = n'.group
  edges : g.edgePaths.Perm g'.edgePaths

/-- **The order of a history is no matter of structure.**  Nor are the options, apart from the
direction of edges and the length of groups. -/
theorem alike_replay_reshuffled (h : Reshuffling history history')
    (relation : options.relation = options'.relation)
    (granularity : options.granularity = options'.granularity) :
    ((empty options).replay history).Alike ((empty options').replay history') where
  nodes := by
    intro p
    rw [exists_node_replay_iff, exists_node_replay_iff]
    exact h.mentioned_iff
  scanned := by
    intro n hn n' hn' same
    rw [Bool.eq_iff_iff, scanned_replay_iff hn, scanned_replay_iff hn']
    exact h.registered_iff same
  group := by
    intro n hn n' hn' same
    rw [((coherent_empty options).replay history).grouped n hn,
      ((coherent_empty options').replay history').grouped n' hn', options_replay, options_replay]
    exact (Path.group_congr same _).trans (congrArg _ granularity)
  edges := by
    rw [edgePaths_replay_empty, edgePaths_replay_empty, relation]
    exact h.flatMap_perm fun file p =>
      options'.relation.orient (some file.components) (some p.components)

/-! ## Weights -/

/-- If files are evenly registered, any registration of a path gives its weight. -/
theorem weight_replay_of_mem (even : EvenlyRegistered history)
    (hn : n ∈ ((empty options).replay history).nodes) (hr : r ∈ history)
    (same : r.1.Same n.path) : n.weight = min r.2.length weightBound := by
  rw [weight_replay hn]
  cases found : history.find? fun r => r.1.Same n.path with
  | none => exact absurd same (find?_registration_eq_none_iff.1 found r hr)
  | some s =>
      obtain ⟨hs, first⟩ := mem_of_find?_registration found
      exact congrArg (min · weightBound) (even s hs r hr (first.trans same.symm))

/-- A path that is only included weighs one. -/
theorem weight_replay_of_not_registered (hn : n ∈ ((empty options).replay history).nodes)
    (unregistered : ¬ ∃ r ∈ history, r.1.Same n.path) : n.weight = 1 := by
  rw [weight_replay hn, find?_registration_eq_none_iff.2]
  exact fun r hr same => unregistered ⟨r, hr, same⟩

/-- If files are evenly registered, the order of a history is no matter of weights. -/
theorem weight_replay_reshuffled (even : EvenlyRegistered history)
    (h : Reshuffling history history') (hn : n ∈ ((empty options).replay history).nodes)
    (hn' : n' ∈ ((empty options').replay history').nodes) (same : n.path.Same n'.path) :
    n.weight = n'.weight := by
  by_cases registered : ∃ r ∈ history, r.1.Same n.path
  · obtain ⟨r, hr, here⟩ := registered
    obtain ⟨r', hr', file, length⟩ := h.exists_of_mem hr
    have there : r'.1.Same n'.path := by
      rw [file]
      exact here.trans same
    rw [weight_replay_of_mem even hn hr here,
      weight_replay_of_mem (h.evenlyRegistered even) hn' hr' there, length]
  · rw [weight_replay_of_not_registered hn registered,
      weight_replay_of_not_registered hn' (mt (h.registered_iff same).2 registered)]

/-- **Registration commutes.**  If all registrations of a path have equally many includes, the
order of the registrations, and the order of the includes in each of them, changes nothing in the
structure of the graph, and nothing in the weights. -/
theorem registration_commutes (relation : options.relation = options'.relation)
    (granularity : options.granularity = options'.granularity)
    (even : EvenlyRegistered history) (h : Reshuffling history history') :
    ((empty options).replay history).Alike ((empty options').replay history') ∧
    ∀ n ∈ ((empty options).replay history).nodes,
      ∀ n' ∈ ((empty options').replay history').nodes, n.path.Same n'.path →
        n.weight = n'.weight :=
  ⟨alike_replay_reshuffled h relation granularity,
    fun _ hn _ hn' => weight_replay_reshuffled even h hn hn'⟩

/-- A file that is registered in two spellings, with different includes, and another one that is
included before it is registered. -/
def repeatedHistory : List (Path × List Path) :=
  [(Path.ofString "s/a.c", [Path.ofString "b.h", Path.ofString "c.h"]),
    (Path.ofString "b.h", [Path.ofString "c.h"]),
    (Path.ofString "s//a.c", [Path.ofString "d.h", Path.ofString "s/a.c"])]

/-- The same backwards, so that the other file is registered before it is included. -/
def backwardHistory : List (Path × List Path) :=
  [(Path.ofString "s//a.c", [Path.ofString "s/a.c", Path.ofString "d.h"]),
    (Path.ofString "b.h", [Path.ofString "c.h"]),
    (Path.ofString "s/a.c", [Path.ofString "c.h", Path.ofString "b.h"])]

/-- Under two seeds, both histories leave the same structure and the same weights, and the file
that is registered twice weighs two in both. -/
theorem registration_commutes_backward :
    Reshuffling repeatedHistory backwardHistory ∧ EvenlyRegistered repeatedHistory ∧
    ∃ g g', g = (empty { GraphOptions.default with seed := some 1 }).replay repeatedHistory ∧
      g' = (empty { GraphOptions.default with seed := some 2 }).replay backwardHistory ∧
      g.Alike g' ∧
      ∃ n ∈ g.nodes, ∃ n' ∈ g'.nodes,
        n.path.Same n'.path ∧ n.weight = n'.weight ∧ n.weight = 2 := by
  have even : EvenlyRegistered repeatedHistory := by decide
  have reshuffling : Reshuffling repeatedHistory backwardHistory :=
    ⟨repeatedHistory.reverse, (List.reverse_perm _).symm,
      .cons ⟨rfl, by decide⟩ (.cons ⟨rfl, by decide⟩ (.cons ⟨rfl, by decide⟩ .nil))⟩
  obtain ⟨alike, weights⟩ := @registration_commutes repeatedHistory backwardHistory
    { GraphOptions.default with seed := some 1 } { GraphOptions.default with seed := some 2 }
    rfl rfl even reshuffling
  have first : (Path.ofString "s/a.c", [Path.ofString "b.h", Path.ofString "c.h"]) ∈
    repeatedHistory := List.mem_cons_self
  obtain ⟨n, hn, same⟩ := exists_node_replay_iff.2 ⟨_, first, .inl (Path.Same.refl _)⟩
  obtain ⟨n', hn', same'⟩ := (alike.nodes _).1 ⟨n, hn, same⟩
  have both := same.trans same'.symm
  exact ⟨reshuffling, even, _, _, rfl, rfl, alike, n, hn, n', hn', both, weights n hn n' hn' both,
    weight_replay_of_mem even hn first same.symm⟩

end IncludeGraph

end IncludeAtlas
