import IncludeAtlas.Proofs.Graph.Coherence

/-!
# Histories as data

Registrations and walks in a row, with the answers they give.  Two histories, or one history
under two options, can then be compared step by step.

## Main Definitions

* `IncludeGraph.Step`: a registration or a walk
* `IncludeGraph.perform`: what a step makes of a graph, and its answer
* `IncludeGraph.run`: a row of steps

## Main Results

* `IncludeGraph.reachable_iff`: the reachable graphs are those that rows of steps lead to
-/

namespace IncludeAtlas

namespace IncludeGraph

/-- A step of a history.  Every walk sees a file tree of its own. -/
inductive Step where
  | register (file : Path) (includes : List Path)
  | walk (s : Scanner) (w : Workspace)

/-- What a step answers: a walk what it counted or why it failed, a registration nothing. -/
abbrev Answer := Option (Except ScanError Summary)

variable {options : GraphOptions} {g : IncludeGraph}

/-- What a step makes of a graph, and what it answers. -/
def perform (g : IncludeGraph) : Step → IncludeGraph × Answer
  | .register file includes => (g.register file includes, none)
  | .walk s w => ((s.walk w g).1, some (s.walk w g).2)

/-- What a row of steps makes of a graph, and what they answer. -/
def run (g : IncludeGraph) : List Step → IncludeGraph × List Answer
  | [] => (g, [])
  | step :: steps =>
    let (g, answer) := g.perform step
    let (g, answers) := g.run steps
    (g, answer :: answers)

theorem run_cons (g : IncludeGraph) (step : Step) (steps : List Step) :
    g.run (step :: steps) =
      (((g.perform step).1.run steps).1, (g.perform step).2 :: ((g.perform step).1.run steps).2) :=
  rfl

/-- Later steps start from the graph that earlier ones leave. -/
theorem run_append (g : IncludeGraph) (earlier later : List Step) :
    g.run (earlier ++ later) =
      (((g.run earlier).1.run later).1, (g.run earlier).2 ++ ((g.run earlier).1.run later).2) := by
  induction earlier generalizing g with
  | nil => rfl
  | cons step earlier ih => rw [List.cons_append, run_cons, ih, run_cons, List.cons_append]

theorem Reachable.perform (h : Reachable options g) (step : Step) :
    Reachable options (g.perform step).1 := by
  cases step with
  | register file includes => exact h.register file includes
  | walk s w => exact h.walk s w

theorem Reachable.run (h : Reachable options g) (steps : List Step) :
    Reachable options (g.run steps).1 := by
  induction steps generalizing g with
  | nil => exact h
  | cons step steps ih => exact ih (h.perform step)

/-- **The reachable graphs are those that rows of steps lead to.** -/
theorem reachable_iff :
    Reachable options g ↔ ∃ steps, ((empty options).run steps).1 = g := by
  constructor
  · intro h
    induction h with
    | empty => exact ⟨[], rfl⟩
    | register file includes _ ih =>
        obtain ⟨steps, rfl⟩ := ih
        exact ⟨steps ++ [.register file includes], by rw [run_append]; rfl⟩
    | walk s w _ ih =>
        obtain ⟨steps, rfl⟩ := ih
        exact ⟨steps ++ [.walk s w], by rw [run_append]; rfl⟩
  · rintro ⟨steps, rfl⟩
    exact Reachable.empty.run steps

end IncludeGraph

end IncludeAtlas
