import Mathlib.Data.List.Forall2

/-!
# Traversals that may fail

Lists are read element by element, and a list can be read exactly if each of its elements can.

## Main Results

* `mapM_eq_some_iff`: a traversal has a result exactly if its steps have
* `forall₂_append_cons_iff`: what stands for one element of a list
-/

namespace IncludeAtlas

variable {α β γ : Type} {f : α → Option β} {xs xs' : List α} {x : α} {ys : List β}

theorem mapM_map_option (g : β → γ) (xs : List α) :
    xs.mapM (fun x => (f x).map g) = (xs.mapM f).map (List.map g) := by
  induction xs with
  | nil => rfl
  | cons x xs ih =>
      rw [List.mapM_cons, List.mapM_cons, ih]
      cases f x with
      | none => rfl
      | some y => cases xs.mapM f <;> rfl

/-- **A traversal has a result exactly if its steps have.** -/
theorem mapM_eq_some_iff : xs.mapM f = some ys ↔ List.Forall₂ (fun x y => f x = some y) xs ys := by
  induction xs generalizing ys with
  | nil =>
      rw [List.mapM_nil, List.forall₂_nil_left_iff]
      exact ⟨fun h => (Option.some.inj h).symm, fun h => congrArg _ h.symm⟩
  | cons x xs ih =>
      rw [List.mapM_cons, List.forall₂_cons_left_iff]
      simp only [Option.bind_eq_bind, Option.bind_eq_some_iff, Option.pure_def, ih,
        Option.some.injEq]
      constructor
      · rintro ⟨y, first, zs, rest, rfl⟩
        exact ⟨y, zs, first, rest, rfl⟩
      · rintro ⟨y, zs, first, rest, rfl⟩
        exact ⟨y, first, zs, rest, rfl⟩

theorem mapM_eq_some_map {g : α → β} (h : ∀ x ∈ xs, f x = some (g x)) :
    xs.mapM f = some (xs.map g) :=
  mapM_eq_some_iff.2 (List.forall₂_map_right_iff.2 (List.forall₂_same.2 h))

theorem exists_of_mem_mapM (h : xs.mapM f = some ys) : ∀ y ∈ ys, ∃ x, f x = some y := by
  have all := mapM_eq_some_iff.1 h
  clear h
  induction all with
  | nil => exact List.forall_mem_nil _
  | cons first _ ih => exact List.forall_mem_cons.2 ⟨⟨_, first⟩, ih⟩

/-- What stands for an element stands between what stands for those around it. -/
theorem forall₂_append_cons_iff {R : α → β → Prop} :
    List.Forall₂ R (xs ++ x :: xs') ys ↔ ∃ before y after, ys = before ++ y :: after ∧
      List.Forall₂ R xs before ∧ R x y ∧ List.Forall₂ R xs' after := by
  induction xs generalizing ys with
  | nil =>
      rw [List.nil_append, List.forall₂_cons_left_iff]
      constructor
      · rintro ⟨y, ys, first, rest, rfl⟩
        exact ⟨[], y, ys, rfl, .nil, first, rest⟩
      · rintro ⟨before, y, ys, rfl, none, first, rest⟩
        cases none
        exact ⟨y, ys, first, rest, rfl⟩
  | cons z xs ih =>
      rw [List.cons_append, List.forall₂_cons_left_iff]
      constructor
      · rintro ⟨w, ys, first, rest, rfl⟩
        obtain ⟨before, y, after, rfl, front, here, back⟩ := ih.1 rest
        exact ⟨w :: before, y, after, rfl, .cons first front, here, back⟩
      · rintro ⟨whole, y, after, rfl, all, here, back⟩
        obtain ⟨w, before, first, front, rfl⟩ := List.forall₂_cons_left_iff.1 all
        exact ⟨w, before ++ y :: after, first, ih.2 ⟨before, y, after, rfl, front, here, back⟩, rfl⟩

/-- An element of a list stands between those around it. -/
theorem exists_append_of_getElem? {i : Nat} (place : xs[i]? = some x) :
    ∃ before after, xs = before ++ x :: after ∧ before.length = i := by
  obtain ⟨lt, rfl⟩ := List.getElem?_eq_some_iff.1 place
  refine ⟨xs.take i, xs.drop (i + 1), ?_, List.length_take_of_le (Nat.le_of_lt lt)⟩
  rw [List.getElem_cons_drop, List.take_append_drop]

theorem forall₂_imp_of_mem {R S : α → β → Prop} (h : List.Forall₂ R xs ys)
    (imp : ∀ x ∈ xs, ∀ y, R x y → S x y) : List.Forall₂ S xs ys := by
  induction h with
  | nil => exact .nil
  | cons first _ ih =>
      exact .cons (imp _ List.mem_cons_self _ first)
        (ih fun x mem => imp x (List.mem_cons_of_mem _ mem))

end IncludeAtlas
