/-!
# Ordered insertion

Sets kept as ascending lists.  Elements are compared by a key, and of elements with
equal keys the one that came first stays.

## Main Definitions

* `Ascending`: keys strictly increase along a list
* `insert`: adds an element to an ascending list
* `ofList`: the set of the elements of a list

## Design notes

Main statements: insertion keeps a list ascending, adds nothing but the new element
and loses nothing; the set of a list has no other elements and all of its keys.
-/

namespace IncludeAtlas.Ordered

variable {α κ : Type} [LT κ]

/-- Keys strictly increase along the list. -/
def Ascending (key : α → κ) (xs : List α) : Prop :=
  xs.Pairwise fun x y => key x < key y

instance [DecidableLT κ] (key : α → κ) (xs : List α) : Decidable (Ascending key xs) :=
  inferInstanceAs (Decidable (List.Pairwise _ _))

/-- Adds an element, unless one with the same key is there already. -/
def insert [DecidableLT κ] (key : α → κ) (x : α) : List α → List α
  | [] => [x]
  | y :: ys =>
    if key x < key y then x :: y :: ys
    else if key y < key x then y :: insert key x ys
    else y :: ys

/-- The elements of a list in ascending order, the first of each key. -/
def ofList [DecidableLT κ] (key : α → κ) (xs : List α) : List α :=
  xs.foldl (fun set x => insert key x set) []

theorem mem_insert_imp [DecidableLT κ] {key : α → κ} {x z : α} {ys : List α}
    (h : z ∈ insert key x ys) : z = x ∨ z ∈ ys := by
  induction ys with
  | nil => simpa [insert] using h
  | cons y ys ih =>
    unfold insert at h
    split at h
    · simpa using h
    · split at h
      · rcases List.mem_cons.1 h with rfl | h
        · simp
        · rcases ih h with rfl | h <;> simp_all
      · exact .inr h

theorem mem_insert_of_mem [DecidableLT κ] {key : α → κ} {x z : α} {ys : List α}
    (h : z ∈ ys) : z ∈ insert key x ys := by
  induction ys with
  | nil => simp at h
  | cons y ys ih =>
    unfold insert
    split
    · exact List.mem_cons_of_mem _ h
    · split
      · rcases List.mem_cons.1 h with rfl | h
        · simp
        · exact List.mem_cons_of_mem _ (ih h)
      · exact h

theorem ascending_insert [DecidableLT κ] [Trans (α := κ) (· < ·) (· < ·) (· < ·)]
    {key : α → κ} {x : α} {ys : List α} (h : Ascending key ys) :
    Ascending key (insert key x ys) := by
  induction ys with
  | nil => simp [insert, Ascending]
  | cons y ys ih =>
    have ⟨hy, hys⟩ := List.pairwise_cons.1 h
    unfold insert
    split
    · rename_i lt
      refine List.pairwise_cons.2 ⟨fun z hz => ?_, h⟩
      rcases List.mem_cons.1 hz with rfl | hz
      · exact lt
      · exact Std.lt_trans lt (hy z hz)
    · split
      · rename_i lt
        refine List.pairwise_cons.2 ⟨fun z hz => ?_, ih hys⟩
        rcases mem_insert_imp hz with rfl | hz
        · exact lt
        · exact hy z hz
      · exact h

/-- After an insertion there is an element with the key of the new one. -/
theorem exists_mem_insert [DecidableLT κ] [Std.Trichotomous (α := κ) (· < ·)]
    (key : α → κ) (x : α) (ys : List α) : ∃ z ∈ insert key x ys, key z = key x := by
  induction ys with
  | nil => exact ⟨x, List.mem_singleton.2 rfl, rfl⟩
  | cons y ys ih =>
    unfold insert
    split
    · exact ⟨x, List.mem_cons_self, rfl⟩
    · rename_i notLt
      split
      · obtain ⟨z, hz, eq⟩ := ih
        exact ⟨z, List.mem_cons_of_mem y hz, eq⟩
      · rename_i notGt
        exact ⟨y, List.mem_cons_self, Std.Trichotomous.trichotomous _ _ notGt notLt⟩

theorem mem_of_mem_ofList [DecidableLT κ] {key : α → κ} {x : α} {xs : List α}
    (h : x ∈ ofList key xs) : x ∈ xs := by
  suffices ∀ set, x ∈ xs.foldl (fun set x => insert key x set) set → x ∈ set ∨ x ∈ xs from
    (this [] h).resolve_left List.not_mem_nil
  clear h
  induction xs with
  | nil => exact fun _ h => .inl h
  | cons y ys ih =>
    intro set h
    rcases ih _ h with h | h
    · rcases mem_insert_imp h with rfl | h
      · exact .inr List.mem_cons_self
      · exact .inl h
    · exact .inr (List.mem_cons_of_mem y h)

/-- The set of a list has an element for every key of the list. -/
theorem exists_mem_ofList [DecidableLT κ] [Std.Trichotomous (α := κ) (· < ·)]
    (key : α → κ) {x : α} {xs : List α} (h : x ∈ xs) : ∃ z ∈ ofList key xs, key z = key x := by
  suffices ∀ set, (x ∈ xs ∨ ∃ z ∈ set, key z = key x) →
      ∃ z ∈ xs.foldl (fun set x => insert key x set) set, key z = key x from
    this [] (.inl h)
  clear h
  induction xs with
  | nil => exact fun _ h => h.resolve_left List.not_mem_nil
  | cons y ys ih =>
    intro set h
    refine ih _ ?_
    rcases h with h | ⟨z, hz, eq⟩
    · rcases List.mem_cons.1 h with rfl | h
      · exact .inr (exists_mem_insert key x set)
      · exact .inl h
    · exact .inr ⟨z, mem_insert_of_mem hz, eq⟩

theorem ascending_ofList [DecidableLT κ] [Trans (α := κ) (· < ·) (· < ·) (· < ·)]
    {key : α → κ} (xs : List α) : Ascending key (ofList key xs) := by
  suffices ∀ set, Ascending key set →
      Ascending key (xs.foldl (fun set x => insert key x set) set) from
    this [] List.Pairwise.nil
  induction xs with
  | nil => exact fun _ h => h
  | cons x xs ih => exact fun set h => ih _ (ascending_insert h)

end IncludeAtlas.Ordered
