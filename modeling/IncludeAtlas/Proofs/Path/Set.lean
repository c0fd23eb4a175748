import IncludeAtlas.Path.Order
import Mathlib.Data.List.Dedup
import Mathlib.Data.List.Induction
import Mathlib.Data.List.Perm.Basic

/-!
# Sets of paths

The set of some paths has each of them once, in whatever spelling.  So it is counted by what the
paths mean.

## Main Results

* `Ordered.mem_ofList_iff`: of elements with one key the first one is in the set
* `PathSet.exists_mem_ofList_iff`: a set has the paths that it was made of
* `PathSet.mem_ofList_iff`: it has them as they were spelled first
* `PathSet.pairwise_not_same`: it has each of them once
* `PathSet.length_ofList_eq_iff`: it is as large as the list that it was made of, exactly if no
  two elements of the list are the same path
* `PathSet.length_filter_ofList`: a set within a set
-/

namespace IncludeAtlas

/-! ## Sets by keys -/

namespace Ordered

variable {α κ : Type} [LT κ] [DecidableLT κ] [Trans (α := κ) (· < ·) (· < ·) (· < ·)]
  [Std.Irrefl (α := κ) (· < ·)] [Std.Trichotomous (α := κ) (· < ·)] {key : α → κ} {x z : α}
  {xs ys : List α}

/-- An insertion adds the new element unless one with its key is there. -/
theorem mem_insert_iff (h : Ascending key ys) :
    z ∈ insert key x ys ↔ z ∈ ys ∨ z = x ∧ ∀ y ∈ ys, key y ≠ key x := by
  induction ys with
  | nil => simp [insert]
  | cons y ys ih =>
      obtain ⟨first, rest⟩ := List.pairwise_cons.1 h
      unfold insert
      split
      · rename_i before
        have apart : ∀ y' ∈ y :: ys, key y' ≠ key x := by
          intro y' mem eq
          have lt : key x < key y' := by
            rcases List.mem_cons.1 mem with rfl | mem
            · exact before
            · exact Std.lt_trans before (first y' mem)
          rw [eq] at lt
          exact Std.Irrefl.irrefl _ lt
        rw [List.mem_cons, and_iff_left apart, or_comm]
      · rename_i notBefore
        split
        · rename_i after
          have apart : key y ≠ key x := by
            intro eq
            rw [eq] at after
            exact Std.Irrefl.irrefl _ after
          rw [List.mem_cons, ih rest, List.mem_cons, List.forall_mem_cons, and_iff_right apart,
            or_assoc]
        · rename_i notAfter
          have eq : key y = key x := (Std.Trichotomous.trichotomous _ _ notBefore notAfter).symm
          rw [List.forall_mem_cons, or_iff_left]
          exact fun fresh => fresh.2.1 eq

/-- **Of elements with one key the first one is in the set.** -/
theorem mem_ofList_iff :
    z ∈ ofList key xs ↔ ∃ before after, xs = before ++ z :: after ∧
      ∀ y ∈ before, key y ≠ key z := by
  induction xs using List.reverseRecOn with
  | nil => simp [ofList]
  | append_singleton xs x ih =>
      have last : ofList key (xs ++ [x]) = insert key x (ofList key xs) := by
        unfold ofList
        rw [List.foldl_append]
        rfl
      have fresh : (∀ y ∈ ofList key xs, key y ≠ key x) ↔ ∀ y ∈ xs, key y ≠ key x := by
        constructor
        · intro apart y mem
          obtain ⟨z, hz, eq⟩ := exists_mem_ofList key mem
          rw [← eq]
          exact apart z hz
        · exact fun apart y mem => apart y (mem_of_mem_ofList mem)
      rw [last, mem_insert_iff (ascending_ofList xs), ih, fresh]
      constructor
      · rintro (⟨before, after, rfl, apart⟩ | ⟨rfl, apart⟩)
        · exact ⟨before, after ++ [x], by simp, apart⟩
        · exact ⟨xs, [], rfl, apart⟩
      · rintro ⟨before, after, split, apart⟩
        cases after using List.reverseRecOn with
        | nil =>
            obtain ⟨rfl, rfl⟩ := List.append_singleton_inj.1 split
            exact .inr ⟨rfl, apart⟩
        | append_singleton after y =>
            rw [← List.cons_append, ← List.append_assoc] at split
            exact .inl ⟨before, after, (List.append_singleton_inj.1 split).1, apart⟩

end Ordered

/-! ## Sets of paths -/

namespace PathSet

variable {ps qs : List Path} {p q : Path}

/-- **A set has the paths that it was made of, as they were spelled first.** -/
theorem mem_ofList_iff :
    p ∈ ofList ps ↔ ∃ before after, ps = before ++ p :: after ∧ ∀ q ∈ before, ¬ q.Same p := by
  unfold ofList
  rw [Ordered.mem_ofList_iff]
  simp only [ne_eq, Path.key_eq_iff]

/-- A set has the paths that it was made of, in some spelling. -/
theorem exists_mem_ofList_iff : (∃ q ∈ ofList ps, q.Same p) ↔ ∃ q ∈ ps, q.Same p := by
  constructor
  · rintro ⟨q, hq, same⟩
    exact ⟨q, Ordered.mem_of_mem_ofList hq, same⟩
  · rintro ⟨q, hq, same⟩
    obtain ⟨r, hr, eq⟩ := Ordered.exists_mem_ofList Path.key hq
    exact ⟨r, hr, (Path.key_eq_iff.1 eq).trans same⟩

/-- The paths of a set are different. -/
theorem pairwise_not_same (ps : List Path) :
    (ofList ps).Pairwise fun p q => ¬ p.Same q := by
  have ascending : (ofList ps).Pairwise fun p q => p.key < q.key :=
    Ordered.ascending_ofList ps
  refine ascending.imp fun lt same => ?_
  rw [Path.key_eq_iff.2 same] at lt
  exact List.lt_irrefl _ lt

theorem eq_of_same (hp : p ∈ ofList ps) (hq : q ∈ ofList ps) (same : p.Same q) : p = q := by
  have distinct : ((ofList ps).map Path.components).Nodup :=
    List.pairwise_map.2 (pairwise_not_same ps)
  exact List.inj_on_of_nodup_map distinct hp hq same

/-- Two lists of different paths that have the same paths are equally long. -/
theorem length_eq_of_exists_iff (hp : ps.Pairwise fun p q => ¬ p.Same q)
    (hq : qs.Pairwise fun p q => ¬ p.Same q)
    (same : ∀ p, (∃ q ∈ ps, q.Same p) ↔ ∃ q ∈ qs, q.Same p) : ps.length = qs.length := by
  have perm : (ps.map Path.components).Perm (qs.map Path.components) := by
    rw [List.perm_ext_iff_of_nodup (List.pairwise_map.2 hp) (List.pairwise_map.2 hq)]
    intro cs
    simp only [List.mem_map]
    constructor
    · rintro ⟨p, mem, rfl⟩
      exact (same p).1 ⟨p, mem, Path.Same.refl p⟩
    · rintro ⟨q, mem, rfl⟩
      exact (same q).2 ⟨q, mem, Path.Same.refl q⟩
  simpa using perm.length_eq

/-- A set is as large as its paths are many, apart from spellings. -/
theorem length_ofList (ps : List Path) :
    (ofList ps).length = (ps.map Path.components).dedup.length := by
  have perm : ((ofList ps).map Path.components).Perm (ps.map Path.components).dedup := by
    rw [List.perm_ext_iff_of_nodup (List.pairwise_map.2 (pairwise_not_same ps))
      (List.nodup_dedup _)]
    intro cs
    simp only [List.mem_dedup, List.mem_map]
    constructor
    · rintro ⟨p, mem, rfl⟩
      exact exists_mem_ofList_iff.1 ⟨p, mem, Path.Same.refl p⟩
    · rintro ⟨p, mem, rfl⟩
      exact exists_mem_ofList_iff.2 ⟨p, mem, Path.Same.refl p⟩
  simpa using perm.length_eq

/-- A set is no larger than the list that it was made of. -/
theorem length_ofList_le (ps : List Path) : (ofList ps).length ≤ ps.length := by
  rw [length_ofList, ← ps.length_map (f := Path.components)]
  exact (List.dedup_sublist _).length_le

/-- **A set is as large as the list that it was made of**, exactly if no two elements of the list
are the same path. -/
theorem length_ofList_eq_iff :
    (ofList ps).length = ps.length ↔ ps.Pairwise fun p q => ¬ p.Same q := by
  rw [length_ofList, ← ps.length_map (f := Path.components)]
  constructor
  · intro eq
    have kept := (List.dedup_sublist (ps.map Path.components)).eq_of_length eq
    exact List.pairwise_map.1 (List.dedup_eq_self.1 kept)
  · intro different
    rw [List.dedup_eq_self.2 (List.pairwise_map.2 different)]

/-- **A set within a set**: if one set has all paths of another one, it has as many of them as the
other one is large. -/
theorem length_filter_ofList (within : ∀ q ∈ qs, ∃ p ∈ ps, p.Same q) :
    ((ofList ps).filter fun p => ∃ q ∈ qs, q.Same p).length = (ofList qs).length := by
  refine length_eq_of_exists_iff ((pairwise_not_same ps).filter _) (pairwise_not_same qs) ?_
  intro p
  rw [exists_mem_ofList_iff]
  constructor
  · rintro ⟨r, hr, same⟩
    obtain ⟨-, chosen⟩ := List.mem_filter.1 hr
    obtain ⟨q, hq, sameR⟩ := of_decide_eq_true chosen
    exact ⟨q, hq, sameR.trans same⟩
  · rintro ⟨q, hq, same⟩
    obtain ⟨r, hr, sameQ⟩ := exists_mem_ofList_iff.2 (within q hq)
    exact ⟨r, List.mem_filter.2 ⟨hr, decide_eq_true ⟨q, hq, sameQ.symm⟩⟩, sameQ.trans same⟩

end PathSet

end IncludeAtlas
