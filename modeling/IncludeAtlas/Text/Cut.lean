/-!
# Cutting at separators

A sequence between its separators.

## Main Definitions

* `pieces`: the pieces, one more than there are separators

## Design notes

`pieces_append` is the law that the pieces are read off with: what stands before the first
separator is the first piece, and the others are those of the rest.
-/

namespace IncludeAtlas.Cut

variable {α : Type} [DecidableEq α]

/-- The pieces of a sequence between its separators, at least one. -/
def pieces (separator : α) : List α → List (List α)
  | [] => [[]]
  | c :: cs =>
    if c = separator then [] :: pieces separator cs
    else
      match pieces separator cs with
      | [] => [[c]]
      | s :: rest => (c :: s) :: rest

/-- There is at least one piece. -/
theorem pieces_ne_nil (separator : α) (s : List α) : pieces separator s ≠ [] := by
  cases s with
  | nil => simp [pieces]
  | cons c cs =>
    unfold pieces
    split
    · simp
    · split <;> simp

/-- What holds no separator is one piece. -/
theorem pieces_of_notMem {separator : α} {s : List α} (h : separator ∉ s) :
    pieces separator s = [s] := by
  induction s with
  | nil => rfl
  | cons c cs ih =>
    simp only [List.mem_cons, not_or] at h
    simp [pieces, Ne.symm h.1, ih h.2]

/-- What stands before the first separator is the first piece. -/
theorem pieces_append {separator : α} {p : List α} (h : separator ∉ p) (s : List α) :
    pieces separator (p ++ separator :: s) = p :: pieces separator s := by
  induction p with
  | nil => simp [pieces]
  | cons c cs ih =>
    simp only [List.mem_cons, not_or] at h
    simp [pieces, Ne.symm h.1, ih h.2]

/-- At a separator a sequence is cut apart. -/
theorem pieces_append_separator (separator : α) (s t : List α) :
    pieces separator (s ++ separator :: t) = pieces separator s ++ pieces separator t := by
  induction s with
  | nil => simp [pieces]
  | cons c cs ih =>
    rw [List.cons_append, pieces, pieces, ih]
    split
    · rfl
    · split <;> rename_i here
      · exact absurd here (by simp [pieces_ne_nil])
      · split
        · rename_i none
          exact absurd none (pieces_ne_nil separator cs)
        · rename_i some
          rw [some, List.cons_append, List.cons.injEq] at here
          obtain ⟨rfl, rfl⟩ := here
          rfl

/-- Pieces that are joined by separators are cut apart again. -/
theorem pieces_intercalate {separator : α} {ss : List (List α)} (ne : ss ≠ [])
    (h : ∀ s ∈ ss, separator ∉ s) : pieces separator ([separator].intercalate ss) = ss := by
  induction ss with
  | nil => exact absurd rfl ne
  | cons s ss ih =>
    cases ss with
    | nil =>
      rw [List.intercalate_singleton]
      exact pieces_of_notMem (h s List.mem_cons_self)
    | cons t ss =>
      rw [List.intercalate_cons_cons, List.append_assoc, List.singleton_append,
        pieces_append (h s List.mem_cons_self),
        ih (List.cons_ne_nil t ss) fun r hr => h r (List.mem_cons_of_mem s hr)]

/-- What holds no separator stands at the start of the first piece. -/
theorem pieces_prepend {separator : α} {p s first : List α} {rest : List (List α)}
    (h : separator ∉ p) (cut : pieces separator s = first :: rest) :
    pieces separator (p ++ s) = (p ++ first) :: rest := by
  induction p with
  | nil => exact cut
  | cons c p ih =>
    simp only [List.mem_cons, not_or] at h
    simp [pieces, Ne.symm h.1, ih h.2]

/-- Nothing is lost but separators. -/
theorem exists_mem_pieces_of_mem {separator c : α} {s : List α} (h : c ∈ s) (ne : c ≠ separator) :
    ∃ p ∈ pieces separator s, c ∈ p := by
  induction s with
  | nil => cases h
  | cons d ds ih =>
    unfold pieces
    rcases List.mem_cons.1 h with rfl | h
    · rw [if_neg ne]
      split <;> simp
    · obtain ⟨p, hp, hc⟩ := ih h
      split
      · exact ⟨p, List.mem_cons_of_mem _ hp, hc⟩
      · split
        · rename_i hn
          exact absurd hn (pieces_ne_nil separator ds)
        · rename_i q rest hq
          rw [hq] at hp
          rcases List.mem_cons.1 hp with rfl | hp
          · exact ⟨d :: p, List.mem_cons_self, List.mem_cons_of_mem d hc⟩
          · exact ⟨p, List.mem_cons_of_mem _ hp, hc⟩

/-- No piece holds a separator. -/
theorem notMem_of_mem_pieces {separator : α} {s p : List α} (h : p ∈ pieces separator s) :
    separator ∉ p := by
  induction s generalizing p with
  | nil => simp_all [pieces]
  | cons c cs ih =>
    unfold pieces at h
    split at h
    · rcases List.mem_cons.1 h with rfl | h
      · simp
      · exact ih h
    · rename_i hc
      split at h
      · rename_i hn
        exact absurd hn (pieces_ne_nil separator cs)
      · rename_i q rest hp
        rcases List.mem_cons.1 h with rfl | h
        · have := ih (hp ▸ List.mem_cons_self)
          simp [Ne.symm hc, this]
        · exact ih (hp ▸ List.mem_cons_of_mem q h)

end IncludeAtlas.Cut
