import IncludeAtlas.Text.Lines
import Mathlib.Data.List.Basic
import Mathlib.Data.List.Induction

/-!
# What a line is

The lines of a text, described by where they stand in it and not by how they are cut out.

## Main Definitions

* `Lines.Begins`: a line begins after some characters
* `Lines.IsLine`: a row of characters is a line of a text

## Main Results

* `Lines.split_append`: texts that meet at a line feed are cut apart from each other
* `Lines.mem_lines_iff`: what is cut out of a text are its lines

## What is load-bearing

A carriage return belongs to the end of a line only right before a line feed.  The piece after
the last line feed is therefore described by a constructor of its own: it keeps its carriage
return, and it is no line if nothing is there.
-/

namespace IncludeAtlas.Lines

variable {α : Type} [DecidableEq α] {feed ret : α} {s body line : List α}

/-- A line begins after some characters: where there are none, and after a line feed. -/
def Begins (feed : α) (before : List α) : Prop :=
  before = [] ∨ ∃ b, before = b ++ [feed]

/-- A row of characters without a line feed is a line of a text. -/
inductive IsLine (feed ret : α) (s : List α) : List α → Prop
  /-- Before a line feed, with no carriage return at its end. -/
  | ended {before line after : List α} :
      s = before ++ line ++ feed :: after → Begins feed before → feed ∉ line →
      line.getLast? ≠ some ret → IsLine feed ret s line
  /-- Before a carriage return and a line feed. -/
  | returned {before line after : List α} :
      s = before ++ line ++ ret :: feed :: after → Begins feed before → feed ∉ line →
      IsLine feed ret s line
  /-- At the end of the text, if anything stands there. -/
  | last {before line : List α} :
      s = before ++ line → Begins feed before → feed ∉ line → line ≠ [] →
      IsLine feed ret s line

/-! ## Cutting at line feeds -/

theorem split_cons_feed (s : List α) :
    split feed (feed :: s) = ([] :: (split feed s).1, (split feed s).2) := by
  rw [split]
  exact if_pos rfl

/-- What holds no line feed is one piece, which nothing ends. -/
theorem split_of_notMem (h : feed ∉ body) : split feed body = ([], body) := by
  induction body with
  | nil => rfl
  | cons c cs ih =>
      rw [List.mem_cons, not_or] at h
      rw [split, ih h.2]
      exact if_neg (Ne.symm h.1)

/-- **Texts that meet at a line feed are cut apart from each other**: the feed ends what the
first one leaves open. -/
theorem split_append (s t : List α) :
    split feed (s ++ feed :: t) =
      ((split feed s).1 ++ (split feed s).2 :: (split feed t).1, (split feed t).2) := by
  induction s with
  | nil => exact split_cons_feed t
  | cons c cs ih =>
      rw [List.cons_append, split, ih, split]
      by_cases here : c = feed
      · simp [here]
      · cases ended : (split feed cs).1 <;> simp [here, ended]

/-- The pieces with their line feeds make up the text. -/
theorem flatMap_split (s : List α) :
    ((split feed s).1.flatMap fun l => l ++ [feed]) ++ (split feed s).2 = s := by
  induction s with
  | nil => rfl
  | cons c cs ih =>
      rw [split]
      by_cases here : c = feed
      · simpa [here] using ih
      · cases ended : (split feed cs).1 with
        | nil => simpa [here, ended] using ih
        | cons l ls => simpa [here, ended] using ih

/-- No piece holds a line feed. -/
theorem notMem_of_mem_split (s : List α) :
    (∀ l ∈ (split feed s).1, feed ∉ l) ∧ feed ∉ (split feed s).2 := by
  induction s with
  | nil => simp [split]
  | cons c cs ih =>
      rw [split]
      by_cases here : c = feed
      · simpa [here] using ih
      · cases ended : (split feed cs).1 with
        | nil => simpa [here, ended, Ne.symm here] using ih.2
        | cons l ls => simpa [here, ended, Ne.symm here, and_assoc] using ih

omit [DecidableEq α] in
/-- After pieces with their line feeds, a line begins. -/
theorem begins_flatMap (ls : List (List α)) : Begins feed (ls.flatMap fun l => l ++ [feed]) := by
  cases ls using List.reverseRecOn with
  | nil => exact .inl rfl
  | append_singleton ls l =>
      exact .inr ⟨(ls.flatMap fun l => l ++ [feed]) ++ l, by simp⟩

/-- The ended pieces are the stretches from the beginning of a line to the next line feed. -/
theorem mem_split_fst_iff :
    body ∈ (split feed s).1 ↔ ∃ before after,
      s = before ++ body ++ feed :: after ∧ Begins feed before ∧ feed ∉ body := by
  constructor
  · intro h
    obtain ⟨ls, ms, parts⟩ := List.append_of_mem h
    refine ⟨ls.flatMap fun l => l ++ [feed],
      (ms.flatMap fun l => l ++ [feed]) ++ (split feed s).2, ?_, begins_flatMap ls,
      (notMem_of_mem_split s).1 body h⟩
    conv_lhs => rw [← @flatMap_split α _ feed s, parts]
    simp
  · rintro ⟨before, after, rfl, rfl | ⟨b, rfl⟩, h⟩
    · rw [List.nil_append, split_append, split_of_notMem h]
      exact List.mem_cons_self
    · rw [List.append_assoc, List.append_assoc, List.singleton_append, split_append,
        split_append, split_of_notMem h]
      exact List.mem_append_right _ (List.mem_cons_of_mem _ List.mem_cons_self)

/-- The last piece is the stretch from the beginning of a line to the end of the text. -/
theorem split_snd_eq_iff :
    (split feed s).2 = body ↔ ∃ before, s = before ++ body ∧ Begins feed before ∧ feed ∉ body := by
  constructor
  · rintro rfl
    exact ⟨_, (flatMap_split s).symm, begins_flatMap _, (notMem_of_mem_split s).2⟩
  · rintro ⟨before, rfl, rfl | ⟨b, rfl⟩, h⟩
    · rw [List.nil_append, split_of_notMem h]
    · rw [List.append_assoc, List.singleton_append, split_append, split_of_notMem h]

/-! ## Lines -/

theorem dropReturn_append_singleton (line : List α) : dropReturn ret (line ++ [ret]) = line := by
  rw [dropReturn, if_pos List.getLast?_concat, List.dropLast_concat]

/-- What is left of a piece is the piece, unless one carriage return has gone. -/
theorem eq_of_dropReturn_eq (h : dropReturn ret body = line) :
    body = line ++ [ret] ∨ body = line ∧ line.getLast? ≠ some ret := by
  rw [dropReturn] at h
  split at h
  · rename_i returned
    exact .inl (by rw [← h, List.dropLast_append_getLast? ret returned])
  · rename_i plain
    subst h
    exact .inr ⟨rfl, plain⟩

/-- **What is cut out of a text are its lines**, and all of them. -/
theorem mem_lines_iff (ne : ret ≠ feed) : line ∈ lines feed ret s ↔ IsLine feed ret s line := by
  have cut : line ∈ lines feed ret s ↔
      (∃ body ∈ (split feed s).1, dropReturn ret body = line) ∨
        (split feed s).2 = line ∧ line ≠ [] := by
    rw [lines, List.mem_append, List.mem_map]
    refine or_congr_right ?_
    cases last : (split feed s).2 with
    | nil =>
        simp only [List.isEmpty_nil, if_true, List.not_mem_nil, false_iff, not_and]
        rintro rfl
        exact not_not_intro rfl
    | cons c cs =>
        simp only [List.isEmpty_cons, Bool.false_eq_true, if_false, List.mem_singleton]
        constructor
        · rintro rfl
          exact ⟨rfl, List.cons_ne_nil c cs⟩
        · rintro ⟨rfl, -⟩
          rfl
  rw [cut]
  constructor
  · rintro (⟨body, piece, left⟩ | ⟨last, nonempty⟩)
    · obtain ⟨before, after, eq, begins, noFeed⟩ := mem_split_fst_iff.1 piece
      rcases eq_of_dropReturn_eq left with rfl | ⟨rfl, plain⟩
      · have ends : s = before ++ line ++ ret :: feed :: after := by
          rw [eq]
          simp
        exact .returned ends begins fun h => noFeed (List.mem_append_left _ h)
      · exact .ended eq begins noFeed plain
    · obtain ⟨before, eq, begins, noFeed⟩ := split_snd_eq_iff.1 last
      exact .last eq begins noFeed nonempty
  · intro h
    cases h with
    | ended eq begins noFeed plain =>
        exact .inl ⟨line, mem_split_fst_iff.2 ⟨_, _, eq, begins, noFeed⟩, if_neg plain⟩
    | @returned before _ after eq begins noFeed =>
        refine .inl ⟨line ++ [ret], mem_split_fst_iff.2 ⟨before, after, ?_, begins, ?_⟩,
          dropReturn_append_singleton line⟩
        · rw [eq]
          simp
        · simp [noFeed, Ne.symm ne]
    | last eq begins noFeed nonempty =>
        exact .inr ⟨split_snd_eq_iff.2 ⟨_, eq, begins, noFeed⟩, nonempty⟩

omit [DecidableEq α] in
/-- A line holds no line feed. -/
theorem IsLine.notMem_feed (h : IsLine feed ret s line) : feed ∉ line := by
  cases h with
  | ended _ _ noFeed _ => exact noFeed
  | returned _ _ noFeed => exact noFeed
  | last _ _ noFeed _ => exact noFeed

/-- Lines that are written with a line feed each are read back. -/
theorem lines_flatMap {ls : List (List α)} (h : ∀ l ∈ ls, feed ∉ l ∧ l.getLast? ≠ some ret) :
    lines feed ret (ls.flatMap fun l => l ++ [feed]) = ls := by
  have cut : split feed (ls.flatMap fun l => l ++ [feed]) = (ls, []) := by
    induction ls with
    | nil => rfl
    | cons l ls ih =>
        rw [List.forall_mem_cons] at h
        rw [List.flatMap_cons, List.append_assoc, List.singleton_append, split_append,
          split_of_notMem h.1.1, ih h.2]
        rfl
  have kept : ls.map (dropReturn ret) = ls := by
    conv_rhs => rw [← List.map_id ls]
    exact List.map_congr_left fun l hl => if_neg (h l hl).2
  rw [lines, cut]
  simpa using kept

end IncludeAtlas.Lines
