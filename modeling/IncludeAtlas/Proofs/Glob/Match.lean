import IncludeAtlas.Glob.Match
import Mathlib.Data.List.Basic

/-!
# What a pattern stands for

A row of parts stands for the byte strings of which it can leave nothing.  This module says
part by part which these are, so that a pattern can be read off without running it.

## Main Definitions

* `Glob.Spells`: a row of parts stands for a byte string

## Main Results

* `Glob.accepts_iff`: a pattern matches the names that it stands for
* `Glob.spells_star`: a star before other parts stands for anything before what they stand for

## Design notes

Matching goes through lists of remainders with repetitions taken out.  A remainder of several
byte strings is one of one of them (`mem_remaindersAll_iff`), and that is all that is needed to
look at one byte string at a time.
-/

namespace IncludeAtlas.Glob

variable {segments : Bool} {t : Token} {ts : List Token} {s u r : Bytes} {ss : List Bytes}

/-! ## Remainders -/

/-- What a row may leave of several byte strings, it may leave of one of them. -/
theorem mem_remaindersAll_iff :
    r ∈ remaindersAll segments ts ss ↔ ∃ s ∈ ss, r ∈ remaindersAll segments ts [s] := by
  induction ts generalizing ss with
  | nil => simp [remaindersAll]
  | cons t ts ih =>
      have step : ∀ ss, r ∈ remaindersAll segments (t :: ts) ss ↔
          ∃ u, (∃ s ∈ ss, u ∈ remainders segments t s) ∧ r ∈ remaindersAll segments ts [u] := by
        intro ss
        rw [remaindersAll, ih]
        simp only [List.mem_eraseDups, List.mem_flatMap]
      rw [step]
      simp only [step, List.mem_singleton, exists_eq_left]
      constructor
      · rintro ⟨u, ⟨s, hs, left⟩, rest⟩
        exact ⟨s, hs, u, left, rest⟩
      · rintro ⟨s, hs, u, left, rest⟩
        exact ⟨u, ⟨s, hs, left⟩, rest⟩

/-- A row leaves what its later parts leave of what its first part leaves. -/
theorem mem_remaindersAll_cons_iff :
    r ∈ remaindersAll segments (t :: ts) [s] ↔
      ∃ u ∈ remainders segments t s, r ∈ remaindersAll segments ts [u] := by
  rw [remaindersAll, mem_remaindersAll_iff]
  simp

/-- What remains after a given start. -/
theorem afterPrefix?_eq_some_iff : afterPrefix? r s = some u ↔ s = r ++ u := by
  fun_induction afterPrefix? r s with
  | case1 s => simp [eq_comm]
  | case2 b bs => simp
  | case3 b bs cs ih => simp [ih]
  | case4 b bs c cs ne =>
      simp only [List.cons_append, List.cons.injEq, reduceCtorEq, false_iff, not_and]
      exact fun eq => absurd eq.symm ne

/-- What remains after bytes that all satisfy a condition. -/
theorem mem_afterSome_iff {p : UInt8 → Bool} :
    u ∈ afterSome p s ↔ ∃ taken, s = taken ++ u ∧ ∀ b ∈ taken, p b = true := by
  induction s with
  | nil => simp [afterSome]
  | cons b bs ih =>
      rw [afterSome, List.mem_cons]
      constructor
      · rintro (rfl | mem)
        · exact ⟨[], rfl, List.forall_mem_nil _⟩
        · split at mem
          · rename_i first
            obtain ⟨taken, rfl, all⟩ := ih.1 mem
            exact ⟨b :: taken, rfl, List.forall_mem_cons.2 ⟨first, all⟩⟩
          · cases mem
      · rintro ⟨taken, eq, all⟩
        cases taken with
        | nil => exact .inl eq.symm
        | cons c taken =>
            obtain ⟨rfl, rfl⟩ := List.cons.inj eq
            rw [List.forall_mem_cons] at all
            rw [if_pos all.1]
            exact .inr (ih.2 ⟨taken, rfl, all.2⟩)

/-! ## What rows of parts stand for -/

/-- A row of parts stands for a byte string: it can leave nothing of it. -/
def Spells (ts : List Token) (s : Bytes) : Prop :=
  [] ∈ remaindersAll false ts [s]

/-- **A pattern matches the names that it stands for.** -/
theorem accepts_iff (ne : ts ≠ [.leading]) : accepts false ts s = true ↔ Spells ts s := by
  rw [accepts]
  · exact List.contains_iff_mem
  · exact ne

@[simp] theorem spells_nil : Spells [] s ↔ s = [] := by
  rw [Spells, remaindersAll, List.mem_singleton, eq_comm]

/-- The first part takes a start of the byte string, and the others stand for the rest. -/
theorem spells_cons : Spells (t :: ts) s ↔ ∃ u ∈ remainders false t s, Spells ts u :=
  mem_remaindersAll_cons_iff

/-- A character stands for its bytes. -/
@[simp] theorem spells_literal {c : Char} :
    Spells (.literal c :: ts) s ↔ ∃ u, s = Utf8.encodeChar c ++ u ∧ Spells ts u := by
  simp only [spells_cons, remainders, Option.mem_toList, afterPrefix?_eq_some_iff]

/-- A class stands for one byte that it holds. -/
@[simp] theorem spells_oneOf {negated : Bool} {ranges : List (Char × Char)} :
    Spells (.oneOf negated ranges :: ts) s ↔
      ∃ b u, s = b :: u ∧ classHolds negated ranges b = true ∧ Spells ts u := by
  rw [spells_cons]
  cases s with
  | nil => simp [remainders]
  | cons b bs =>
      rw [remainders]
      by_cases holds : classHolds negated ranges b = true
      · simp [holds]
      · simp [holds]

/-- **A star stands for anything**, so the parts after it stand for an end of the byte
string. -/
theorem spells_star : Spells (.star :: ts) s ↔ ∃ u, u <:+ s ∧ Spells ts u := by
  rw [spells_cons, remainders]
  refine exists_congr fun u => and_congr_left fun _ => ?_
  rw [mem_afterSome_iff]
  constructor
  · rintro ⟨taken, eq, -⟩
    exact ⟨taken, eq.symm⟩
  · rintro ⟨taken, eq⟩
    exact ⟨taken, eq.symm, fun _ _ => by simp⟩

end IncludeAtlas.Glob
