import IncludeAtlas.Proofs.Text.Directive
import Mathlib.Data.List.Permutation
import Mathlib.Data.List.Sort

/-!
# Texts put together

What a text includes, in terms of what its parts include.  A line is judged by itself, so a text
that is put together at a line feed includes what its parts do, and neither the order of its lines
nor how they are ended has a say in it.

## Main Definitions

* `Lines.withReturns`: a carriage return before every line feed
* `Directive.union`: all tokens of some sets
* `Directive.ended`: texts one below the other, with a line feed after each
* `Directive.Composes`: tokens that are found in a text by its parts

## Main Results

* `Lines.lines_append`: the lines of a text that is put together at a line feed
* `Lines.lines_withReturns`, `Lines.lines_append_feed`: lines that are ended in another way
* `Directive.mem_tokens_ended`: what is included line by line
* `Directive.composition`: what a text includes, from its parts

## What is load-bearing

The first part keeps the line feed.  Without it its last line might end in a carriage return, which
is dropped before a line feed and kept at the end of a text.
-/

namespace IncludeAtlas

namespace Lines

variable {α : Type} [DecidableEq α] {feed ret : α} {s : List α}

/-- **Texts that meet at a line feed** have the lines of the first one with the line feed, and
then those of the second one. -/
theorem lines_append (s t : List α) :
    lines feed ret (s ++ feed :: t) = lines feed ret (s ++ [feed]) ++ lines feed ret t := by
  unfold lines
  rw [split_append s t, split_append s []]
  simp [split]

/-! ## Carriage returns -/

/-- A carriage return before every line feed. -/
def withReturns (feed ret : α) (s : List α) : List α :=
  s.flatMap fun c => if c = feed then [ret, feed] else [c]

/-- Then every piece has one at its end, except for the piece that no line feed ends. -/
theorem split_withReturns (ne : ret ≠ feed) (s : List α) :
    split feed (withReturns feed ret s) =
      ((split feed s).1.map (· ++ [ret]), (split feed s).2) := by
  induction s with
  | nil => rfl
  | cons c cs ih =>
      by_cases here : c = feed
      · subst here
        have alone : split c [ret] = ([], [ret]) := split_of_notMem (by simpa using Ne.symm ne)
        have spelled : withReturns c ret (c :: cs) = [ret] ++ c :: withReturns c ret cs := by
          unfold withReturns
          simp
        rw [spelled, split_append, alone, ih, split_cons_feed]
        rfl
      · have spelled : withReturns feed ret (c :: cs) = c :: withReturns feed ret cs := by
          unfold withReturns
          simp [here]
        rw [spelled, split, ih, split]
        cases pieces : (split feed cs).1 <;> simp [here, pieces]

/-- **Carriage returns before the line feeds change no line**, if no piece ends in one already. -/
theorem lines_withReturns (ne : ret ≠ feed)
    (plain : ∀ l ∈ (split feed s).1, l.getLast? ≠ some ret) :
    lines feed ret (withReturns feed ret s) = lines feed ret s := by
  have dropped : ((split feed s).1.map (· ++ [ret])).map (dropReturn ret) =
      (split feed s).1.map (dropReturn ret) := by
    rw [List.map_map]
    refine List.map_congr_left fun l hl => ?_
    rw [Function.comp_apply, dropReturn_append_singleton, dropReturn, if_neg (plain l hl)]
  unfold lines
  simp only [split_withReturns ne s, dropped]

/-- What ends the last piece ends the text. -/
theorem getLast?_of_split (more : (split feed s).2 ≠ []) :
    (split feed s).2.getLast? = s.getLast? := by
  conv_rhs => rw [← @flatMap_split α _ feed s]
  exact (List.getLast?_append_of_ne_nil _ more).symm

/-- **A line feed at the end** adds a line only if nothing stands before it, and then an empty
one.  A carriage return there would go with it. -/
theorem lines_append_feed (plain : s.getLast? ≠ some ret) :
    lines feed ret (s ++ [feed]) =
      lines feed ret s ++ if (split feed s).2 = [] then [[]] else [] := by
  unfold lines
  rw [split_append s []]
  by_cases last : (split feed s).2 = []
  · simp [last, split, dropReturn]
  · have kept : dropReturn ret (split feed s).2 = (split feed s).2 := by
      rw [dropReturn, getLast?_of_split last, if_neg plain]
    simp [last, split, kept]

end Lines

namespace Directive

variable {t : String}

/-! ## Sets of tokens -/

/-- All tokens of some sets, in ascending order. -/
def union (tss : List (List String)) : List String :=
  Ordered.ofList id tss.flatten

theorem mem_union {tss : List (List String)} : t ∈ union tss ↔ ∃ ts ∈ tss, t ∈ ts := by
  unfold union
  rw [mem_ofList, List.mem_flatten]

theorem ascending_union (tss : List (List String)) : (union tss).Pairwise (· < ·) :=
  Ordered.ascending_ofList tss.flatten

theorem ascending_tokens (source : String) : (tokens source).Pairwise (· < ·) :=
  Ordered.ascending_ofList _

/-! ## Lines that are read alike -/

/-- An empty line is no directive. -/
theorem not_includes_nil : ¬ Includes [] t.toList := by
  rintro ⟨opening, closing, -, eq, -⟩
  cases eq

/-- Texts that differ in empty lines only include the same tokens. -/
theorem tokens_congr {source source' : String}
    (same : ∀ line, line ≠ [] → (line ∈ Lines.lines '\n' '\r' source.toList ↔
      line ∈ Lines.lines '\n' '\r' source'.toList)) :
    tokens source = tokens source' := by
  apply (ascending_tokens source).eq_of_mem_iff (ascending_tokens source')
  intro t
  rw [mem_tokens, mem_tokens]
  refine exists_congr fun line => and_congr_left fun includes => same line ?_
  rintro rfl
  exact not_includes_nil includes

/-- A text with a carriage return before every line feed. -/
def withReturns (source : String) : String :=
  String.ofList (Lines.withReturns '\n' '\r' source.toList)

/-! ## Texts one below the other -/

/-- Texts one below the other, with a line feed after each. -/
def ended (texts : List String) : String :=
  String.ofList (texts.flatMap fun s => s.toList ++ ['\n'])

theorem toList_ended_cons (s : String) (texts : List String) :
    (ended (s :: texts)).toList = s.toList ++ '\n' :: (ended texts).toList := by
  unfold ended
  rw [String.toList_ofList, String.toList_ofList, List.flatMap_cons, List.append_assoc,
    List.singleton_append]

/-- **A text that is put together at a line feed** includes what the first part, ended by the line
feed, and the second part do. -/
theorem mem_tokens_of_append {source a b : String}
    (meet : source.toList = a.toList ++ '\n' :: b.toList) :
    t ∈ tokens source ↔ t ∈ tokens (a ++ "\n") ∨ t ∈ tokens b := by
  have first : (a ++ "\n").toList = a.toList ++ ['\n'] := String.toList_append
  rw [mem_tokens, mem_tokens, mem_tokens, meet, Lines.lines_append, first]
  simp only [List.mem_append, or_and_right, exists_or]

/-- **Texts one below the other** include what each of them does. -/
theorem mem_tokens_ended {texts : List String} :
    t ∈ tokens (ended texts) ↔ ∃ s ∈ texts, t ∈ tokens (s ++ "\n") := by
  induction texts with
  | nil =>
      have nothing : tokens (ended []) = [] := rfl
      simp [nothing]
  | cons s texts ih =>
      rw [mem_tokens_of_append (toList_ended_cons s texts), ih]
      simp only [List.exists_mem_cons_iff]

/-- Tokens that are found in a text by its parts, for any way of finding them. -/
structure Composes (tokens : String → List String) : Prop where
  /-- A text that is put together at a line feed has all tokens of the first part with the line
  feed and of the second one. -/
  joined : ∀ a b, tokens (a ++ "\n" ++ b) = union [tokens (a ++ "\n"), tokens b]
  /-- Of texts one below the other it matters which there are, and not in what order or how
  often. -/
  below : ∀ texts texts' : List String, (∀ s, s ∈ texts ↔ s ∈ texts') →
    tokens (ended texts) = tokens (ended texts')
  /-- Nor does it matter in how many files they are. -/
  grouped : ∀ groups : List (List String),
    tokens (ended groups.flatten) = union (groups.map fun texts => tokens (ended texts))
  /-- Lines can be ended by a line feed alone or with a carriage return before it. -/
  returned : ∀ s : String, '\r' ∉ s.toList → tokens (withReturns s) = tokens s
  /-- The last line need not be ended at all. -/
  closed : ∀ s : String, s.toList.getLast? ≠ some '\r' → tokens (s ++ "\n") = tokens s

/-- **What a text includes, from its parts.**  Lines are judged by themselves, so neither their
order nor how they are ended has a say in it. -/
theorem composition : Composes tokens := by
  refine ⟨fun a b => ?_, fun texts texts' same => ?_, fun groups => ?_, fun s noReturn => ?_,
    fun s plain => ?_⟩
  · have meet : (a ++ "\n" ++ b).toList = a.toList ++ '\n' :: b.toList := by
      rw [String.toList_append, String.toList_append, List.append_assoc]
      rfl
    apply (ascending_tokens _).eq_of_mem_iff (ascending_union _)
    intro t
    rw [mem_tokens_of_append meet, mem_union]
    simp
  · apply (ascending_tokens _).eq_of_mem_iff (ascending_tokens _)
    intro t
    rw [mem_tokens_ended, mem_tokens_ended]
    exact exists_congr fun s => and_congr_left fun _ => same s
  · apply (ascending_tokens _).eq_of_mem_iff (ascending_union _)
    intro t
    rw [mem_tokens_ended, mem_union]
    constructor
    · rintro ⟨s, mem, included⟩
      obtain ⟨texts, group, mem⟩ := List.mem_flatten.1 mem
      exact ⟨_, List.mem_map_of_mem group, mem_tokens_ended.2 ⟨s, mem, included⟩⟩
    · rintro ⟨ts, mem, included⟩
      obtain ⟨texts, group, rfl⟩ := List.mem_map.1 mem
      obtain ⟨s, mem, included⟩ := mem_tokens_ended.1 included
      exact ⟨s, List.mem_flatten.2 ⟨texts, group, mem⟩, included⟩
  · have pieces : ∀ l ∈ (Lines.split '\n' s.toList).1, l.getLast? ≠ some '\r' := by
      intro l hl last
      obtain ⟨before, after, eq, -⟩ := Lines.mem_split_fst_iff.1 hl
      apply noReturn
      rw [eq]
      simp [List.mem_of_getLast? last]
    apply tokens_congr
    intro line _
    unfold withReturns
    rw [String.toList_ofList, Lines.lines_withReturns (by decide) pieces]
  · apply tokens_congr
    intro line ne
    have ends : (s ++ "\n").toList = s.toList ++ ['\n'] := String.toList_append
    rw [ends, Lines.lines_append_feed plain, List.mem_append]
    refine or_iff_left fun mem => ne ?_
    split at mem
    · exact List.mem_singleton.1 mem
    · cases mem

/-- Lines that are ended in two ways, a last line that nothing ends, a directive that stands there
twice, and a carriage return that is dropped in the first part and kept in the second. -/
theorem composition_returns :
    '\r' ∉ "#include <a>\n#include \"b\"".toList ∧
    tokens (withReturns "#include <a>\n#include \"b\"") = ["a", "b"] ∧
    "#include <c\r>".toList.getLast? ≠ some '\r' ∧
    tokens ("#include <c\r>" ++ "\n") = ["c\r"] ∧
    tokens (ended ["#include <d>\r", "#include <d>\r"]) = ["d"] ∧
    tokens ("#include <e>\r" ++ "\n" ++ "#include <f>\r") = ["e"] := by
  have noReturn : '\r' ∉ "#include <a>\n#include \"b\"".toList := by decide
  have plain : "#include <c\r>".toList.getLast? ≠ some '\r' := by decide
  have same : ∀ s, s ∈ ["#include <d>\r", "#include <d>\r"] ↔ s ∈ ["#include <d>\r"] := by simp
  refine ⟨noReturn, ?_, plain, ?_, ?_, ?_⟩
  · rw [composition.returned "#include <a>\n#include \"b\"" noReturn]
    cbv
  · rw [composition.closed "#include <c\r>" plain]
    cbv
  · rw [composition.below _ _ same]
    cbv
  · rw [composition.joined "#include <e>\r" "#include <f>\r"]
    cbv

end Directive

end IncludeAtlas
