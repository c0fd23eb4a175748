import IncludeAtlas.Proofs.Glob.Match
import IncludeAtlas.Proofs.Scan.Enumeration

/-!
# What the default patterns match

The patterns that a scan uses where nothing else is asked for match the names of C and C++
sources and headers: those with one of four endings.

## Main Definitions

* `defaultTokens`: the default patterns, read
* `sourceEndings`: how names of sources and headers end
* `Glob.Exclusive`: two patterns match no name both

## Main Results

* `exists_accepts_defaultTokens_iff`: the default patterns match the names with these endings,
  whatever bytes stand before them
* `exclusive_defaultTokens`: no name is matched twice
-/

namespace IncludeAtlas

/-- A pattern of the default ones: anything, a dot, one of two letters, and the letters at the
end. -/
def endingPattern (word : List Char) : List Glob.Token :=
  .star :: .literal '.' :: .oneOf false [('c', 'c'), ('h', 'h')] :: word.map .literal

/-- What the default patterns say. -/
def defaultTokens : List (List Glob.Token) :=
  [endingPattern ['p', 'p'], endingPattern []]

theorem denotes_defaultPatterns : List.Forall₂ Glob.Denotes defaultPatterns defaultTokens := by
  refine .cons ?_ (.cons ?_ .nil) <;>
    unfold Glob.Denotes <;> cbv

/-- How the names of sources and headers end. -/
def sourceEndings : List Bytes :=
  [".c", ".h", ".cpp", ".hpp"].map Utf8.encode

namespace Glob

/-- No name matches both of two patterns. -/
def Exclusive (pattern pattern' : List Token) : Prop :=
  ∀ n, ¬ (accepts false pattern n = true ∧ accepts false pattern' n = true)

variable {n : Bytes} {word : List Char}

/-- The class of the default patterns holds two letters. -/
theorem classHolds_default_iff {b : UInt8} :
    classHolds false [('c', 'c'), ('h', 'h')] b = true ↔ b = 0x63 ∨ b = 0x68 := by
  have ranges : [('c', 'c'), ('h', 'h')].flatMap byteRanges = [(0x63, 0x63), (0x68, 0x68)] := by
    decide
  have one : ∀ c : UInt8, c ≤ b ∧ b ≤ c ↔ b = c := by
    intro c
    constructor
    · rintro ⟨low, high⟩
      exact UInt8.le_antisymm high low
    · rintro rfl
      exact ⟨UInt8.le_refl b, UInt8.le_refl b⟩
  simp [classHolds, ranges, one]

/-- Characters stand for their bytes. -/
theorem spells_map_literal {s : Bytes} :
    Spells (word.map .literal) s ↔ s = word.flatMap Utf8.encodeChar := by
  induction word generalizing s with
  | nil => exact spells_nil
  | cons c word ih =>
      simp only [List.map_cons, spells_literal, ih, List.flatMap_cons, exists_eq_right]

/-- A pattern of the default ones matches the names with its endings. -/
theorem accepts_endingPattern_iff :
    accepts false (endingPattern word) n = true ↔
      0x2E :: 0x63 :: word.flatMap Utf8.encodeChar <:+ n ∨
        0x2E :: 0x68 :: word.flatMap Utf8.encodeChar <:+ n := by
  have dot : Utf8.encodeChar '.' = [0x2E] := by decide
  rw [endingPattern, accepts_iff (by simp), spells_star]
  simp only [spells_literal, spells_oneOf, spells_map_literal, dot, classHolds_default_iff]
  constructor
  · rintro ⟨u, ends, -, rfl, b, -, rfl, rfl | rfl, rfl⟩
    · exact .inl ends
    · exact .inr ends
  · rintro (ends | ends)
    · exact ⟨_, ends, _, rfl, 0x63, _, rfl, .inl rfl, rfl⟩
    · exact ⟨_, ends, _, rfl, 0x68, _, rfl, .inr rfl, rfl⟩

/-- **The default patterns match the names of sources and headers**, whatever bytes stand before
the ending. -/
theorem exists_accepts_defaultTokens_iff :
    (∃ pattern ∈ defaultTokens, accepts false pattern n = true) ↔
      ∃ ending ∈ sourceEndings, ending <:+ n := by
  have endings : sourceEndings =
      [[0x2E, 0x63], [0x2E, 0x68], [0x2E, 0x63, 0x70, 0x70], [0x2E, 0x68, 0x70, 0x70]] := by
    decide
  have long : ['p', 'p'].flatMap Utf8.encodeChar = [0x70, 0x70] := by decide
  simp only [defaultTokens, endings, List.mem_cons, List.not_mem_nil, or_false,
    exists_eq_or_imp, exists_eq_left, accepts_endingPattern_iff, long, List.flatMap_nil]
  tauto

/-- **No name is matched by both default patterns**: what they match differs in the last
byte. -/
theorem exclusive_defaultTokens : defaultTokens.Pairwise Exclusive := by
  have long : ['p', 'p'].flatMap Utf8.encodeChar = [0x70, 0x70] := by decide
  have last : ∀ {ending n : Bytes}, ending <:+ n → ending ≠ [] → n.getLast? = ending.getLast? := by
    rintro ending n ⟨before, rfl⟩ ne
    exact List.getLast?_append_of_ne_nil before ne
  have exclusive : Exclusive (endingPattern ['p', 'p']) (endingPattern []) := by
    rintro n ⟨accepted, accepted'⟩
    rw [accepts_endingPattern_iff, long] at accepted
    rw [accepts_endingPattern_iff] at accepted'
    have ends : n.getLast? = some 0x70 := by
      rcases accepted with ends | ends <;> exact last ends (List.cons_ne_nil _ _)
    have ends' : n.getLast? = some 0x63 ∨ n.getLast? = some 0x68 :=
      accepted'.imp (fun ends => last ends (List.cons_ne_nil _ _))
        (fun ends => last ends (List.cons_ne_nil _ _))
    rw [ends] at ends'
    exact absurd ends' (by decide)
  simpa [defaultTokens] using exclusive

end Glob

end IncludeAtlas
