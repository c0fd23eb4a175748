import IncludeAtlas.Directive
import IncludeAtlas.Proofs.Text.Lines
import Mathlib.Data.List.Forall2

/-!
# The grammar of directives

Which tokens a text includes, and which sets of tokens a text can include, both said without
the functions that read a text.

## Main Definitions

* `Directive.Delimiters`, `Directive.between`: a token between delimiters, as a line of its own
* `Directive.Includes`: a line is a directive with a token
* `Directive.Renders`: a text has one line for each of some tokens

## Main Results

* `Directive.token?_eq_some_iff`: the token of a line
* `Directive.mem_tokens_iff`: the tokens of a text are those of the directives among its lines
* `Directive.grammar`: the tokens of a text, and the sets of tokens that can be written down

## Design notes

A token between delimiters may hold anything but its own closing delimiter, so one that holds
both closing delimiters can be written in neither way.  Carriage returns are no obstacle: the
closing delimiter stands between them and the end of the line.
-/

namespace IncludeAtlas.Directive

variable {opening closing : Char} {s token token' line : List Char} {t : String}
  {source : String}

/-- What a token may stand between. -/
inductive Delimiters : Char → Char → Prop
  | quotes : Delimiters '"' '"'
  | brackets : Delimiters '<' '>'

/-- A token between delimiters, as a line of its own. -/
def between (opening closing : Char) (token : List Char) : List Char :=
  head ++ opening :: token ++ [closing]

/-- A line is a directive with a token, which does not hold the delimiter that closes it. -/
def Includes (line token : List Char) : Prop :=
  ∃ opening closing, Delimiters opening closing ∧ line = between opening closing token ∧
    closing ∉ token

/-- A text has one line for each of some tokens, in their order, with the token between quotes
or between angle brackets. -/
def Renders (source : String) (ts : List String) : Prop :=
  ∃ ls, List.Forall₂ (fun t line => ∃ opening closing, Delimiters opening closing ∧
      line = between opening closing t.toList) ts ls ∧
    source.toList = ls.flatMap fun line => line ++ ['\n']

/-! ## Lines -/

/-- What is closed ends with the delimiter, and with the first one of them. -/
theorem closed?_eq_some_iff :
    closed? closing s = some token ↔ s = token ++ [closing] ∧ closing ∉ token := by
  rw [closed?]
  constructor
  · intro h
    split at h
    · rename_i ends
      obtain rfl := Option.some.inj h
      refine ⟨?_, fun mem => ?_⟩
      · conv_lhs => rw [← List.takeWhile_append_dropWhile (p := (· ≠ closing)) (l := s), ends]
      · simpa using List.all_eq_true.1 (List.all_takeWhile (p := (· ≠ closing)) (l := s)) _ mem
    · cases h
  · rintro ⟨rfl, notMem⟩
    have before : ∀ c ∈ token, decide (c ≠ closing) = true := by
      intro c hc
      rw [decide_eq_true_eq]
      rintro rfl
      exact notMem hc
    rw [List.dropWhile_append_of_pos before, List.takeWhile_append_of_pos before]
    simp

/-- **A line is a directive with the token that is read from it**, and with no other. -/
theorem token?_eq_some_iff : token? line = some token ↔ Includes line token := by
  rw [token?]
  constructor
  · intro h
    split at h
    · rename_i starts
      obtain ⟨rest, rfl⟩ := List.isPrefixOf_iff_prefix.1 starts
      rw [List.drop_left] at h
      split at h
      · obtain ⟨rfl, notMem⟩ := closed?_eq_some_iff.1 h
        exact ⟨_, _, .quotes, rfl, notMem⟩
      · obtain ⟨rfl, notMem⟩ := closed?_eq_some_iff.1 h
        exact ⟨_, _, .brackets, rfl, notMem⟩
      · cases h
    · cases h
  · rintro ⟨opening, closing, delimiters, rfl, notMem⟩
    cases delimiters with
    | quotes => exact closed?_eq_some_iff.2 ⟨rfl, notMem⟩
    | brackets => exact closed?_eq_some_iff.2 ⟨rfl, notMem⟩

/-- A line is a directive with one token. -/
theorem Includes.unique (h : Includes line token) (h' : Includes line token') :
    token = token' :=
  Option.some.inj ((token?_eq_some_iff.2 h).symm.trans (token?_eq_some_iff.2 h'))

/-! ## Texts -/

/-- A set of tokens holds the tokens that it was made of. -/
theorem mem_ofList {ts : List String} : t ∈ Ordered.ofList id ts ↔ t ∈ ts := by
  refine ⟨Ordered.mem_of_mem_ofList, fun mem => ?_⟩
  obtain ⟨t', mem', rfl⟩ := Ordered.exists_mem_ofList id mem
  exact mem'

/-- The tokens of a text are those of the directives among the lines it is cut into. -/
theorem mem_tokens :
    t ∈ tokens source ↔
      ∃ line ∈ Lines.lines '\n' '\r' source.toList, Includes line t.toList := by
  rw [tokens, mem_ofList, List.mem_map]
  constructor
  · rintro ⟨token, mem, rfl⟩
    obtain ⟨line, isLine, read⟩ := List.mem_filterMap.1 mem
    rw [String.toList_ofList]
    exact ⟨line, isLine, token?_eq_some_iff.1 read⟩
  · rintro ⟨line, isLine, includes⟩
    exact ⟨t.toList, List.mem_filterMap.2 ⟨line, isLine, token?_eq_some_iff.2 includes⟩,
      String.ofList_toList⟩

/-- **The tokens of a text are those of the directives among its lines.** -/
theorem mem_tokens_iff :
    t ∈ tokens source ↔
      ∃ line, Lines.IsLine '\n' '\r' source.toList line ∧ Includes line t.toList := by
  have ne : '\r' ≠ '\n' := by decide
  rw [mem_tokens]
  refine exists_congr fun line => and_congr_left fun _ => ?_
  exact Lines.mem_lines_iff ne

/-! ## Tokens that can be written -/

/-- A token can stand on a line: it holds no line feed, and not both of the delimiters that
close a token. -/
def Fits (token : List Char) : Prop :=
  '\n' ∉ token ∧ ¬ ('"' ∈ token ∧ '>' ∈ token)

/-- What stands on the line of a token. -/
theorem mem_between_iff {c : Char} :
    c ∈ between opening closing token ↔
      c ∈ head ∨ c = opening ∨ c ∈ token ∨ c = closing := by
  rw [between, List.mem_append, List.mem_append, List.mem_cons, List.mem_singleton, or_assoc,
    or_assoc]

/-- The tokens of a text fit on their lines. -/
theorem fits_of_mem_tokens (h : t ∈ tokens source) : Fits t.toList := by
  obtain ⟨line, isLine, opening, closing, delimiters, rfl, notMem⟩ := mem_tokens_iff.1 h
  refine ⟨fun feed => ?_, fun both => ?_⟩
  · exact isLine.notMem_feed (mem_between_iff.2 (.inr (.inr (.inl feed))))
  · cases delimiters with
    | quotes => exact notMem both.1
    | brackets => exact notMem both.2

/-- A token on a line of its own: between quotes if it holds none, and between angle brackets
otherwise. -/
def written (token : List Char) : List Char :=
  if '"' ∈ token then between '<' '>' token else between '"' '"' token

/-- A token that fits is included by its line. -/
theorem Fits.includes_written (h : Fits token) : Includes (written token) token := by
  rw [written]
  split
  · rename_i quote
    exact ⟨_, _, .brackets, rfl, fun bracket => h.2 ⟨quote, bracket⟩⟩
  · rename_i noQuote
    exact ⟨_, _, .quotes, rfl, noQuote⟩

/-- The line of a token is one line, whatever the token ends with. -/
theorem Includes.isLine (h : Includes line token) (noFeed : '\n' ∉ token) :
    '\n' ∉ line ∧ line.getLast? ≠ some '\r' := by
  obtain ⟨opening, closing, delimiters, rfl, -⟩ := h
  have noFeedBefore : '\n' ∉ head := by
    show '\n' ∉ "#include ".toList
    simp
  rw [mem_between_iff, between, List.getLast?_concat]
  cases delimiters with
  | quotes => simp [noFeedBefore, noFeed]
  | brackets => simp [noFeedBefore, noFeed]

/-- Tokens that fit can be written down, a line for each, and nothing else is read from it. -/
theorem exists_renders {ts : List String} (fits : ∀ t ∈ ts, Fits t.toList) :
    ∃ source, Renders source ts ∧ ∀ t, t ∈ tokens source ↔ t ∈ ts := by
  let ls := ts.map fun t => written t.toList
  refine ⟨String.ofList (ls.flatMap fun line => line ++ ['\n']), ⟨ls, ?_, String.toList_ofList⟩,
    fun t => ?_⟩
  · rw [List.forall₂_map_right_iff, List.forall₂_same]
    intro t ht
    obtain ⟨opening, closing, delimiters, eq, -⟩ := (fits t ht).includes_written
    exact ⟨opening, closing, delimiters, eq⟩
  · have single : ∀ line ∈ ls, '\n' ∉ line ∧ line.getLast? ≠ some '\r' := by
      intro line mem
      obtain ⟨t, ht, rfl⟩ := List.mem_map.1 mem
      exact (fits t ht).includes_written.isLine (fits t ht).1
    rw [mem_tokens, String.toList_ofList, Lines.lines_flatMap single]
    constructor
    · rintro ⟨line, mem, includes⟩
      obtain ⟨t', ht', rfl⟩ := List.mem_map.1 mem
      rwa [String.toList_inj.1 (includes.unique (fits t' ht').includes_written)]
    · intro ht
      exact ⟨_, List.mem_map_of_mem ht, (fits t ht).includes_written⟩

/-- The line of a token as text, between what opens and what closes it. -/
theorem between_toList {opens closes : String} (ho : opens.toList = head ++ [opening])
    (hc : closes.toList = [closing]) :
    between opening closing t.toList = (opens ++ t ++ closes).toList := by
  rw [String.toList_append, String.toList_append, ho, hc, between, List.append_assoc head [opening],
    List.singleton_append]

/-- A directive in letters. -/
theorem includes_iff :
    Includes line t.toList ↔
      line = ("#include \"" ++ t ++ "\"").toList ∧ '"' ∉ t.toList ∨
        line = ("#include <" ++ t ++ ">").toList ∧ '>' ∉ t.toList := by
  have quoted : between '"' '"' t.toList = ("#include \"" ++ t ++ "\"").toList := by
    refine between_toList ?_ (by simp)
    show "#include \"".toList = "#include ".toList ++ ['"']
    simp
  have angled : between '<' '>' t.toList = ("#include <" ++ t ++ ">").toList := by
    refine between_toList ?_ (by simp)
    show "#include <".toList = "#include ".toList ++ ['<']
    simp
  rw [← quoted, ← angled]
  constructor
  · rintro ⟨opening, closing, delimiters, eq, notMem⟩
    cases delimiters with
    | quotes => exact .inl ⟨eq, notMem⟩
    | brackets => exact .inr ⟨eq, notMem⟩
  · rintro (⟨eq, notMem⟩ | ⟨eq, notMem⟩)
    · exact ⟨_, _, .quotes, eq, notMem⟩
    · exact ⟨_, _, .brackets, eq, notMem⟩

/-- **The grammar of directives.**  A text includes exactly the tokens of its lines that are
directives, and exactly those sets of tokens can be written down, a line for each, and read
back unchanged in which no token holds a line feed or both of the delimiters that close one. -/
theorem grammar :
    (∀ source t, t ∈ tokens source ↔
      ∃ line, Lines.IsLine '\n' '\r' source.toList line ∧
        (line = ("#include \"" ++ t ++ "\"").toList ∧ '"' ∉ t.toList ∨
          line = ("#include <" ++ t ++ ">").toList ∧ '>' ∉ t.toList)) ∧
    ∀ ts : List String, (∃ source, Renders source ts ∧ ∀ t, t ∈ tokens source ↔ t ∈ ts) ↔
      ∀ t ∈ ts, '\n' ∉ t.toList ∧ ¬ ('"' ∈ t.toList ∧ '>' ∈ t.toList) := by
  refine ⟨fun source t => ?_, fun ts => ⟨?_, exists_renders⟩⟩
  · rw [mem_tokens_iff]
    exact exists_congr fun line => and_congr_right fun _ => includes_iff
  · rintro ⟨source, -, same⟩ t ht
    exact fits_of_mem_tokens ((same t).2 ht)

-- one carriage return goes with a line feed; in a token or at the end of the text it stays
example : tokens "#include \"a.h\"\r\n#include <b\r>\n#include <c>\r" = ["a.h", "b\r"] := by
  cbv

end IncludeAtlas.Directive
