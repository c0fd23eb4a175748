import IncludeAtlas.Proofs.Json.Token

/-!
# Layouts of a value

A written value is the row of its tokens with blanks between them, and blanks are all in which
its layouts differ.  Such a text is cut into the tokens that were written.

## Main Definitions

* `Spaced`: a text that is a row of tokens with blanks around them
* `Json.lexemes`: the tokens of a value

## Main Results

* `tokens?_of_spaced`: a row of tokens is read back through any blanks
* `spaced_spread`, `spaced_compact`: both layouts are the tokens of the value with blanks

## What is load-bearing

Only a number needs to know what follows it.  In either layout that is a comma, a bracket, a
line feed or the end of the text, and none of these goes on with a number.
-/

namespace IncludeAtlas.Json

/-- A text that is a row of tokens with blanks around them. -/
inductive Spaced : List Token → List Char → Prop
  | nil : Spaced [] []
  | blank {c : Char} {ts : List Token} {s : List Char} :
      isBlank c = true → Spaced ts s → Spaced ts (c :: s)
  | token {t : Token} {ts : List Token} {s : List Char} :
      t.EndsAt s → Spaced ts s → Spaced (t :: ts) (t.render ++ s)

/-! ## Cutting -/

/-- No token starts with a blank. -/
theorem token?_of_isBlank {c : Char} (h : isBlank c = true) (s : List Char) :
    token? (c :: s) = none := by
  have kinds : c = ' ' ∨ c = '\t' ∨ c = '\n' ∨ c = '\r' := by
    simpa [isBlank, or_assoc] using h
  have other : c ∉ marks := by
    rcases kinds with rfl | rfl | rfl | rfl <;> decide
  -- what starts with no mark can only be a number, and a number starts with a digit
  have noDigit : someDigits? (c :: s) = none := by
    rcases kinds with rfl | rfl | rfl | rfl <;> rfl
  have noZero : c ≠ '0' := by
    rintro rfl
    cases h
  rw [token?_cons other, numberRest?, wholeDigits?]
  · rw [noDigit]
    rfl
  · rintro _ ⟨⟩
    exact noZero rfl

theorem tokens?_blank {c : Char} (h : isBlank c = true) (s : List Char) :
    tokens? (c :: s) = tokens? s := by
  rw [tokens?, List.dropWhile_cons_of_pos h, tokens?]

/-- A token at the start of a text is the first of its tokens. -/
theorem tokens?_of_token? {s rest : List Char} {t : Token} (h : token? s = some (t, rest)) :
    tokens? s = (tokens? rest).map (t :: ·) := by
  have noBlank : s.dropWhile isBlank = s := by
    cases s with
    | nil => rfl
    | cons c s =>
        refine List.dropWhile_cons_of_neg fun blank => ?_
        rw [token?_of_isBlank blank] at h
        cases h
  have notEmpty : s ≠ [] := by
    rintro rfl
    cases h
  rw [tokens?, noBlank, tokensFrom?, if_neg notEmpty]
  split
  · rename_i none
    rw [none] at h
    cases h
  · rename_i some
    rw [h] at some
    cases some
    rfl

/-- **A row of tokens is read back** through any blanks. -/
theorem tokens?_of_spaced {ts : List Token} {s : List Char} (h : Spaced ts s)
    (writable : ∀ t ∈ ts, t.Writable) : tokens? s = some (ts.map Token.reread) := by
  induction h with
  | nil => rw [tokens?, List.dropWhile_nil, tokensFrom?, if_pos rfl, List.map_nil]
  | blank space _ ih => rw [tokens?_blank space, ih writable]
  | @token t ts s ends _ ih =>
      rw [tokens?_of_token? (token?_render (writable t List.mem_cons_self) ends),
        ih fun t' mem => writable t' (List.mem_cons_of_mem t mem), Option.map_some, List.map_cons]

/-! ## Layouts -/

mutual

/-- The tokens of a value. -/
def lexemes : Json → List Token
  | .null => [.null]
  | .bool b => [.bool b]
  | .number n => [.number n]
  | .string units => [.string units]
  | .array elements => .openArray :: elementLexemes elements ++ [.closeArray]
  | .object members => .openObject :: memberLexemes members ++ [.closeObject]

/-- The tokens of the elements of an array. -/
def elementLexemes : List Json → List Token
  | [] => []
  | [v] => lexemes v
  | v :: w :: rest => lexemes v ++ .comma :: elementLexemes (w :: rest)

/-- The tokens of the members of an object. -/
def memberLexemes : List (List Unit × Json) → List Token
  | [] => []
  | [(k, v)] => .string k :: .colon :: lexemes v
  | (k, v) :: m :: rest => .string k :: .colon :: lexemes v ++ .comma :: memberLexemes (m :: rest)

end

variable {ts : List Token} {s : List Char}

/-- A token of one character, which ends by itself, may stand in front of anything. -/
theorem Spaced.mark {t : Token} {c : Char} (render : t.render = [c]) (ends : t.EndsAt s)
    (h : Spaced ts s) : Spaced (t :: ts) (c :: s) := by
  have text : c :: s = t.render ++ s := by
    rw [render, List.singleton_append]
  rw [text]
  exact .token ends h

theorem Spaced.newline (depth : Nat) (h : Spaced ts s) : Spaced ts (newline depth ++ s) := by
  have blanks : ∀ n, Spaced ts (List.replicate n ' ' ++ s) := by
    intro n
    induction n with
    | zero => exact h
    | succ n ih => exact .blank rfl ih
  exact .blank rfl (blanks _)

mutual

/-- **The layout over lines** is the tokens of the value with blanks. -/
theorem spaced_spread (depth : Nat) (v : Json) {ts : List Token} {s : List Char}
    (h : Spaced ts s) (stop : Delimits s) : Spaced (v.lexemes ++ ts) (v.spread depth ++ s) := by
  match v with
  | .null | .bool _ | .string _ => exact Spaced.token trivial h
  | .number _ => exact Spaced.token stop h
  | .array [] | .object [] => exact .mark rfl trivial (.mark rfl trivial h)
  | .array (v :: rest) =>
      have close : Spaced (.closeArray :: ts) (']' :: s) := .mark rfl trivial h
      have inner := spaced_spreadElements (depth + 1) (v :: rest) (close.newline depth)
        (delimits_cons.2 rfl)
      simp only [lexemes, spread, List.cons_append, List.nil_append, List.append_assoc]
      exact .mark rfl trivial (inner.newline (depth + 1))
  | .object (m :: rest) =>
      have close : Spaced (.closeObject :: ts) ('\x7d' :: s) := .mark rfl trivial h
      have inner := spaced_spreadMembers (depth + 1) (m :: rest) (close.newline depth)
        (delimits_cons.2 rfl)
      simp only [lexemes, spread, List.cons_append, List.nil_append, List.append_assoc]
      exact .mark rfl trivial (inner.newline (depth + 1))

theorem spaced_spreadElements (depth : Nat) (elements : List Json) {ts : List Token}
    {s : List Char} (h : Spaced ts s) (stop : Delimits s) :
    Spaced (elementLexemes elements ++ ts) (spreadElements depth elements ++ s) := by
  match elements with
  | [] => exact h
  | [v] => exact spaced_spread depth v h stop
  | v :: w :: rest =>
      have more := (spaced_spreadElements depth (w :: rest) h stop).newline depth
      simp only [elementLexemes, spreadElements, List.cons_append, List.append_assoc]
      exact spaced_spread depth v (.mark rfl trivial more) (delimits_cons.2 rfl)

theorem spaced_spreadMembers (depth : Nat) (members : List (List Unit × Json)) {ts : List Token}
    {s : List Char} (h : Spaced ts s) (stop : Delimits s) :
    Spaced (memberLexemes members ++ ts) (spreadMembers depth members ++ s) := by
  match members with
  | [] => exact h
  | [(k, v)] =>
      have value := spaced_spread depth v h stop
      simp only [memberLexemes, spreadMembers, List.cons_append, List.append_assoc]
      exact .token trivial (.mark rfl trivial (.blank rfl value))
  | (k, v) :: m :: rest =>
      have more := (spaced_spreadMembers depth (m :: rest) h stop).newline depth
      have value := spaced_spread depth v (.mark (t := .comma) rfl trivial more) (delimits_cons.2 rfl)
      simp only [memberLexemes, spreadMembers, List.cons_append, List.append_assoc]
      exact .token trivial (.mark rfl trivial (.blank rfl value))

end

mutual

/-- **The layout without blanks** is the tokens of the value. -/
theorem spaced_compact (v : Json) {ts : List Token} {s : List Char} (h : Spaced ts s)
    (stop : Delimits s) : Spaced (v.lexemes ++ ts) (v.compact ++ s) := by
  match v with
  | .null | .bool _ | .string _ => exact Spaced.token trivial h
  | .number _ => exact Spaced.token stop h
  | .array elements =>
      have inner := spaced_compactElements elements (.mark (t := .closeArray) rfl trivial h)
        (delimits_cons.2 rfl)
      simp only [lexemes, compact, List.cons_append, List.nil_append, List.append_assoc]
      exact .mark rfl trivial inner
  | .object members =>
      have inner := spaced_compactMembers members (.mark (t := .closeObject) rfl trivial h)
        (delimits_cons.2 rfl)
      simp only [lexemes, compact, List.cons_append, List.nil_append, List.append_assoc]
      exact .mark rfl trivial inner

theorem spaced_compactElements (elements : List Json) {ts : List Token} {s : List Char}
    (h : Spaced ts s) (stop : Delimits s) :
    Spaced (elementLexemes elements ++ ts) (compactElements elements ++ s) := by
  match elements with
  | [] => exact h
  | [v] => exact spaced_compact v h stop
  | v :: w :: rest =>
      have more := spaced_compactElements (w :: rest) h stop
      simp only [elementLexemes, compactElements, List.cons_append, List.append_assoc]
      exact spaced_compact v (.mark rfl trivial more) (delimits_cons.2 rfl)

theorem spaced_compactMembers (members : List (List Unit × Json)) {ts : List Token}
    {s : List Char} (h : Spaced ts s) (stop : Delimits s) :
    Spaced (memberLexemes members ++ ts) (compactMembers members ++ s) := by
  match members with
  | [] => exact h
  | [(k, v)] =>
      have value := spaced_compact v h stop
      simp only [memberLexemes, compactMembers, List.cons_append, List.append_assoc]
      exact .token trivial (.mark rfl trivial value)
  | (k, v) :: m :: rest =>
      have more := spaced_compactMembers (m :: rest) h stop
      have value := spaced_compact v (.mark (t := .comma) rfl trivial more) (delimits_cons.2 rfl)
      simp only [memberLexemes, compactMembers, List.cons_append, List.append_assoc]
      exact .token trivial (.mark rfl trivial value)

end

end IncludeAtlas.Json
