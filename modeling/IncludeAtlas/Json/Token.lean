import IncludeAtlas.Json.Number
import IncludeAtlas.Text.Digit

/-!
# Tokens of a JSON text

A JSON text cut into brackets, marks, literals, numbers and strings, with the blanks
between them dropped.

## Main Definitions

* `Token`: an element of the text
* `tokens?`: all tokens of a text, if it can be cut into tokens

## Design notes

Blanks are the space, the tab, the line feed and the carriage return.  Numbers are cut as
long as possible; a row of digits with a leading zero becomes two tokens, which stand side
by side in no JSON text.  Inside a string the control characters of ASCII have to be
escaped, and an escaped code unit is kept as its number.
-/

namespace IncludeAtlas.Json

/-- An element of a JSON text. -/
inductive Token where
  | openObject
  | closeObject
  | openArray
  | closeArray
  | colon
  | comma
  | null
  | bool (b : Bool)
  | number (n : Number)
  | string (units : List Unit)
  deriving Repr

/-- Whether a character is a blank between tokens. -/
def isBlank (c : Char) : Bool :=
  c == ' ' || c == '\t' || c == '\n' || c == '\r'

/-- The code unit that four digits in base sixteen name. -/
def codeUnit? (a b c d : Char) : Option Unit := do
  let a ← Digit.hex? a
  let b ← Digit.hex? b
  let c ← Digit.hex? c
  let d ← Digit.hex? d
  return .code (((a * 16 + b) * 16 + c) * 16 + d)

/-- The character that a letter after a backslash names. -/
def escaped? (c : Char) : Option Char :=
  if c = '"' ∨ c = '\\' ∨ c = '/' then some c
  else if c = 'b' then some (Char.ofNat 0x8)
  else if c = 'f' then some (Char.ofNat 0xC)
  else if c = 'n' then some '\n'
  else if c = 'r' then some '\r'
  else if c = 't' then some '\t'
  else none

/-- The elements of a string up to its closing quote, and what follows the quote. -/
def stringRest? : List Char → Option (List Unit × List Char)
  | [] => none
  | '"' :: rest => some ([], rest)
  | '\\' :: 'u' :: a :: b :: c :: d :: rest => do
    let unit ← codeUnit? a b c d
    let (units, rest) ← stringRest? rest
    return (unit :: units, rest)
  | '\\' :: e :: rest => do
    let c ← escaped? e
    let (units, rest) ← stringRest? rest
    return (.char c :: units, rest)
  | c :: rest =>
    if c = '\\' ∨ c.toNat < 0x20 then none
    else do
      let (units, rest) ← stringRest? rest
      return (.char c :: units, rest)

/-- The digits at the start of a text, at least one of them, and what follows. -/
def someDigits? (s : List Char) : Option (List Char × List Char) :=
  let ds := s.takeWhile Digit.isDecimal
  if ds = [] then none else some (ds, s.dropWhile Digit.isDecimal)

/-- The digits before the point: a zero alone, or a row of digits. -/
def wholeDigits? : List Char → Option (List Char × List Char)
  | '0' :: rest => some (['0'], rest)
  | s => someDigits? s

/-- A fraction, if there is one. -/
def fraction? : List Char → Option (Option (List Char) × List Char)
  | '.' :: rest => (someDigits? rest).map fun (ds, rest) => (some ds, rest)
  | s => some (none, s)

/-- The sign of an exponent and its digits. -/
def exponentDigits? : List Char → Option ((Bool × List Char) × List Char)
  | '-' :: rest => (someDigits? rest).map fun (ds, rest) => ((true, ds), rest)
  | '+' :: rest => (someDigits? rest).map fun (ds, rest) => ((false, ds), rest)
  | s => (someDigits? s).map fun (ds, rest) => ((false, ds), rest)

/-- An exponent, if there is one. -/
def exponent? : List Char → Option (Option (Bool × List Char) × List Char)
  | 'e' :: rest => (exponentDigits? rest).map fun (x, rest) => (some x, rest)
  | 'E' :: rest => (exponentDigits? rest).map fun (x, rest) => (some x, rest)
  | s => some (none, s)

/-- The parts of a number after its sign. -/
def numberRest? (negative : Bool) (s : List Char) : Option (Number × List Char) := do
  let (whole, s) ← wholeDigits? s
  let (fraction, s) ← fraction? s
  let (exponent, s) ← exponent? s
  return (⟨negative, whole, fraction, exponent⟩, s)

/-- The token at the start of a text, and what follows it. -/
def token? : List Char → Option (Token × List Char)
  | ',' :: rest => some (.comma, rest)
  | ':' :: rest => some (.colon, rest)
  | '[' :: rest => some (.openArray, rest)
  | ']' :: rest => some (.closeArray, rest)
  | '\x7b' :: rest => some (.openObject, rest)
  | '\x7d' :: rest => some (.closeObject, rest)
  | '"' :: rest => (stringRest? rest).map fun (units, rest) => (.string units, rest)
  | 'n' :: 'u' :: 'l' :: 'l' :: rest => some (.null, rest)
  | 't' :: 'r' :: 'u' :: 'e' :: rest => some (.bool true, rest)
  | 'f' :: 'a' :: 'l' :: 's' :: 'e' :: rest => some (.bool false, rest)
  | '-' :: rest => (numberRest? true rest).map fun (n, rest) => (.number n, rest)
  | s => (numberRest? false s).map fun (n, rest) => (.number n, rest)

/-! ### A token takes at least one character -/

theorem stringRest?_length {s rest : List Char} {units : List Unit}
    (h : stringRest? s = some (units, rest)) : rest.length < s.length := by
  fun_induction stringRest? s generalizing units rest with
  | case1 => simp at h
  | case2 r => simp only [Option.some.injEq, Prod.mk.injEq] at h; simp [h.2]
  | case3 a b c d r ih =>
    simp only [Option.bind_eq_bind, Option.bind_eq_some_iff, Option.pure_def, Option.some.injEq,
      Prod.mk.injEq] at h
    obtain ⟨_, _, ⟨_, _⟩, h', _, rfl⟩ := h
    have := ih h'
    simp only [List.length_cons]
    omega
  | case4 e r _ ih =>
    simp only [Option.bind_eq_bind, Option.bind_eq_some_iff, Option.pure_def, Option.some.injEq,
      Prod.mk.injEq] at h
    obtain ⟨_, _, ⟨_, _⟩, h', _, rfl⟩ := h
    have := ih h'
    simp only [List.length_cons]
    omega
  | case5 => simp at h
  | case6 c r _ _ _ _ ih =>
    simp only [Option.bind_eq_bind, Option.bind_eq_some_iff, Option.pure_def, Option.some.injEq,
      Prod.mk.injEq] at h
    obtain ⟨⟨_, _⟩, h', _, rfl⟩ := h
    have := ih h'
    simp only [List.length_cons]
    omega

theorem length_dropWhile_le (p : Char → Bool) (s : List Char) :
    (s.dropWhile p).length ≤ s.length :=
  (List.dropWhile_sublist p).length_le

theorem someDigits?_length {s ds rest : List Char} (h : someDigits? s = some (ds, rest)) :
    rest.length < s.length := by
  simp only [someDigits?] at h
  split at h
  · simp at h
  · rename_i hne
    simp only [Option.some.injEq, Prod.mk.injEq] at h
    obtain ⟨_, rfl⟩ := h
    have e : s.takeWhile Digit.isDecimal ++ s.dropWhile Digit.isDecimal = s := List.takeWhile_append_dropWhile
    have := congrArg List.length e
    have := List.length_pos_iff.2 hne
    simp only [List.length_append] at *
    omega

theorem wholeDigits?_length {s ds rest : List Char} (h : wholeDigits? s = some (ds, rest)) :
    rest.length < s.length := by
  unfold wholeDigits? at h
  split at h
  · simp only [Option.some.injEq, Prod.mk.injEq] at h
    simp [h.2]
  · exact someDigits?_length h

theorem fraction?_length {s rest : List Char} {ds : Option (List Char)}
    (h : fraction? s = some (ds, rest)) : rest.length ≤ s.length := by
  unfold fraction? at h
  split at h
  · obtain ⟨⟨_, _⟩, h', e⟩ := Option.map_eq_some_iff.1 h
    have := someDigits?_length h'
    simp only [Prod.mk.injEq] at e
    simp only [List.length_cons, ← e.2]
    omega
  · simp only [Option.some.injEq, Prod.mk.injEq] at h
    simp [h.2]

theorem exponentDigits?_length {s rest : List Char} {x : Bool × List Char}
    (h : exponentDigits? s = some (x, rest)) : rest.length ≤ s.length := by
  unfold exponentDigits? at h
  split at h <;>
  · obtain ⟨⟨_, _⟩, h', e⟩ := Option.map_eq_some_iff.1 h
    have := someDigits?_length h'
    simp only [Prod.mk.injEq] at e
    simp only [List.length_cons, ← e.2]
    omega

theorem exponent?_length {s rest : List Char} {x : Option (Bool × List Char)}
    (h : exponent? s = some (x, rest)) : rest.length ≤ s.length := by
  unfold exponent? at h
  split at h
  · obtain ⟨⟨_, _⟩, h', e⟩ := Option.map_eq_some_iff.1 h
    have := exponentDigits?_length h'
    simp only [Prod.mk.injEq] at e
    simp only [List.length_cons, ← e.2]
    omega
  · obtain ⟨⟨_, _⟩, h', e⟩ := Option.map_eq_some_iff.1 h
    have := exponentDigits?_length h'
    simp only [Prod.mk.injEq] at e
    simp only [List.length_cons, ← e.2]
    omega
  · simp only [Option.some.injEq, Prod.mk.injEq] at h
    simp [h.2]

theorem numberRest?_length {negative : Bool} {s rest : List Char} {n : Number}
    (h : numberRest? negative s = some (n, rest)) : rest.length < s.length := by
  simp only [numberRest?, Option.bind_eq_bind, Option.bind_eq_some_iff, Option.pure_def,
    Option.some.injEq, Prod.mk.injEq] at h
  obtain ⟨⟨_, _⟩, h₁, ⟨_, _⟩, h₂, ⟨_, _⟩, h₃, _, rfl⟩ := h
  have := wholeDigits?_length h₁
  have := fraction?_length h₂
  have := exponent?_length h₃
  simp only at *
  omega

theorem token?_length {s rest : List Char} {t : Token} (h : token? s = some (t, rest)) :
    rest.length < s.length := by
  unfold token? at h
  split at h
  case h_7 r =>
    obtain ⟨⟨_, _⟩, h', e⟩ := Option.map_eq_some_iff.1 h
    have := stringRest?_length h'
    simp only [Prod.mk.injEq] at e
    simp only [List.length_cons, ← e.2]
    omega
  case h_11 r =>
    obtain ⟨⟨_, _⟩, h', e⟩ := Option.map_eq_some_iff.1 h
    have := numberRest?_length h'
    simp only [Prod.mk.injEq] at e
    simp only [List.length_cons, ← e.2]
    omega
  case h_12 =>
    obtain ⟨⟨_, _⟩, h', e⟩ := Option.map_eq_some_iff.1 h
    have := numberRest?_length h'
    simp only [Prod.mk.injEq] at e
    simp only [← e.2]
    omega
  all_goals
    simp only [Option.some.injEq, Prod.mk.injEq] at h
    simp only [List.length_cons, ← h.2]
    omega

/-- The tokens of a text that starts with no blank. -/
def tokensFrom? (s : List Char) : Option (List Token) :=
  if s = [] then some []
  else
    match _h : token? s with
    | none => none
    | some (t, rest) => (tokensFrom? (rest.dropWhile isBlank)).map (t :: ·)
termination_by s.length
decreasing_by
  have := token?_length _h
  have := length_dropWhile_le isBlank rest
  omega

/-- The tokens of a text. -/
def tokens? (s : List Char) : Option (List Token) :=
  tokensFrom? (s.dropWhile isBlank)

end IncludeAtlas.Json
