import IncludeAtlas.Json.Printer
import IncludeAtlas.Json.Token
import Mathlib.Tactic.SplitIfs

/-!
# Tokens read back

A token that is written and cut off a text again, whatever stands behind it.  It comes back as
it was, except that a control character without a letter of its own is written by its number
and stays a number.

## Main Definitions

* `Number.WellFormed`: a number that is spelled as the grammar of JSON has it
* `Token.render`, `Token.Writable`: a token as text, and which tokens can be read again
* `Unit.reread`, `Token.reread`: what is read where something was written
* `Delimits`: a text that does not go on with a number in front of it

## Main Results

* `stringRest?_flatMap_renderUnit`: the elements of a string are read back one by one
* `numberRest?_append`: the parts of a number are read back up to where the text goes on
* `token?_render`: a token is read back
* `text?_map_reread`: the text of a string is what it was
-/

namespace IncludeAtlas.Json

/-! ## Strings -/

/-- The element that is read where an element was written. -/
def Unit.reread : Unit → Unit
  | .char c =>
    if c.toNat < 0x20 ∧ c.toNat ∉ [0x8, 0x9, 0xA, 0xC, 0xD] then .code c.toNat else .char c
  | .code n => .code n

/-- An element that can be written: a code unit has 16 bits. -/
def Unit.Writable : Unit → Prop
  | .char _ => True
  | .code n => n < 0x10000

theorem hex?_digitChar : ∀ d < 16, Digit.hex? d.digitChar = some d := by
  decide

/-- The last of some digits that are filled up with zeros. -/
theorem replicate_append_toDigits {k : Nat} (pos : 0 < k) (n : Nat) :
    List.replicate (k + 1 - (Nat.toDigits 16 n).length) '0' ++ Nat.toDigits 16 n =
      List.replicate (k - (Nat.toDigits 16 (n / 16)).length) '0' ++ Nat.toDigits 16 (n / 16) ++
        [(n % 16).digitChar] := by
  by_cases small : n < 16
  · have zeros : List.replicate (k - 1) '0' ++ ['0'] = List.replicate k '0' := by
      rw [← List.replicate_succ', Nat.sub_add_cancel pos]
    rw [Nat.toDigits_of_lt_base small, Nat.div_eq_of_lt small, Nat.mod_eq_of_lt small,
      Nat.toDigits_of_lt_base (by decide), List.length_singleton, List.length_singleton,
      Nat.add_sub_cancel, show Nat.digitChar 0 = '0' from rfl, zeros]
  · rw [Nat.toDigits_of_base_le (by decide) (Nat.not_lt.1 small), List.length_append,
      List.length_singleton, Nat.add_sub_add_right, List.append_assoc]

/-- A number of 16 bits has four digits in base sixteen. -/
theorem hex4_eq {n : Nat} (h : n < 0x10000) : hex4 n =
    [(n / 16 / 16 / 16).digitChar, (n / 16 / 16 % 16).digitChar, (n / 16 % 16).digitChar,
      (n % 16).digitChar] := by
  have lead : n / 16 / 16 / 16 < 16 := by omega
  rw [hex4, replicate_append_toDigits (by decide), replicate_append_toDigits (by decide),
    replicate_append_toDigits (by decide), Nat.toDigits_of_lt_base lead]
  rfl

theorem stringRest?_hex4 {n : Nat} (h : n < 0x10000) (s : List Char) :
    stringRest? ('\\' :: 'u' :: (hex4 n ++ s)) =
      (stringRest? s).map fun (units, rest) => (.code n :: units, rest) := by
  have unit : codeUnit? (n / 16 / 16 / 16).digitChar (n / 16 / 16 % 16).digitChar
      (n / 16 % 16).digitChar (n % 16).digitChar = some (.code n) := by
    have value : ((n / 16 / 16 / 16 * 16 + n / 16 / 16 % 16) * 16 + n / 16 % 16) * 16 + n % 16 =
        n := by
      omega
    rw [codeUnit?, hex?_digitChar _ (by omega), hex?_digitChar _ (by omega),
      hex?_digitChar _ (by omega), hex?_digitChar _ (by omega)]
    simp only [Option.bind_eq_bind, Option.bind_some, value, Option.pure_def]
  rw [hex4_eq h]
  simp only [List.cons_append, List.nil_append, stringRest?, unit]
  cases stringRest? s <;> rfl

/-- A character after a backslash is read back if it is a letter that names one. -/
theorem stringRest?_escaped {e c : Char} (named : escaped? e = some c) (s : List Char) :
    stringRest? ('\\' :: e :: s) =
      (stringRest? s).map fun (units, rest) => (.char c :: units, rest) := by
  have other : e ≠ 'u' := by
    -- it would start the number of a code unit
    rintro rfl
    cases named
  rw [stringRest?]
  · rw [named]
    cases stringRest? s <;> rfl
  · exact fun _ _ _ _ _ eq => absurd eq other

/-- A character that needs no backslash is read back. -/
theorem stringRest?_plain {c : Char} (quote : c ≠ '"') (backslash : c ≠ '\\')
    (control : ¬ c.toNat < 0x20) (s : List Char) :
    stringRest? (c :: s) =
      (stringRest? s).map fun (units, rest) => (.char c :: units, rest) := by
  rw [stringRest?]
  · rw [if_neg (not_or.2 ⟨backslash, control⟩)]
    cases stringRest? s <;> rfl
  · exact quote
  · exact fun _ _ _ _ _ eq => absurd eq backslash
  · exact fun _ _ eq => absurd eq backslash

/-- How a character is written: behind a backslash as a letter that names it or by its number,
or as it is. -/
theorem escape_cases (c : Char) :
    (∃ e, escape c = ['\\', e] ∧ escaped? e = some c ∧ Unit.reread (.char c) = .char c) ∨
    (escape c = '\\' :: 'u' :: hex4 c.toNat ∧ c.toNat < 0x20 ∧
      Unit.reread (.char c) = .code c.toNat) ∨
    (escape c = [c] ∧ (c ≠ '"' ∧ c ≠ '\\' ∧ ¬ c.toNat < 0x20) ∧
      Unit.reread (.char c) = .char c) := by
  have named : ∀ {n : Nat}, c.toNat = n → c = Char.ofNat n := by
    rintro _ rfl
    exact (Char.ofNat_toNat c).symm
  rw [escape]
  split_ifs with quote backslash feed back tab bell form control
  · exact .inl ⟨'"', rfl, by rw [quote]; decide, by rw [quote]; decide⟩
  · exact .inl ⟨'\\', rfl, by rw [backslash]; decide, by rw [backslash]; decide⟩
  · exact .inl ⟨'n', rfl, by rw [feed]; decide, by rw [feed]; decide⟩
  · exact .inl ⟨'r', rfl, by rw [back]; decide, by rw [back]; decide⟩
  · exact .inl ⟨'t', rfl, by rw [tab]; decide, by rw [tab]; decide⟩
  · exact .inl ⟨'b', rfl, by rw [named bell]; decide, by rw [named bell]; decide⟩
  · exact .inl ⟨'f', rfl, by rw [named form]; decide, by rw [named form]; decide⟩
  · refine .inr (.inl ⟨rfl, control, if_pos ⟨control, ?_⟩⟩)
    simp only [List.mem_cons, List.not_mem_nil, or_false, not_or]
    exact ⟨bell, fun eq => tab (named eq), fun eq => feed (named eq), form,
      fun eq => back (named eq)⟩
  · exact .inr (.inr ⟨rfl, ⟨quote, backslash, control⟩, if_neg fun h => control h.1⟩)

/-- An element of a string is read back. -/
theorem stringRest?_renderUnit {u : Unit} (h : u.Writable) (s : List Char) :
    stringRest? (renderUnit u ++ s) =
      (stringRest? s).map fun (units, rest) => (u.reread :: units, rest) := by
  cases u with
  | code n => exact stringRest?_hex4 h s
  | char c =>
      rw [renderUnit]
      rcases escape_cases c with ⟨e, eq, named, same⟩ | ⟨eq, control, code⟩ | ⟨eq, plain, same⟩
      · rw [eq, same]
        exact stringRest?_escaped named s
      · rw [eq, code]
        exact stringRest?_hex4 (by omega) s
      · rw [eq, same]
        exact stringRest?_plain plain.1 plain.2.1 plain.2.2 s

/-- **The elements of a string are read back one by one**, up to its closing quote. -/
theorem stringRest?_flatMap_renderUnit {units : List Unit} (h : ∀ u ∈ units, u.Writable)
    (s : List Char) :
    stringRest? (units.flatMap renderUnit ++ '"' :: s) = some (units.map Unit.reread, s) := by
  induction units with
  | nil => rfl
  | cons u units ih =>
      rw [List.flatMap_cons, List.append_assoc, stringRest?_renderUnit (h u List.mem_cons_self),
        ih fun v hv => h v (List.mem_cons_of_mem u hv)]
      rfl

/-- A code unit outside the surrogates is a character, whatever follows it. -/
theorem text?_cons_single {n : Nat} (single : n < 0xD800 ∨ 0xE000 ≤ n) (units : List Unit) :
    text? (.code n :: units) = (text? units).map (Char.ofNat n :: ·) := by
  rw [text?.eq_def]
  exact if_pos single

/-- A low surrogate is in no pair if nothing stands before it. -/
theorem text?_cons_low {n : Nat} (single : ¬ (n < 0xD800 ∨ 0xE000 ≤ n)) (low : ¬ n < 0xDC00)
    (units : List Unit) : text? (.code n :: units) = none := by
  rw [text?.eq_def]
  exact (if_neg single).trans (if_neg low)

/-- A high surrogate is in no pair if no low one follows it. -/
theorem text?_cons_alone {n : Nat} (single : ¬ (n < 0xD800 ∨ 0xE000 ≤ n)) {units : List Unit}
    (alone : ∀ m rest, units = .code m :: rest → ¬ (0xDC00 ≤ m ∧ m < 0xE000)) :
    text? (.code n :: units) = none := by
  rw [text?.eq_def]
  refine (if_neg single).trans ?_
  split_ifs
  · split
    · exact if_neg (alone _ _ rfl)
    · rfl
  · rfl

/-- A surrogate that is no pair with what follows it is none either when that is reread. -/
theorem alone_reread {units : List Unit}
    (alone : ∀ m rest, units = .code m :: rest → ¬ (0xDC00 ≤ m ∧ m < 0xE000)) :
    ∀ m rest, units.map Unit.reread = .code m :: rest → ¬ (0xDC00 ≤ m ∧ m < 0xE000) := by
  intro m rest eq
  match units with
  | .code k :: units =>
      cases eq
      exact alone m units rfl
  | .char c :: units =>
      rw [List.map_cons, Unit.reread] at eq
      split_ifs at eq with control
      · -- a control character is far below the surrogates
        cases eq
        omega
      · cases eq

/-- **The text of a string is what it was.** -/
theorem text?_map_reread (units : List Unit) :
    text? (units.map Unit.reread) = text? units := by
  fun_induction text? units with
  | case1 => rfl
  | case2 c rest ih =>
      rw [List.map_cons, Unit.reread]
      split_ifs with control
      · rw [text?_cons_single (.inl (by omega)), Char.ofNat_toNat, ih]
      · rw [text?, ih]
  | case3 n rest single ih =>
      rw [List.map_cons, Unit.reread, text?_cons_single single, ih]
  | case4 n single high m rest low ih =>
      rw [List.map_cons, List.map_cons, Unit.reread, Unit.reread, text?, if_neg single,
        if_pos high, if_pos low, ih]
  | case5 n single high m rest low =>
      refine text?_cons_alone single (alone_reread ?_)
      rintro _ _ ⟨⟩
      exact low
  | case6 n rest single high alone =>
      exact text?_cons_alone single (alone_reread fun m rest eq => absurd eq (alone m rest))
  | case7 n rest single low =>
      exact text?_cons_low single low _

/-! ## Numbers -/

/-- A row of digits, at least one. -/
def IsDigits (ds : List Char) : Prop :=
  ds ≠ [] ∧ ∀ c ∈ ds, Digit.isDecimal c = true

/-- A number that is spelled as the grammar of JSON has it. -/
structure Number.WellFormed (n : Number) : Prop where
  whole : IsDigits n.whole
  /-- No digit follows a zero in front. -/
  lead : n.whole.head? = some '0' → n.whole = ['0']
  fraction : ∀ ds ∈ n.fraction, IsDigits ds
  exponent : ∀ x ∈ n.exponent, IsDigits x.2

/-- Whether a character may go on with a number. -/
def continues (c : Char) : Bool :=
  Digit.isDecimal c || c == '.' || c == 'e' || c == 'E'

/-- A text that does not go on with a number in front of it. -/
def Delimits (s : List Char) : Prop :=
  ∀ c ∈ s.head?, continues c = false

theorem delimits_nil : Delimits [] := by
  simp [Delimits]

@[simp]
theorem delimits_cons {c : Char} {s : List Char} : Delimits (c :: s) ↔ continues c = false := by
  simp [Delimits]

/-- A row of digits is read up to a text that does not start with one. -/
theorem someDigits?_append {ds s : List Char} (h : IsDigits ds)
    (stop : ∀ c ∈ s.head?, Digit.isDecimal c = false) : someDigits? (ds ++ s) = some (ds, s) := by
  have nothing : s.takeWhile Digit.isDecimal = [] ∧ s.dropWhile Digit.isDecimal = s := by
    cases s with
    | nil => exact ⟨rfl, rfl⟩
    | cons c s =>
        have other := stop c rfl
        exact ⟨List.takeWhile_cons_of_neg (by simp [other]),
          List.dropWhile_cons_of_neg (by simp [other])⟩
  rw [someDigits?, List.takeWhile_append_of_pos h.2, List.dropWhile_append_of_pos h.2, nothing.1,
    nothing.2, List.append_nil, if_neg h.1]

/-- The fraction of a number as text. -/
def renderFraction : Option (List Char) → List Char
  | none => []
  | some ds => '.' :: ds

/-- The exponent of a number as text. -/
def renderExponent : Option (Bool × List Char) → List Char
  | none => []
  | some (down, ds) => 'e' :: (if down then '-' else '+') :: ds

/-- What delimits a number goes on neither with a digit nor with a point behind an exponent. -/
theorem stop_renderExponent (x : Option (Bool × List Char)) {s : List Char} (h : Delimits s) :
    ∀ c ∈ (renderExponent x ++ s).head?, Digit.isDecimal c = false ∧ c ≠ '.' := by
  intro c mem
  cases x with
  | some x =>
      cases mem
      decide
  | none =>
      have other := h c mem
      simp only [continues, Bool.or_eq_false_iff, beq_eq_false_iff_ne] at other
      exact other.1.1

theorem stop_renderFraction (f : Option (List Char)) (x : Option (Bool × List Char))
    {s : List Char} (h : Delimits s) :
    ∀ c ∈ (renderFraction f ++ (renderExponent x ++ s)).head?, Digit.isDecimal c = false := by
  intro c mem
  cases f with
  | some ds =>
      cases mem
      decide
  | none => exact (stop_renderExponent x h c mem).1

theorem wholeDigits?_append {n : Number} (h : n.WellFormed) {s : List Char}
    (stop : ∀ c ∈ s.head?, Digit.isDecimal c = false) :
    wholeDigits? (n.whole ++ s) = some (n.whole, s) := by
  by_cases zero : n.whole = ['0']
  · rw [zero]
    rfl
  · rw [wholeDigits?]
    · exact someDigits?_append h.whole stop
    · intro rest eq
      refine zero (h.lead ?_)
      obtain ⟨c, ds, whole⟩ := List.exists_cons_of_ne_nil h.whole.1
      rw [whole, List.cons_append] at eq
      rw [whole, List.head?_cons, (List.cons.inj eq).1]

theorem fraction?_append {n : Number} (h : n.WellFormed) {s : List Char}
    (stop : ∀ c ∈ s.head?, Digit.isDecimal c = false ∧ c ≠ '.') :
    fraction? (renderFraction n.fraction ++ s) = some (n.fraction, s) := by
  cases eq : n.fraction with
  | none =>
      rw [renderFraction, List.nil_append, fraction?]
      rintro rest rfl
      exact (stop '.' rfl).2 rfl
  | some ds =>
      rw [renderFraction, List.cons_append, fraction?,
        someDigits?_append (h.fraction ds eq) fun c hc => (stop c hc).1]
      rfl

theorem exponent?_append {n : Number} (h : n.WellFormed) {s : List Char} (stop : Delimits s) :
    exponent? (renderExponent n.exponent ++ s) = some (n.exponent, s) := by
  cases eq : n.exponent with
  | none =>
      rw [renderExponent, List.nil_append, exponent?]
      · rintro rest rfl
        cases stop 'e' rfl
      · rintro rest rfl
        cases stop 'E' rfl
  | some x =>
      obtain ⟨down, ds⟩ := x
      have digits : someDigits? (ds ++ s) = some (ds, s) :=
        someDigits?_append (h.exponent _ eq) fun c hc =>
          (stop_renderExponent none stop c hc).1
      cases down <;>
        simp [renderExponent, exponent?, exponentDigits?, digits]

/-- **The parts of a number are read back**, up to where the text goes on. -/
theorem numberRest?_append {n : Number} (h : n.WellFormed) {s : List Char} (stop : Delimits s) :
    numberRest? n.negative
      (n.whole ++ (renderFraction n.fraction ++ (renderExponent n.exponent ++ s))) =
        some (n, s) := by
  rw [numberRest?, wholeDigits?_append h (stop_renderFraction _ _ stop)]
  simp only [Option.bind_eq_bind, Option.bind_some]
  rw [fraction?_append h (stop_renderExponent _ stop)]
  simp only [Option.bind_some]
  rw [exponent?_append h stop]
  rfl

/-! ## Tokens -/

/-- A token as text. -/
def Token.render : Token → List Char
  | .openObject => ['\x7b']
  | .closeObject => ['\x7d']
  | .openArray => ['[']
  | .closeArray => [']']
  | .colon => [':']
  | .comma => [',']
  | .null => "null".toList
  | .bool b => (if b then "true" else "false").toList
  | .number n => n.render
  | .string units => renderString units

/-- A token that can be read again. -/
def Token.Writable : Token → Prop
  | .number n => n.WellFormed
  | .string units => ∀ u ∈ units, u.Writable
  | _ => True

/-- The token that is read where a token was written. -/
def Token.reread : Token → Token
  | .string units => .string (units.map Unit.reread)
  | t => t

/-- A text that a token ends in front of.  Only a number does not end by itself. -/
def Token.EndsAt : Token → List Char → Prop
  | .number _, s => Delimits s
  | _, _ => True

/-- The characters that a token other than a positive number may start with. -/
def marks : List Char :=
  [',', ':', '[', ']', '\x7b', '\x7d', '"', 'n', 't', 'f', '-']

/-- What starts with no mark is a number or nothing. -/
theorem token?_cons {c : Char} (other : c ∉ marks) (s : List Char) :
    token? (c :: s) = (numberRest? false (c :: s)).map fun (n, rest) => (.number n, rest) := by
  rw [token?]
  all_goals
    rintro _ ⟨⟩
    exact other (by decide)

theorem notMem_marks {c : Char} (h : Digit.isDecimal c = true) : c ∉ marks := by
  have none : marks.all (fun d => !Digit.isDecimal d) = true := rfl
  intro mem
  have other := List.all_eq_true.1 none c mem
  rw [h] at other
  cases other

theorem token?_render_number {n : Number} (h : n.WellFormed) {s : List Char} (stop : Delimits s) :
    token? (n.render ++ s) = some (.number n, s) := by
  have parts : n.render ++ s = Decimal.sign n.negative ++
      (n.whole ++ (renderFraction n.fraction ++ (renderExponent n.exponent ++ s))) := by
    have shape : n.render = Decimal.sign n.negative ++ n.whole ++ renderFraction n.fraction ++
        renderExponent n.exponent := rfl
    rw [shape, List.append_assoc, List.append_assoc, List.append_assoc]
  have read := numberRest?_append h stop
  rw [parts]
  cases sign : n.negative with
  | true =>
      rw [sign] at read
      rw [Decimal.sign, if_pos rfl, List.singleton_append, token?, read]
      rfl
  | false =>
      -- without a sign it is the first digit that tells the number from other tokens
      rw [sign] at read
      obtain ⟨c, ds, whole⟩ := List.exists_cons_of_ne_nil h.whole.1
      rw [whole, List.cons_append] at read ⊢
      have digit : Digit.isDecimal c = true :=
        h.whole.2 c (by rw [whole]; exact List.mem_cons_self)
      rw [Decimal.sign, if_neg Bool.false_ne_true, List.nil_append,
        token?_cons (notMem_marks digit), read]
      rfl

/-- **A token is read back.** -/
theorem token?_render {t : Token} (h : t.Writable) {s : List Char} (ends : t.EndsAt s) :
    token? (t.render ++ s) = some (t.reread, s) := by
  cases t with
  | number n => exact token?_render_number h ends
  | string units =>
      rw [Token.render, renderString, List.append_assoc, List.cons_append, token?,
        List.singleton_append, stringRest?_flatMap_renderUnit h]
      rfl
  | bool b => cases b <;> rfl
  | _ => rfl

end IncludeAtlas.Json
