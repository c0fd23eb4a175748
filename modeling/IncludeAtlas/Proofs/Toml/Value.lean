import IncludeAtlas.Json.Printer
import IncludeAtlas.Proofs.Json.Number
import IncludeAtlas.Toml.Document

/-!
# Written values

How a text, an integer, a truth value and a list of texts are written so that they are read back,
and that an integer beyond 64 bits is not read at all, however it goes on.

## Main Definitions

* `quote`, `ofInt`, `ofBool`, `ofTexts`: a value as it is written
* `Spells`: some characters are read as a value, up to the end of the line

## Main Results

* `spells_quote`, `spells_ofInt`, `spells_ofBool`, `spells_ofTexts`: what is written is read back
* `value?_ofInt`: an integer is read if it is in range

## What is load-bearing

Dates and times are tried before numbers, and they start with digits too.  Behind a row of digits
the line ends, and no date or time does without a hyphen or a colon (`moment?_of_isRun`).
-/

namespace IncludeAtlas

theorem Digit.hex?_of_isDecimal {c : Char} (h : isDecimal c = true) :
    hex? c = some (c.toNat - '0'.toNat) := by
  rw [isDecimal, Bool.and_eq_true, decide_eq_true_eq, decide_eq_true_eq] at h
  exact if_pos h

theorem Digit.value_eq {ds : List Char} (digits : ∀ c ∈ ds, isDecimal c = true) :
    value 10 ds = Nat.ofDigitChars 10 ds 0 := by
  suffices same : ∀ n, ds.foldl (fun n c => n * 10 + (hex? c).getD 0) n = Nat.ofDigitChars 10 ds n
    from same 0
  induction ds with
  | nil => exact fun n => rfl
  | cons c ds ih =>
      intro n
      rw [List.forall_mem_cons] at digits
      rw [List.foldl_cons, hex?_of_isDecimal digits.1, Option.getD_some, Nat.ofDigitChars_cons,
        Nat.mul_comm 10, ih digits.2]

theorem Digit.value_toDigits (n : Nat) : value 10 (Nat.toDigits 10 n) = n := by
  rw [value_eq (isDigits_toDigits n).2, Nat.ofDigitChars_toDigits (by decide) (by decide)]

namespace Toml

variable {s rest : List Char} {c : Char}

/-! ## How values are written -/

/-- How a character stands between double quotes. -/
def escape (c : Char) : List Char :=
  if c = '"' ∨ c = '\\' then ['\\', c]
  else if isPlain c then [c]
  else '\\' :: 'u' :: Json.hex4 c.toNat

/-- A text between double quotes. -/
def quote (s : String) : List Char :=
  '"' :: s.toList.flatMap escape ++ ['"']

/-- An integer in digits. -/
def ofInt (n : Int) : List Char :=
  if n < 0 then '-' :: Nat.toDigits 10 n.natAbs else Nat.toDigits 10 n.natAbs

/-- A truth value as a word. -/
def ofBool (b : Bool) : List Char :=
  (if b then "true" else "false").toList

/-- The elements of a list of texts from behind its opening bracket. -/
def textsRest : List String → List Char
  | [] => [']']
  | [s] => quote s ++ [']']
  | s :: t :: more => quote s ++ ',' :: ' ' :: textsRest (t :: more)

/-- A list of texts. -/
def ofTexts (ss : List String) : List Char :=
  '[' :: textsRest ss

/-- Some characters are read as a value, up to the end of the line. -/
structure Spells (v : Toml) (t : List Char) : Prop where
  read : ∀ rest, value? depthBound (t ++ '\n' :: rest) = some (v, '\n' :: rest)
  first : ∃ c cs, t = c :: cs ∧ isBlank c = false
  clean : '\r' ∉ t

/-! ## Texts -/

theorem toNat_lt_of_not_isPlain (h : isPlain c = false) : c.toNat < 128 := by
  simp only [isPlain, Bool.or_eq_false_iff, Bool.and_eq_false_iff, decide_eq_false_iff_not,
    bne_eq_false_iff_eq] at h
  omega

/-- A character that may not stand as it is has a number of four digits. -/
theorem scalar?_hex4 (h : isPlain c = false) :
    ∃ a b d e, Json.hex4 c.toNat = [a, b, d, e] ∧ scalar? [a, b, d, e] = some c := by
  have all : ∀ n < 128, ∃ a b d e, Json.hex4 n = [a, b, d, e] ∧
      scalar? [a, b, d, e] = some (Char.ofNat n) := by
    have each : ∀ n < 128,
        (Json.hex4 n).length = 4 ∧ scalar? (Json.hex4 n) = some (Char.ofNat n) := by
      decide
    intro n lt
    obtain ⟨len, read⟩ := each n lt
    obtain ⟨a, b, d, e, eq⟩ := List.length_eq_four.1 len
    exact ⟨a, b, d, e, eq, eq ▸ read⟩
  have here := all c.toNat (toNat_lt_of_not_isPlain h)
  rwa [Char.ofNat_toNat] at here

/-- A character is read back from between double quotes. -/
theorem basicRest?_escape : basicRest? (escape c ++ rest) = prepend c (basicRest? rest) := by
  rw [escape]
  split_ifs with mark plain
  · rcases mark with rfl | rfl
    · rfl
    · rfl
  · rw [not_or] at mark
    rw [List.singleton_append, basicRest?.eq_def]
    split <;> simp_all
  · obtain ⟨a, b, d, e, eq, read⟩ := scalar?_hex4 (by simpa using plain)
    rw [eq]
    simp only [List.cons_append, List.nil_append, basicRest?, read, Option.bind_some]

theorem basicRest?_flatMap_escape :
    basicRest? (s.flatMap escape ++ '"' :: rest) = some (s, rest) := by
  induction s with
  | nil => rfl
  | cons c s ih => rw [List.flatMap_cons, List.append_assoc, basicRest?_escape, ih]; rfl

theorem head?_escape_append : (escape c ++ s).head? ≠ some '"' := by
  rw [escape]
  split_ifs with mark
  · simp
  · rw [not_or] at mark
    simpa using mark.1
  · simp

/-- **A quoted text is read back**, unless another quote follows. -/
theorem quotedText?_quote (s : String) (next : c ≠ '"') :
    quotedText? (quote s ++ c :: rest) = some (s.toList, c :: rest) := by
  have read : basicRest? (s.toList.flatMap escape ++ '"' :: c :: rest) =
      some (s.toList, c :: rest) :=
    basicRest?_flatMap_escape
  have text : quote s ++ c :: rest = '"' :: (s.toList.flatMap escape ++ '"' :: c :: rest) := by
    simp [quote]
  rw [text]
  -- three quotes in a row would start a text over several lines
  have single : ∀ more, '"' :: (s.toList.flatMap escape ++ '"' :: c :: rest) ≠
      '"' :: '"' :: '"' :: more := by
    intro more eq
    cases shape : s.toList with
    | nil =>
        rw [shape] at eq
        exact next (List.cons.inj (List.cons.inj (List.cons.inj eq).2).2).1
    | cons d ds =>
        rw [shape, List.flatMap_cons, List.append_assoc] at eq
        exact head?_escape_append (congrArg List.head? (List.cons.inj eq).2)
  rw [quotedText?.eq_def]
  split
  · rename_i more eq
    exact absurd eq (single more)
  · rename_i eq
    cases eq
  · exact read

theorem value?_quote (n : Nat) (s : String) (next : c ≠ '"') :
    value? n (quote s ++ c :: rest) = some (.text s, c :: rest) := by
  have scalar : scalarValue? (quote s ++ c :: rest) = some (.text s, c :: rest) := by
    rw [scalarValue?, quotedText?_quote s next]
    · show some (Toml.text (String.ofList s.toList), _) = _
      rw [String.ofList_toList]
    · intro _ eq
      cases eq
    · intro _ eq
      cases eq
  cases n with
  | zero => exact scalar
  | succ n => exact scalar

/-! ## Lists of texts -/

theorem elements?_blank {element : Reader Toml} {n : Nat} :
    elements? element n (' ' :: s) = elements? element n s := by
  cases n with
  | zero => rfl
  | succ n => rfl

/-- The elements of a list of texts are read one after another. -/
theorem elements?_textsRest {n : Nat} (m : Nat) {ss : List String} (enough : ss.length < n) :
    elements? (value? m) n (textsRest ss ++ rest) = some (ss.map .text, rest) := by
  induction ss generalizing n with
  | nil =>
      obtain ⟨n, rfl⟩ := Nat.exists_eq_succ_of_ne_zero (Nat.ne_of_gt enough)
      rfl
  | cons s more ih =>
      obtain ⟨n, rfl⟩ := Nat.exists_eq_succ_of_ne_zero (Nat.ne_of_gt (Nat.zero_lt_of_lt enough))
      have start : ∀ more, gap (quote s ++ more) = quote s ++ more := fun more => rfl
      cases more with
      | nil =>
          have read : value? m (quote s ++ ']' :: rest) = some (.text s, ']' :: rest) :=
            value?_quote m s (by decide)
          have text : textsRest [s] ++ rest = quote s ++ ']' :: rest := by simp [textsRest]
          rw [text, elements?, start]
          show (value? m (quote s ++ ']' :: rest)).bind _ = _
          rw [read]
          rfl
      | cons t more =>
          have read : value? m (quote s ++ ',' :: ' ' :: (textsRest (t :: more) ++ rest)) =
              some (.text s, ',' :: ' ' :: (textsRest (t :: more) ++ rest)) :=
            value?_quote m s (by decide)
          have text : textsRest (s :: t :: more) ++ rest =
              quote s ++ ',' :: ' ' :: (textsRest (t :: more) ++ rest) := by
            simp [textsRest]
          have others := ih (Nat.lt_of_succ_lt_succ enough)
          rw [text, elements?, start]
          show (value? m (quote s ++ ',' :: ' ' :: (textsRest (t :: more) ++ rest))).bind _ = _
          rw [read]
          show (elements? (value? m) n (' ' :: (textsRest (t :: more) ++ rest))).bind _ = _
          rw [elements?_blank, others]
          rfl

/-! ## Integers -/

/-- A row of digits, and then the end of the line. -/
def IsRun (s : List Char) : Prop :=
  ∃ ds rest, s = ds ++ '\n' :: rest ∧ ∀ c ∈ ds, Digit.isDecimal c = true

theorem isRun_of_pair? {low high n : Nat} (run : IsRun s) (h : pair? low high s = some (n, rest)) :
    IsRun rest := by
  obtain ⟨ds, more, rfl, digits⟩ := run
  rcases ds with _ | ⟨a, _ | ⟨b, ds⟩⟩
  · cases more with
    | nil => cases h
    | cons d more =>
        rw [List.nil_append, pair?, if_neg (by simp [Digit.isDecimal])] at h
        cases h
  · rw [List.cons_append, List.nil_append, pair?, if_neg (by simp [Digit.isDecimal])] at h
    cases h
  · rw [List.cons_append, List.cons_append, pair?] at h
    simp only [Option.ite_none_right_eq_some, Option.some.injEq, Prod.mk.injEq] at h
    obtain ⟨-, -, -, rfl⟩ := h
    exact ⟨ds, more, rfl,
      fun c mem => digits c (List.mem_cons_of_mem _ (List.mem_cons_of_mem _ mem))⟩

theorem expect?_of_isRun (run : IsRun s) (end_ : c ≠ '\n') (digit : Digit.isDecimal c = false) :
    expect? c s = none := by
  obtain ⟨ds, more, rfl, digits⟩ := run
  cases ds with
  | nil => exact if_neg end_
  | cons d ds =>
      refine if_neg ?_
      rintro rfl
      rw [digits c List.mem_cons_self] at digit
      cases digit

/-- **No date or time is a row of digits.** -/
theorem moment?_of_isRun (run : IsRun s) : moment? s = none := by
  have date : date? s = none := by
    rw [date?, Option.bind_eq_bind, Option.bind_eq_none_iff]
    rintro ⟨century, s₁⟩ first
    have run₁ := isRun_of_pair? run first
    rw [Option.bind_eq_bind, Option.bind_eq_none_iff]
    rintro ⟨year, s₂⟩ second
    show (expect? '-' s₂).bind _ = none
    rw [expect?_of_isRun (isRun_of_pair? run₁ second) (by decide) rfl]
    rfl
  have time : time? s = none := by
    rw [time?, Option.bind_eq_bind, Option.bind_eq_none_iff]
    rintro ⟨hour, s₁⟩ first
    show (expect? ':' s₁).bind _ = none
    rw [expect?_of_isRun (isRun_of_pair? run first) (by decide) rfl]
    rfl
  rw [moment?, date, time]
  rfl

/-- A row of digits is read up to its end. -/
theorem moreDigits_append {ds : List Char} (digits : ∀ c ∈ ds, Digit.isDecimal c = true) :
    moreDigits Digit.isDecimal (ds ++ '\n' :: rest) = (ds, '\n' :: rest) := by
  induction ds with
  | nil =>
      cases rest with
      | nil => rfl
      | cons c rest => rfl
  | cons c ds ih =>
      rw [List.forall_mem_cons] at digits
      obtain ⟨d, more, eq⟩ : ∃ d more, ds ++ '\n' :: rest = d :: more :=
        List.exists_cons_of_ne_nil (by simp)
      have others := ih digits.2
      rw [eq] at others
      rw [List.cons_append, eq, moreDigits, if_pos digits.1, others]

theorem wholeDigits?_toDigits (n : Nat) :
    wholeDigits? (Nat.toDigits 10 n ++ '\n' :: rest) = some (Nat.toDigits 10 n, '\n' :: rest) := by
  rcases Nat.eq_zero_or_pos n with rfl | pos
  · rfl
  · have lead := head?_toDigits_ne pos
    have digits := (isDigits_toDigits n).2
    obtain ⟨c, ds, eq⟩ := List.exists_cons_of_ne_nil (isDigits_toDigits n).1
    rw [eq, List.forall_mem_cons] at digits
    rw [eq, List.head?_cons] at lead
    rw [eq, List.cons_append, wholeDigits?.eq_def]
    split
    · rename_i zero
      exact absurd (congrArg some (List.cons.inj zero).1) lead
    · rw [digitRun?, if_pos digits.1, moreDigits_append digits.2]

/-- A digit starts no sign and no word. -/
theorem cutSign_of_isDecimal (h : Digit.isDecimal c = true) :
    Decimal.cutSign (c :: s) = (false, c :: s) ∧ floatWord? (c :: s) = none := by
  constructor
  · rw [Decimal.cutSign.eq_def]
    split
    · rename_i eq
      cases eq
      cases h
    · rename_i eq
      cases eq
      cases h
    · rfl
  · rw [floatWord?.eq_def]
    split
    · rename_i eq
      cases eq
      cases h
    · rename_i eq
      cases eq
      cases h
    · rfl

theorem floatDigits?_toDigits (negative : Bool) (n : Nat) :
    floatDigits? negative (Nat.toDigits 10 n ++ '\n' :: rest) = none := by
  rw [floatDigits?, wholeDigits?_toDigits]
  rfl

/-- A number starts with a digit or a minus. -/
theorem ofInt_eq_cons (n : Int) :
    ∃ c cs, ofInt n = c :: cs ∧ (c = '-' ∨ Digit.isDecimal c = true) := by
  rw [ofInt]
  split_ifs
  · exact ⟨'-', _, rfl, .inl rfl⟩
  · obtain ⟨c, ds, eq⟩ := List.exists_cons_of_ne_nil (isDigits_toDigits n.natAbs).1
    exact ⟨c, ds, eq, .inr ((isDigits_toDigits n.natAbs).2 c (eq ▸ List.mem_cons_self))⟩

/-- What starts as a number does is neither a text, a word, a list nor a table. -/
theorem value?_of_sign (m : Nat) (h : c = '-' ∨ Digit.isDecimal c = true) :
    value? m (c :: s) = (moment? (c :: s)).or (number? (c :: s)) := by
  have other : ∀ d ∈ ['[', '\x7b', 't', 'f', '"', '\''], c ≠ d := by
    rintro d mem rfl
    rcases h with rfl | digit
    · revert mem
      decide
    · have none : ['[', '\x7b', 't', 'f', '"', '\''].any Digit.isDecimal = false := by
        decide
      exact List.any_eq_false.1 none c mem digit
  obtain ⟨bracket, brace, t, f, double, single⟩ : c ≠ '[' ∧ c ≠ '\x7b' ∧ c ≠ 't' ∧ c ≠ 'f' ∧
      c ≠ '"' ∧ c ≠ '\'' := by
    simpa using other
  have unquoted : quotedText? (c :: s) = none := by
    rw [quotedText?.eq_def]
    split
    · simp_all
    · simp_all
    · rw [lineText?.eq_def]
      split <;> simp_all
  have scalar : scalarValue? (c :: s) = (moment? (c :: s)).or (number? (c :: s)) := by
    rw [scalarValue?.eq_def]
    split
    · simp_all
    · simp_all
    · rw [unquoted]
  rw [← scalar, value?.eq_def]
  split
  · simp_all
  · simp_all
  · rfl

theorem pair?_minus {low high : Nat} : pair? low high ('-' :: s) = none := by
  cases s with
  | nil => rfl
  | cons c s => rw [pair?, if_neg (by simp [Digit.isDecimal])]

theorem moment?_ofInt (n : Int) : moment? (ofInt n ++ '\n' :: rest) = none := by
  rw [ofInt]
  split_ifs
  · rw [List.cons_append, moment?, date?, time?, pair?_minus, pair?_minus]
    rfl
  · exact moment?_of_isRun ⟨_, rest, rfl, (isDigits_toDigits n.natAbs).2⟩

theorem cutSign_toDigits (n : Nat) :
    Decimal.cutSign (Nat.toDigits 10 n ++ s) = (false, Nat.toDigits 10 n ++ s) ∧
      floatWord? (Nat.toDigits 10 n ++ s) = none := by
  have digits := (isDigits_toDigits n).2
  obtain ⟨c, ds, eq⟩ := List.exists_cons_of_ne_nil (isDigits_toDigits n).1
  rw [eq, List.forall_mem_cons] at digits
  rw [eq]
  exact cutSign_of_isDecimal digits.1

theorem float?_ofInt (n : Int) : float? (ofInt n ++ '\n' :: rest) = none := by
  have word := (cutSign_toDigits (s := '\n' :: rest) n.natAbs).2
  rw [ofInt]
  split_ifs
  · have cut : Decimal.cutSign ('-' :: Nat.toDigits 10 n.natAbs ++ '\n' :: rest) =
        (true, Nat.toDigits 10 n.natAbs ++ '\n' :: rest) := rfl
    rw [float?, cut]
    simp only [word, floatDigits?_toDigits]
  · rw [float?, (cutSign_toDigits n.natAbs).1]
    simp only [word, floatDigits?_toDigits]

/-- Digits behind a sign are read if their value is in range. -/
theorem decimal?_of_cutSign {negative : Bool} {k : Nat}
    (cut : Decimal.cutSign s = (negative, Nat.toDigits 10 k ++ '\n' :: rest)) :
    decimal? s = (inRange? (if negative then -(k : Int) else k)).map (·, '\n' :: rest) := by
  rw [decimal?, cut]
  simp only [wholeDigits?_toDigits, Option.bind_eq_bind, Option.bind_some, Digit.value_toDigits]
  cases inRange? _ <;> rfl

/-- No integer of base ten is taken for one of another base. -/
theorem integer?_toDigits (n : Nat) :
    integer? (Nat.toDigits 10 n ++ '\n' :: rest) =
      decimal? (Nat.toDigits 10 n ++ '\n' :: rest) := by
  have lead : ∀ c more, Nat.toDigits 10 n ++ '\n' :: rest = '0' :: c :: more → c = '\n' := by
    intro c more eq
    rcases Nat.eq_zero_or_pos n with rfl | pos
    · cases eq
      rfl
    · refine absurd ?_ (head?_toDigits_ne pos)
      obtain ⟨d, ds, shape⟩ := List.exists_cons_of_ne_nil (isDigits_toDigits n).1
      rw [shape] at eq ⊢
      exact congrArg some (List.cons.inj eq).1
  rw [integer?.eq_def]
  split
  all_goals first
    | rfl
    | rename_i eq
      cases lead _ _ eq

theorem integer?_ofInt (n : Int) :
    integer? (ofInt n ++ '\n' :: rest) = (inRange? n).map (·, '\n' :: rest) := by
  rw [ofInt]
  split_ifs with negative
  · have cut : Decimal.cutSign ('-' :: Nat.toDigits 10 n.natAbs ++ '\n' :: rest) =
        (true, Nat.toDigits 10 n.natAbs ++ '\n' :: rest) := rfl
    have same : (if true then -(n.natAbs : Int) else n.natAbs) = n := by
      rw [if_pos rfl]
      omega
    have read := decimal?_of_cutSign cut
    rw [same] at read
    exact read
  · have same : (if false then -(n.natAbs : Int) else n.natAbs) = n := by
      rw [if_neg Bool.false_ne_true]
      omega
    rw [integer?_toDigits, decimal?_of_cutSign (cutSign_toDigits n.natAbs).1, same]

/-- **An integer is read if it is in range.** -/
theorem value?_ofInt (m : Nat) (n : Int) :
    value? m (ofInt n ++ '\n' :: rest) = (inRange? n).map fun n => (.integer n, '\n' :: rest) := by
  have read : value? m (ofInt n ++ '\n' :: rest) =
      (moment? (ofInt n ++ '\n' :: rest)).or (number? (ofInt n ++ '\n' :: rest)) := by
    obtain ⟨c, cs, eq, sign⟩ := ofInt_eq_cons n
    rw [eq]
    exact value?_of_sign m sign
  rw [read, moment?_ofInt, number?, float?_ofInt, integer?_ofInt]
  cases inRange? n <;> rfl

/-! ## Written values are read back -/

theorem isBlank_of_sign (h : c = '-' ∨ Digit.isDecimal c = true) : isBlank c = false := by
  rcases h with rfl | digit
  · rfl
  · rw [isBlank, Bool.or_eq_false_iff, beq_eq_false_iff_ne, beq_eq_false_iff_ne]
    constructor
    · rintro rfl
      cases digit
    · rintro rfl
      cases digit

theorem notMem_escape : '\r' ∉ escape c := by
  rw [escape]
  split_ifs with mark plain
  · rcases mark with rfl | rfl
    · decide
    · decide
  · rw [List.mem_singleton]
    rintro rfl
    cases plain
  · have small := toNat_lt_of_not_isPlain (by simpa using plain)
    have digits : ∀ n < 128, '\r' ∉ '\\' :: 'u' :: Json.hex4 n := by decide
    exact digits _ small

theorem notMem_quote (s : String) : '\r' ∉ quote s := by
  simp only [quote, List.cons_append, List.mem_cons, List.mem_append, List.mem_flatMap,
    List.not_mem_nil, or_false, not_or]
  exact ⟨by decide, fun ⟨c, _, mem⟩ => notMem_escape mem, by decide⟩

theorem spells_quote (s : String) : Spells (.text s) (quote s) where
  read rest := value?_quote depthBound s (by decide)
  first := ⟨'"', _, rfl, rfl⟩
  clean := notMem_quote s

theorem notMem_ofInt (n : Int) : '\r' ∉ ofInt n := by
  have digits := (isDigits_toDigits n.natAbs).2
  have none : '\r' ∉ Nat.toDigits 10 n.natAbs := fun mem => absurd (digits _ mem) (by decide)
  rw [ofInt]
  split_ifs
  · simpa using none
  · exact none

theorem exists_cons_ofInt (n : Int) : ∃ c cs, ofInt n = c :: cs ∧ isBlank c = false := by
  obtain ⟨c, cs, eq, sign⟩ := ofInt_eq_cons n
  exact ⟨c, cs, eq, isBlank_of_sign sign⟩

theorem spells_ofInt {n : Int} (range : integerMin ≤ n ∧ n ≤ integerMax) :
    Spells (.integer n) (ofInt n) where
  read rest := by rw [value?_ofInt, inRange?, if_pos range]; rfl
  first := exists_cons_ofInt n
  clean := notMem_ofInt n

theorem spells_ofBool (b : Bool) : Spells (.boolean b) (ofBool b) where
  read rest := by cases b <;> rfl
  first := by
    cases b with
    | false => exact ⟨'f', _, rfl, rfl⟩
    | true => exact ⟨'t', _, rfl, rfl⟩
  clean := by cases b <;> decide

theorem length_le_textsRest (ss : List String) : ss.length ≤ (textsRest ss).length := by
  induction ss with
  | nil => exact Nat.zero_le _
  | cons s more ih =>
      cases more with
      | nil => simp [textsRest]
      | cons t more =>
          simp only [textsRest, List.length_append, List.length_cons] at ih ⊢
          omega

theorem notMem_textsRest (ss : List String) : '\r' ∉ textsRest ss := by
  induction ss with
  | nil => decide
  | cons s more ih =>
      cases more with
      | nil => simp [textsRest, notMem_quote]
      | cons t more => simpa [textsRest, notMem_quote] using ih

theorem spells_ofTexts (ss : List String) : Spells (.array (ss.map .text)) (ofTexts ss) where
  read rest := by
    have enough : ss.length < (textsRest ss ++ '\n' :: rest).length := by
      have le := length_le_textsRest ss
      rw [List.length_append, List.length_cons]
      omega
    show (elements? (value? 78) (textsRest ss ++ '\n' :: rest).length
      (textsRest ss ++ '\n' :: rest)).map _ = _
    rw [elements?_textsRest 78 enough]
    rfl
  first := ⟨'[', _, rfl, rfl⟩
  clean := by
    rw [ofTexts, List.mem_cons, not_or]
    exact ⟨by decide, notMem_textsRest ss⟩

end Toml

end IncludeAtlas
