import IncludeAtlas.Proofs.Json.Parser
import IncludeAtlas.Text.Blank

/-!
# White space between tokens

A text without the white space that stands outside its string literals.  What is a literal is
told by quotes and backslashes alone, so that this can be said of any text, whether it was
written here or not.

## Main Definitions

* `Zone`: whether a place in a text is within a literal
* `squeeze`: a text without the white space outside its literals
* `Solid`: a text that begins and ends outside of literals and has no white space there

## Main Results

* `squeeze_append`: a text is squeezed piece by piece
* `solid_render`: the text of every token is solid
* `squeeze_of_spaced`: of a row of tokens with blanks the texts of the tokens stay
* `squeeze_spread`: squeezed, the layout over lines is the layout without blanks

## What is load-bearing

A quote within a literal stands behind a backslash, and a backslash behind another one.  So a
literal ends where it was written to end, whatever its text is.
-/

namespace IncludeAtlas.Json

/-- A place in a text: outside of string literals, within one, or behind a backslash in one. -/
inductive Zone where
  | outside
  | inside
  | escaped
  deriving DecidableEq

/-- The zone behind a character. -/
def Zone.next : Zone → Char → Zone
  | .outside, c => if c = '"' then .inside else .outside
  | .inside, c => if c = '"' then .outside else if c = '\\' then .escaped else .inside
  | .escaped, _ => .inside

/-- The zone behind a text. -/
def Zone.after (z : Zone) (s : List Char) : Zone :=
  s.foldl Zone.next z

/-- A text without the white space outside its literals.  It starts in the given zone. -/
def squeeze (z : Zone) : List Char → List Char
  | [] => []
  | c :: cs =>
    if z = .outside ∧ Blank.isBlank c then squeeze (z.next c) cs else c :: squeeze (z.next c) cs

/-- **A text is squeezed piece by piece.**  Of what stands before a piece only the zone counts. -/
theorem squeeze_append (z : Zone) (s t : List Char) :
    squeeze z (s ++ t) = squeeze z s ++ squeeze (z.after s) t := by
  induction s generalizing z with
  | nil => rfl
  | cons c s ih =>
      have zone : z.after (c :: s) = (z.next c).after s := rfl
      rw [List.cons_append, squeeze, squeeze, ih, zone]
      split_ifs <;> rfl

/-- A space behind an escaped quote is within the literal, one behind a colon is not. -/
example : squeeze .outside "\"a\\\" b\": [1, 2]\n".toList = "\"a\\\" b\":[1,2]".toList := by
  decide

theorem Zone.after_append (z : Zone) (s t : List Char) :
    z.after (s ++ t) = (z.after s).after t :=
  List.foldl_append

/-! ## Solid texts -/

/-- A text of which nothing is dropped and that ends in the zone it begins in. -/
structure Solid (z : Zone) (s : List Char) : Prop where
  kept : squeeze z s = s
  back : z.after s = z

variable {z : Zone} {s t : List Char}

theorem solid_nil (z : Zone) : Solid z [] :=
  ⟨rfl, rfl⟩

theorem Solid.append (hs : Solid z s) (ht : Solid z t) : Solid z (s ++ t) where
  kept := by rw [squeeze_append, hs.kept, hs.back, ht.kept]
  back := by rw [Zone.after_append, hs.back, ht.back]

theorem Solid.flatMap {α : Type} {f : α → List Char} {xs : List α}
    (h : ∀ x ∈ xs, Solid z (f x)) : Solid z (xs.flatMap f) := by
  induction xs with
  | nil => exact solid_nil z
  | cons x xs ih =>
      rw [List.flatMap_cons]
      exact (h x List.mem_cons_self).append (ih fun y mem => h y (List.mem_cons_of_mem x mem))

/-- A character that stays and does not change the zone. -/
theorem solid_singleton {c : Char} (stays : z = .outside → Blank.isBlank c = false)
    (zone : z.next c = z) : Solid z [c] where
  kept := by
    rw [squeeze, if_neg, squeeze]
    rintro ⟨outside, blank⟩
    rw [stays outside] at blank
    cases blank
  back := zone

theorem solid_of_forall {cs : List Char}
    (stays : ∀ c ∈ cs, z = .outside → Blank.isBlank c = false) (zone : ∀ c ∈ cs, z.next c = z) :
    Solid z cs := by
  have each : cs.flatMap (fun c => [c]) = cs := by simp
  rw [← each]
  exact Solid.flatMap fun c mem => solid_singleton (stays c mem) (zone c mem)

/-! ## Tokens -/

/-- A character outside of literals that stays there. -/
def Plain (c : Char) : Prop :=
  c ≠ '"' ∧ Blank.isBlank c = false

instance (c : Char) : Decidable (Plain c) :=
  inferInstanceAs (Decidable (_ ∧ _))

theorem solid_of_plain {cs : List Char} (h : ∀ c ∈ cs, Plain c) : Solid .outside cs :=
  solid_of_forall (fun c mem _ => (h c mem).2) fun c mem => if_neg (h c mem).1

theorem solid_of_all {cs : List Char} (h : cs.all (fun c => Plain c) = true) :
    Solid .outside cs :=
  solid_of_plain fun c mem => of_decide_eq_true (List.all_eq_true.1 h c mem)

theorem plain_of_isDecimal {c : Char} (h : Digit.isDecimal c = true) : Plain c := by
  have range : 48 ≤ c.toNat ∧ c.toNat ≤ 57 := by
    simpa [Digit.isDecimal, Char.le_def, UInt32.le_iff_toNat_le] using h
  refine ⟨?_, ?_⟩
  · rintro rfl
    cases h
  · simp only [Blank.isBlank, Bool.or_eq_false_iff, Bool.and_eq_false_iff, decide_eq_false_iff_not,
      beq_eq_false_iff_ne]
    omega

theorem solid_digits {ds : List Char} (h : IsDigits ds) : Solid .outside ds :=
  solid_of_plain fun c mem => plain_of_isDecimal (h.2 c mem)

theorem solid_render_number {n : Number} (h : n.WellFormed) : Solid .outside n.render := by
  have sign : Solid .outside (Decimal.sign n.negative) := by
    cases n.negative <;> exact solid_of_all rfl
  have fraction : Solid .outside (renderFraction n.fraction) := by
    cases eq : n.fraction with
    | none => exact solid_nil _
    | some ds =>
        have point : Solid .outside ['.'] := solid_of_all rfl
        exact point.append (solid_digits (h.fraction ds eq))
  have exponent : Solid .outside (renderExponent n.exponent) := by
    cases eq : n.exponent with
    | none => exact solid_nil _
    | some x =>
        obtain ⟨down, ds⟩ := x
        have mark : Solid .outside ['e', if down then '-' else '+'] := by
          cases down <;> exact solid_of_all rfl
        exact mark.append (solid_digits (h.exponent _ eq))
  have shape : n.render = Decimal.sign n.negative ++ n.whole ++ renderFraction n.fraction ++
      renderExponent n.exponent := rfl
  rw [shape]
  exact ((sign.append (solid_digits h.whole)).append fraction).append exponent

/-- A character that does not end a literal or escape what follows it. -/
theorem solid_inside {cs : List Char} (h : ∀ c ∈ cs, c ≠ '"' ∧ c ≠ '\\') : Solid .inside cs :=
  solid_of_forall (fun _ _ outside => nomatch outside) fun c mem =>
    (if_neg (h c mem).1).trans (if_neg (h c mem).2)

/-- What stands behind a backslash does not end a literal. -/
theorem solid_escaped (e : Char) : Solid .inside ['\\', e] :=
  ⟨rfl, rfl⟩

theorem solid_hex4 {n : Nat} (h : n < 0x10000) : Solid .inside ('\\' :: 'u' :: hex4 n) := by
  have digit : ∀ d < 16, d.digitChar ≠ '"' ∧ d.digitChar ≠ '\\' := by decide
  have digits : ∀ c ∈ hex4 n, c ≠ '"' ∧ c ≠ '\\' := by
    rw [hex4_eq h]
    simp only [List.forall_mem_cons, List.not_mem_nil, false_imp_iff, implies_true, and_true]
    exact ⟨digit _ (by omega), digit _ (by omega), digit _ (by omega), digit _ (by omega)⟩
  exact (solid_escaped 'u').append (solid_inside digits)

/-- An element of a string stays within its literal. -/
theorem solid_renderUnit {u : Unit} (h : u.Writable) : Solid .inside (renderUnit u) := by
  cases u with
  | code n => exact solid_hex4 h
  | char c =>
      rw [renderUnit]
      rcases escape_cases c with ⟨e, eq, -, -⟩ | ⟨eq, control, -⟩ | ⟨eq, plain, -⟩
      · rw [eq]
        exact solid_escaped e
      · rw [eq]
        exact solid_hex4 (by omega)
      · rw [eq]
        exact solid_inside (List.forall_mem_singleton.2 ⟨plain.1, plain.2.1⟩)

theorem solid_renderString {units : List Unit} (h : ∀ u ∈ units, u.Writable) :
    Solid .outside (renderString units) := by
  have within : Solid .inside (units.flatMap renderUnit) :=
    Solid.flatMap fun u mem => solid_renderUnit (h u mem)
  have opened : ∀ cs, squeeze .outside ('"' :: cs) = '"' :: squeeze .inside cs ∧
      Zone.outside.after ('"' :: cs) = Zone.inside.after cs := fun _ => ⟨rfl, rfl⟩
  refine ⟨?_, ?_⟩
  · rw [renderString, List.cons_append, (opened _).1, squeeze_append, within.kept, within.back]
    rfl
  · rw [renderString, List.cons_append, (opened _).2, Zone.after_append, within.back]
    rfl

/-- **The text of every token is solid.** -/
theorem solid_render {t : Token} (h : t.Writable) : Solid .outside t.render := by
  cases t with
  | number n => exact solid_render_number h
  | string units => exact solid_renderString h
  | bool b => cases b <;> exact solid_of_all rfl
  | _ => exact solid_of_all rfl

/-! ## Layouts -/

/-- A blank between tokens is white space, and opens no literal. -/
theorem blank_of_isBlank {c : Char} (h : isBlank c = true) :
    Blank.isBlank c = true ∧ Zone.next .outside c = .outside := by
  have kinds : c = ' ' ∨ c = '\t' ∨ c = '\n' ∨ c = '\r' := by
    simpa [isBlank, or_assoc] using h
  rcases kinds with rfl | rfl | rfl | rfl <;> decide

/-- **Of a row of tokens with blanks the texts of the tokens stay.** -/
theorem squeeze_of_spaced {ts : List Token} (h : Spaced ts s) (writable : ∀ t ∈ ts, t.Writable) :
    squeeze .outside s = ts.flatMap Token.render := by
  induction h with
  | nil => rfl
  | blank space _ ih =>
      obtain ⟨white, zone⟩ := blank_of_isBlank space
      rw [squeeze, if_pos ⟨rfl, white⟩, zone, ih writable]
  | token _ _ ih =>
      obtain ⟨first, rest⟩ := List.forall_mem_cons.1 writable
      have solid := solid_render first
      rw [squeeze_append, solid.kept, solid.back, ih rest, List.flatMap_cons]

/-- Every token of a row stands in the text, outside of the literals before it. -/
theorem Spaced.exists_append {ts : List Token} (h : Spaced ts s)
    (writable : ∀ t ∈ ts, t.Writable) {t : Token} (mem : t ∈ ts) :
    ∃ before after, s = before ++ t.render ++ after ∧ Zone.outside.after before = .outside := by
  induction h with
  | nil => cases mem
  | blank space _ ih =>
      obtain ⟨before, after, rfl, zone⟩ := ih writable mem
      refine ⟨_ :: before, after, rfl, ?_⟩
      show (Zone.next .outside _).after before = .outside
      rw [(blank_of_isBlank space).2, zone]
  | @token t' ts s _ _ ih =>
      obtain ⟨first, rest⟩ := List.forall_mem_cons.1 writable
      rcases List.mem_cons.1 mem with rfl | mem
      · exact ⟨[], s, rfl, rfl⟩
      · obtain ⟨before, after, rfl, zone⟩ := ih rest mem
        refine ⟨t'.render ++ before, after, by simp only [List.append_assoc], ?_⟩
        rw [Zone.after_append, (solid_render first).back, zone]

mutual

/-- The layout without blanks is the texts of the tokens. -/
theorem compact_eq (v : Json) : v.compact = v.lexemes.flatMap Token.render := by
  match v with
  | .null | .bool _ | .number _ | .string _ =>
      simp [compact, lexemes, Token.render]
  | .array elements =>
      simp [compact, lexemes, Token.render, compactElements_eq elements]
  | .object members =>
      simp [compact, lexemes, Token.render, compactMembers_eq members]

theorem compactElements_eq (elements : List Json) :
    compactElements elements = (elementLexemes elements).flatMap Token.render := by
  match elements with
  | [] => rfl
  | [v] => exact compact_eq v
  | v :: w :: rest =>
      simp [compactElements, elementLexemes, Token.render, compact_eq v,
        compactElements_eq (w :: rest)]

theorem compactMembers_eq (members : List (List Unit × Json)) :
    compactMembers members = (memberLexemes members).flatMap Token.render := by
  match members with
  | [] => rfl
  | [(k, v)] => simp [compactMembers, memberLexemes, Token.render, compact_eq v]
  | (k, v) :: m :: rest =>
      simp [compactMembers, memberLexemes, Token.render, compact_eq v,
        compactMembers_eq (m :: rest)]

end

/-- **Squeezed, the layout over lines is the layout without blanks.** -/
theorem squeeze_spread {v : Json} (h : v.Writable) (depth : Nat) :
    squeeze .outside (v.spread depth) = v.compact := by
  have spaced := spaced_spread depth v .nil delimits_nil
  rw [List.append_nil, List.append_nil] at spaced
  rw [squeeze_of_spaced spaced h, compact_eq]

/-- Every token of a value stands in both layouts, between the same texts up to white space. -/
theorem exists_spread_eq_append {v : Json} (h : v.Writable) (depth : Nat) {t : Token}
    (mem : t ∈ v.lexemes) : ∃ before after, Zone.outside.after before = .outside ∧
      v.spread depth = before ++ t.render ++ after ∧
      v.compact = squeeze .outside before ++ t.render ++ squeeze .outside after := by
  have spaced := spaced_spread depth v .nil delimits_nil
  rw [List.append_nil, List.append_nil] at spaced
  obtain ⟨before, after, text, zone⟩ := spaced.exists_append h mem
  have solid := solid_render (h t mem)
  refine ⟨before, after, zone, text, ?_⟩
  rw [← squeeze_spread h depth, text, squeeze_append, Zone.after_append, squeeze_append, zone,
    solid.kept, solid.back]

/-! ## Tokens of what a value holds -/

variable {v : Json} {tk : Token}

theorem mem_elementLexemes {elements : List Json} (hv : v ∈ elements) (ht : tk ∈ v.lexemes) :
    tk ∈ elementLexemes elements := by
  match elements with
  | [w] =>
      rw [elementLexemes, ← List.mem_singleton.1 hv]
      exact ht
  | w :: x :: rest =>
      rw [elementLexemes, List.mem_append]
      rcases List.mem_cons.1 hv with rfl | hv
      · exact .inl ht
      · exact .inr (List.mem_cons_of_mem _ (mem_elementLexemes hv ht))

theorem mem_memberLexemes {members : List (List Unit × Json)} {m : List Unit × Json}
    (hm : m ∈ members) (ht : tk ∈ m.2.lexemes) : tk ∈ memberLexemes members := by
  match members with
  | [n] =>
      rw [memberLexemes, ← List.mem_singleton.1 hm]
      exact List.mem_cons_of_mem _ (List.mem_cons_of_mem _ ht)
  | n :: o :: rest =>
      rw [memberLexemes, List.mem_append]
      rcases List.mem_cons.1 hm with rfl | hm
      · exact .inl (List.mem_cons_of_mem _ (List.mem_cons_of_mem _ ht))
      · exact .inr (List.mem_cons_of_mem _ (mem_memberLexemes hm ht))

/-- What an element of an array is written with stands in the array. -/
theorem mem_lexemes_array {elements : List Json} (hv : v ∈ elements) (ht : tk ∈ v.lexemes) :
    tk ∈ (array elements).lexemes := by
  rw [lexemes, List.cons_append]
  exact List.mem_cons_of_mem _ (List.mem_append_left _ (mem_elementLexemes hv ht))

/-- What a member of an object is written with stands in the object. -/
theorem mem_lexemes_object {members : List (List Unit × Json)} {m : List Unit × Json}
    (hm : m ∈ members) (ht : tk ∈ m.2.lexemes) : tk ∈ (object members).lexemes := by
  rw [lexemes, List.cons_append]
  exact List.mem_cons_of_mem _ (List.mem_append_left _ (mem_memberLexemes hm ht))

end IncludeAtlas.Json
