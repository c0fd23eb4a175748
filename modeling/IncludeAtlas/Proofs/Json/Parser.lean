import IncludeAtlas.Json.Parser
import IncludeAtlas.Proofs.Json.Layout

/-!
# Values read back

The machine that reads values takes the tokens of a value for that value, whatever is open
around it.  Together with the layouts this reads back every value that can be written.

## Main Definitions

* `Json.reread`: the value that is read where a value was written
* `Json.Writable`: the values that can be read again

## Main Results

* `run?_lexemes`: the machine takes the tokens of a value for the value
* `parse?_spread`, `parse?_compact`: a value is read back from either layout
-/

namespace IncludeAtlas.Json

/-- The value that is read where a value was written. -/
def reread : Json → Json
  | .null => .null
  | .bool b => .bool b
  | .number n => .number n
  | .string units => .string (units.map Unit.reread)
  | .array elements => .array (elements.map reread)
  | .object members => .object (members.map fun m => (m.1.map Unit.reread, reread m.2))
decreasing_by
  · decreasing_tactic
  · rename_i mem
    have smaller := List.sizeOf_lt_of_mem mem
    obtain ⟨k, v⟩ := m
    simp only [Prod.mk.sizeOf_spec, object.sizeOf_spec] at smaller ⊢
    omega

/-! ## Tokens of what is reread -/

mutual

theorem lexemes_reread (v : Json) : v.reread.lexemes = v.lexemes.map Token.reread := by
  match v with
  | .null | .bool _ | .number _ | .string _ => rw [reread]; rfl
  | .array elements =>
      rw [reread, lexemes, lexemes, elementLexemes_reread elements]
      simp only [List.cons_append, List.map_cons, List.map_append, List.map_nil, Token.reread]
  | .object members =>
      rw [reread, lexemes, lexemes, memberLexemes_reread members]
      simp only [List.cons_append, List.map_cons, List.map_append, List.map_nil, Token.reread]

theorem elementLexemes_reread (elements : List Json) :
    elementLexemes (elements.map reread) = (elementLexemes elements).map Token.reread := by
  match elements with
  | [] => rfl
  | [v] => exact lexemes_reread v
  | v :: w :: rest =>
      have more := elementLexemes_reread (w :: rest)
      rw [List.map_cons] at more
      rw [List.map_cons, List.map_cons, elementLexemes, lexemes_reread v, more, elementLexemes,
        List.map_append, List.map_cons, Token.reread]
      simp

theorem memberLexemes_reread (members : List (List Unit × Json)) :
    memberLexemes (members.map fun m => (m.1.map Unit.reread, reread m.2)) =
      (memberLexemes members).map Token.reread := by
  match members with
  | [] => rfl
  | [(k, v)] =>
      have value := lexemes_reread v
      simp [memberLexemes, value, Token.reread]
  | (k, v) :: m :: rest =>
      have more := memberLexemes_reread (m :: rest)
      have value := lexemes_reread v
      rw [List.map_cons] at more
      simp [memberLexemes, value, more, Token.reread]

end

/-! ## The machine -/

theorem run?_cons {expect expect' : Expect} {stack stack' : List Frame} {t : Token}
    (h : step? expect stack t = some (expect', stack')) (ts : List Token) :
    run? expect stack (t :: ts) = run? expect' stack' ts := by
  rw [run?, h]

/-- The end of an array that has an element is not where its first element is. -/
theorem run?_valueOrEnd (v : Json) (rest : List Json) (stack : List Frame) (ts : List Token) :
    run? .valueOrEnd (.array [] :: stack) (elementLexemes (v :: rest) ++ ts) =
      run? .value (.array [] :: stack) (elementLexemes (v :: rest) ++ ts) := by
  cases rest <;> cases v <;> rfl

theorem run?_keyOrEnd (m : List Unit × Json) (rest : List (List Unit × Json))
    (stack : List Frame) (ts : List Token) :
    run? .keyOrEnd (.object [] :: stack) (memberLexemes (m :: rest) ++ ts) =
      run? .key (.object [] :: stack) (memberLexemes (m :: rest) ++ ts) := by
  cases rest <;> rfl

mutual

/-- **The machine takes the tokens of a value for the value**, whatever is open. -/
theorem run?_lexemes (v : Json) (stack : List Frame) (ts : List Token) :
    run? .value stack (v.lexemes ++ ts) = run? (.done v) stack ts := by
  match v with
  | .null | .bool _ | .number _ | .string _ | .array [] | .object [] => rfl
  | .array (v :: rest) =>
      -- behind the bracket an end may stand, but the first element does
      rw [lexemes, List.cons_append, List.cons_append, List.append_assoc, List.singleton_append,
        run?_cons rfl, run?_valueOrEnd, run?_elementLexemes (v :: rest) (List.cons_ne_nil _ _)]
      rfl
  | .object (m :: rest) =>
      rw [lexemes, List.cons_append, List.cons_append, List.append_assoc, List.singleton_append,
        run?_cons rfl, run?_keyOrEnd, run?_memberLexemes (m :: rest) (List.cons_ne_nil _ _)]
      rfl

/-- Elements that follow others come behind them.  The frame holds the others in reverse. -/
theorem run?_elementLexemes (elements : List Json) (nonempty : elements ≠ []) (done : List Json)
    (stack : List Frame) (ts : List Token) :
    run? .value (.array done :: stack) (elementLexemes elements ++ .closeArray :: ts) =
      run? (.done (.array (done.reverse ++ elements))) stack ts := by
  match elements with
  | [v] =>
      rw [elementLexemes, run?_lexemes v, run?_cons rfl, List.reverse_cons]
  | v :: w :: rest =>
      rw [elementLexemes, List.append_assoc, run?_lexemes v, List.cons_append, run?_cons rfl,
        run?_elementLexemes (w :: rest) (List.cons_ne_nil _ _), List.reverse_cons,
        List.append_assoc, List.singleton_append]

/-- Members that follow others come behind them. -/
theorem run?_memberLexemes (members : List (List Unit × Json)) (nonempty : members ≠ [])
    (done : List (List Unit × Json)) (stack : List Frame) (ts : List Token) :
    run? .key (.object done :: stack) (memberLexemes members ++ .closeObject :: ts) =
      run? (.done (.object (done.reverse ++ members))) stack ts := by
  match members with
  | [(k, v)] =>
      rw [memberLexemes, List.cons_append, run?_cons rfl, List.cons_append, run?_cons rfl,
        run?_lexemes v, run?_cons rfl, List.reverse_cons]
  | (k, v) :: m :: rest =>
      rw [memberLexemes, List.cons_append, List.cons_append, List.cons_append, run?_cons rfl,
        List.cons_append, run?_cons rfl, List.append_assoc, run?_lexemes v, List.cons_append,
        run?_cons rfl, run?_memberLexemes (m :: rest) (List.cons_ne_nil _ _), List.reverse_cons,
        List.append_assoc, List.singleton_append]

end

/-! ## Values that can be written -/

/-- A value that can be read again: each of its tokens can. -/
def Writable (v : Json) : Prop :=
  ∀ t ∈ v.lexemes, t.Writable

theorem writable_of_mem_elementLexemes {elements : List Json}
    (h : ∀ v ∈ elements, v.Writable) : ∀ t ∈ elementLexemes elements, t.Writable := by
  match elements with
  | [] => exact List.forall_mem_nil _
  | [v] => exact h v List.mem_cons_self
  | v :: w :: rest =>
      have more := writable_of_mem_elementLexemes fun u mem => h u (List.mem_cons_of_mem v mem)
      rw [elementLexemes, List.forall_mem_append, List.forall_mem_cons]
      exact ⟨h v List.mem_cons_self, trivial, more⟩

theorem writable_of_mem_memberLexemes {members : List (List Unit × Json)}
    (h : ∀ m ∈ members, (∀ u ∈ m.1, u.Writable) ∧ m.2.Writable) :
    ∀ t ∈ memberLexemes members, t.Writable := by
  match members with
  | [] => exact List.forall_mem_nil _
  | [m] =>
      obtain ⟨key, value⟩ := h m List.mem_cons_self
      rw [memberLexemes, List.forall_mem_cons, List.forall_mem_cons]
      exact ⟨key, trivial, value⟩
  | m :: m' :: rest =>
      have more := writable_of_mem_memberLexemes fun k mem => h k (List.mem_cons_of_mem m mem)
      obtain ⟨key, value⟩ := h m List.mem_cons_self
      rw [memberLexemes, List.forall_mem_append, List.forall_mem_cons, List.forall_mem_cons,
        List.forall_mem_cons]
      exact ⟨⟨key, trivial, value⟩, trivial, more⟩

theorem writable_array {elements : List Json} (h : ∀ v ∈ elements, v.Writable) :
    (array elements).Writable := by
  rw [Writable, lexemes, List.forall_mem_append, List.forall_mem_cons, List.forall_mem_singleton]
  exact ⟨⟨trivial, writable_of_mem_elementLexemes h⟩, trivial⟩

theorem writable_object {members : List (List Unit × Json)}
    (h : ∀ m ∈ members, (∀ u ∈ m.1, u.Writable) ∧ m.2.Writable) : (object members).Writable := by
  rw [Writable, lexemes, List.forall_mem_append, List.forall_mem_cons, List.forall_mem_singleton]
  exact ⟨⟨trivial, writable_of_mem_memberLexemes h⟩, trivial⟩

/-- A value is read back from any layout of its tokens. -/
theorem parse?_of_spaced {v : Json} {s : List Char} (h : v.Writable) (spaced : Spaced v.lexemes s) :
    parse? s = some v.reread := by
  have ended := run?_lexemes v.reread [] []
  rw [List.append_nil, lexemes_reread] at ended
  rw [parse?, tokens?_of_spaced spaced h, Option.bind_some, ofTokens?, ended]
  rfl

/-- **A value is read back from its layout over lines.** -/
theorem parse?_spread {v : Json} (h : v.Writable) (depth : Nat) :
    parse? (v.spread depth) = some v.reread := by
  refine parse?_of_spaced h ?_
  simpa using spaced_spread depth v .nil delimits_nil

/-- **A value is read back from its layout without blanks.** -/
theorem parse?_compact {v : Json} (h : v.Writable) : parse? v.compact = some v.reread := by
  refine parse?_of_spaced h ?_
  simpa using spaced_compact v .nil delimits_nil

end IncludeAtlas.Json
