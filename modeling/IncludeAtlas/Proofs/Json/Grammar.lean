import IncludeAtlas.Proofs.Json.Parser

/-!
# What a JSON text spells

A text spells a value exactly if its tokens are those of the value.  So the tokens of a text say
all about the value in it, and blanks, which are in no token, say nothing.

## Main Definitions

* `opened`: the tokens that led to some open arrays and objects
* `Reads`: a state of the machine with the tokens it has read
* `Respaced`: two texts that differ in the blanks between their tokens

## Main Results

* `Reads.step`: a token is read behind those that were read before
* `parse?_eq_some_iff`: a text spells a value exactly if its tokens are those of the value
* `Respaced.tokens?_eq`: blanks between tokens do not matter

## What is load-bearing

Elements and members are gathered in reverse, and a frame does not say whether a comma or a colon
was read last.  `Reads` ties the frames to what is expected next, which does.
-/

namespace IncludeAtlas.Json

/-! ## Tokens of what is open -/

/-- The tokens of some elements, each with a comma behind it. -/
def ledElements (vs : List Json) : List Token :=
  vs.flatMap fun v => v.lexemes ++ [.comma]

/-- The tokens of some members, each with a comma behind it. -/
def ledMembers (ms : List (List Unit × Json)) : List Token :=
  ms.flatMap fun m => .string m.1 :: .colon :: m.2.lexemes ++ [.comma]

theorem elementLexemes_append_singleton (vs : List Json) (v : Json) :
    elementLexemes (vs ++ [v]) = ledElements vs ++ v.lexemes := by
  induction vs with
  | nil => rfl
  | cons u vs ih =>
      obtain ⟨w, rest, eq⟩ := List.exists_cons_of_ne_nil (List.append_ne_nil_of_right_ne_nil vs
        (List.cons_ne_nil v []))
      rw [List.cons_append, eq, elementLexemes, ← eq, ih]
      simp [ledElements]

theorem memberLexemes_append_singleton (ms : List (List Unit × Json)) (k : List Unit) (v : Json) :
    memberLexemes (ms ++ [(k, v)]) = ledMembers ms ++ .string k :: .colon :: v.lexemes := by
  induction ms with
  | nil => rfl
  | cons m ms ih =>
      obtain ⟨n, rest, eq⟩ := List.exists_cons_of_ne_nil (List.append_ne_nil_of_right_ne_nil ms
        (List.cons_ne_nil (k, v) []))
      rw [List.cons_append, eq, memberLexemes, ← eq, ih]
      simp [ledMembers]

/-- The tokens that led to some open arrays and objects, the innermost one first. -/
def opened : List Frame → List Token
  | [] => []
  | .array done :: stack => opened stack ++ .openArray :: ledElements done.reverse
  | .object done :: stack => opened stack ++ .openObject :: ledMembers done.reverse
  | .member done k :: stack =>
    opened stack ++ .openObject :: ledMembers done.reverse ++ [.string k, .colon]

/-- A state of the machine with the tokens it has read. -/
inductive Reads : Expect → List Frame → List Token → Prop
  | value (stack : List Frame) : Reads .value stack (opened stack)
  | valueOrEnd (stack : List Frame) :
      Reads .valueOrEnd (.array [] :: stack) (opened (.array [] :: stack))
  | key (done : List (List Unit × Json)) (stack : List Frame) :
      Reads .key (.object done :: stack) (opened (.object done :: stack))
  | keyOrEnd (stack : List Frame) :
      Reads .keyOrEnd (.object [] :: stack) (opened (.object [] :: stack))
  | colon (done : List (List Unit × Json)) (k : List Unit) (stack : List Frame) :
      Reads .colon (.member done k :: stack) (opened (.object done :: stack) ++ [.string k])
  | done (v : Json) (stack : List Frame) : Reads (.done v) stack (opened stack ++ v.lexemes)

namespace Reads

variable {expect expect' : Expect} {stack stack' : List Frame} {t : Token} {ts ts' : List Token}

theorem of_eq (h : Reads expect stack ts) (eq : ts = ts') : Reads expect stack ts' :=
  eq ▸ h

/-- A token that starts a value. -/
theorem startValue (h : startValue? stack t = some (expect', stack')) :
    Reads expect' stack' (opened stack ++ [t]) := by
  cases t
  all_goals cases h
  case openArray => exact (valueOrEnd stack).of_eq rfl
  case openObject => exact (keyOrEnd stack).of_eq rfl
  all_goals exact done _ _

/-- A token that starts a member. -/
theorem startMember {ms : List (List Unit × Json)}
    (h : startMember? (.object ms :: stack) t = some (expect', stack')) :
    Reads expect' stack' (opened (.object ms :: stack) ++ [t]) := by
  cases t
  all_goals cases h
  exact colon ms _ stack

/-- A token behind a value: a comma goes on with what is open, and an end closes it. -/
theorem finishValue {v : Json} (h : finishValue? v stack t = some (expect', stack')) :
    Reads expect' stack' (opened stack ++ v.lexemes ++ [t]) := by
  unfold finishValue? at h
  split at h
  case h_1 vs stack =>
    cases h
    refine (value _).of_eq ?_
    simp [opened, ledElements]
  case h_2 vs stack =>
    cases h
    refine (done _ _).of_eq ?_
    rw [List.reverse_cons, lexemes, elementLexemes_append_singleton]
    simp [opened]
  case h_3 ms k stack =>
    cases h
    refine (key _ stack).of_eq ?_
    simp [opened, ledMembers]
  case h_4 ms k stack =>
    cases h
    refine (done _ _).of_eq ?_
    rw [List.reverse_cons, lexemes, memberLexemes_append_singleton]
    simp [opened]
  case h_5 => cases h

/-- **A token is read behind those that were read before.** -/
theorem step (reads : Reads expect stack ts) (h : step? expect stack t = some (expect', stack')) :
    Reads expect' stack' (ts ++ [t]) := by
  cases reads with
  | value => exact startValue h
  | valueOrEnd stack =>
      by_cases close : t = .closeArray
      · subst close
        cases h
        refine (done (.array []) _).of_eq ?_
        simp [opened, ledElements, lexemes, elementLexemes]
      · have started : startValue? (.array [] :: stack) t = some (expect', stack') := by
          cases t <;> first | exact h | exact absurd rfl close
        exact startValue started
  | key ms stack => exact startMember h
  | keyOrEnd stack =>
      by_cases close : t = .closeObject
      · subst close
        cases h
        refine (done (.object []) _).of_eq ?_
        simp [opened, ledMembers, lexemes, memberLexemes]
      · have started : startMember? (.object [] :: stack) t = some (expect', stack') := by
          cases t <;> first | exact h | exact absurd rfl close
        exact startMember started
  | colon ms k stack =>
      cases t
      all_goals cases h
      exact (value (.member ms k :: stack)).of_eq (by simp [opened])
  | done v stack => exact finishValue h

/-- What the machine comes to is spelled by all tokens, read and unread. -/
theorem run {v : Json} (reads : Reads expect stack ts) (h : run? expect stack ts' = some v) :
    ts ++ ts' = v.lexemes := by
  induction ts' generalizing expect stack ts with
  | nil =>
      rw [List.append_nil]
      cases reads with
      | done w stack =>
          cases stack with
          | nil =>
              cases h
              rfl
          | cons f stack => cases h
      | _ => cases h
  | cons t ts' ih =>
      rw [run?.eq_def] at h
      simp only at h
      cases next : step? expect stack t with
      | none =>
          rw [next] at h
          cases h
      | some state =>
          obtain ⟨expect', stack'⟩ := state
          rw [next] at h
          rw [← ih (reads.step next) h, List.append_assoc, List.singleton_append]

end Reads

/-! ## Texts -/

variable {s s' : List Char} {v : Json}

/-- The machine takes a row of tokens for a value exactly if they are the tokens of the value. -/
theorem ofTokens?_eq_some_iff {ts : List Token} : ofTokens? ts = some v ↔ ts = v.lexemes := by
  constructor
  · exact (Reads.value []).run
  · rintro rfl
    have ended := run?_lexemes v [] []
    rw [List.append_nil] at ended
    rw [ofTokens?, ended]
    rfl

/-- **A text spells a value exactly if its tokens are those of the value.** -/
theorem parse?_eq_some_iff : parse? s = some v ↔ tokens? s = some v.lexemes := by
  rw [parse?, Option.bind_eq_some_iff]
  constructor
  · rintro ⟨ts, cut, spelled⟩
    rw [cut, ofTokens?_eq_some_iff.1 spelled]
  · intro cut
    exact ⟨_, cut, ofTokens?_eq_some_iff.2 rfl⟩

/-- Two texts that differ in the blanks between their tokens.  The text `l` of a token is the
same in both, and in both it is cut off there. -/
inductive Respaced : List Char → List Char → Prop
  | ends {b b' : List Char} (blank : ∀ c ∈ b, isBlank c = true)
      (blank' : ∀ c ∈ b', isBlank c = true) :
      Respaced b b'
  | token {b b' l s s' : List Char} {t : Token} (blank : ∀ c ∈ b, isBlank c = true)
      (blank' : ∀ c ∈ b', isBlank c = true) (cut : token? (l ++ s) = some (t, s))
      (cut' : token? (l ++ s') = some (t, s')) (rest : Respaced s s') :
      Respaced (b ++ (l ++ s)) (b' ++ (l ++ s'))

theorem tokens?_blanks_append {b : List Char} (blank : ∀ c ∈ b, isBlank c = true)
    (s : List Char) : tokens? (b ++ s) = tokens? s := by
  induction b with
  | nil => rfl
  | cons c b ih =>
      rw [List.cons_append, tokens?_blank (blank c List.mem_cons_self),
        ih fun d mem => blank d (List.mem_cons_of_mem c mem)]

/-- **Blanks between tokens do not matter.** -/
theorem Respaced.tokens?_eq (h : Respaced s s') : tokens? s = tokens? s' := by
  induction h with
  | @ends b b' blank blank' =>
      have empty := tokens?_blanks_append blank []
      have empty' := tokens?_blanks_append blank' []
      rw [List.append_nil] at empty empty'
      rw [empty, empty']
  | token blank blank' cut cut' _ ih =>
      rw [tokens?_blanks_append blank, tokens?_blanks_append blank', tokens?_of_token? cut,
        tokens?_of_token? cut', ih]

theorem Respaced.parse?_eq (h : Respaced s s') : parse? s = parse? s' := by
  rw [parse?, parse?, h.tokens?_eq]

end IncludeAtlas.Json
