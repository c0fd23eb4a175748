import IncludeAtlas.Glob.Basic

/-!
# Patterns from text

Reading a pattern: `?`, `*`, `**`, classes in brackets, groups in braces, and a backslash
before a character that shall stand for itself.

## Main Definitions

* `Glob.classRest?`: the ranges of a class up to its closing bracket
* `Glob.Reader`: the branch being read and the groups around it
* `Glob.parse`: the pattern of a text

## Design notes

A class may be left open if the reader is told to bear with it; then its bracket and all
later ones stand for themselves.  A comma has a meaning only inside a group.
-/

namespace IncludeAtlas.Glob

/-- What has been read of a class: its ranges in reverse, and whether a dash has just
asked for the last of them to be continued. -/
structure ClassReader where
  ranges : List (Char × Char)
  pending : Bool

/-- Adds a character to a class: as the end of the last range or as one of its own. -/
def ClassReader.add (r : ClassReader) (c : Char) : Except Fault ClassReader :=
  match r.pending, r.ranges with
  | true, (first, _) :: rest =>
    if c < first then .error (.invalidRange first c) else .ok ⟨(first, c) :: rest, false⟩
  | _, ranges => .ok ⟨(c, c) :: ranges, false⟩

/-- The ranges of a class that has ended.  A dash at the end stands for itself. -/
def ClassReader.close (r : ClassReader) : List (Char × Char) :=
  (if r.pending then ('-', '-') :: r.ranges else r.ranges).reverse

/-- Reads a class after its first character, up to the closing bracket. -/
def classTail? (r : ClassReader) : List Char → Except Fault (Option (List (Char × Char) × List Char))
  | [] => .ok none
  | ']' :: rest => .ok (some (r.close, rest))
  | c :: rest =>
    if c = '-' ∧ ¬ r.pending then classTail? { r with pending := true } rest
    else
      match r.add c with
      | .ok r => classTail? r rest
      | .error fault => .error fault

/-- The mark that negates a class, if it stands at the start of a text, and the rest. -/
def negation : List Char → Bool × List Char
  | '!' :: rest => (true, rest)
  | '^' :: rest => (true, rest)
  | s => (false, s)

/-- Reads the characters of a class, of which the first stands for itself whatever it
is. -/
def classBody? (negated : Bool) : List Char → Except Fault (Option (Token × List Char))
  | [] => .ok none
  | c :: rest =>
    match classTail? ⟨[(c, c)], false⟩ rest with
    | .ok (some (ranges, rest)) => .ok (some (.oneOf negated ranges, rest))
    | .ok none => .ok none
    | .error fault => .error fault

/-- Reads a class after its bracket.  The result is nothing if the class is never
closed. -/
def classRest? (s : List Char) : Except Fault (Option (Token × List Char)) :=
  let (negated, s) := negation s
  classBody? negated s

theorem classTail?_length {r : ClassReader} {s rest : List Char} {ranges : List (Char × Char)}
    (h : classTail? r s = .ok (some (ranges, rest))) : rest.length < s.length := by
  fun_induction classTail? r s generalizing ranges rest with
  | case1 => simp at h
  | case2 => simp only [Except.ok.injEq, Option.some.injEq, Prod.mk.injEq] at h; simp [h.2]
  | case3 r c t _ _ ih => exact Nat.lt_succ_of_lt (ih h)
  | case4 r c t _ _ r' _ ih => exact Nat.lt_succ_of_lt (ih h)
  | case5 => simp at h

theorem negation_length (s : List Char) : (negation s).2.length ≤ s.length := by
  unfold negation
  split <;> simp

theorem classBody?_length {negated : Bool} {s rest : List Char} {t : Token}
    (h : classBody? negated s = .ok (some (t, rest))) : rest.length < s.length := by
  unfold classBody? at h
  split at h
  · simp at h
  · split at h
    · rename_i hc
      have := classTail?_length hc
      simp only [Except.ok.injEq, Option.some.injEq, Prod.mk.injEq] at h
      simp only [List.length_cons, ← h.2]
      omega
    · simp at h
    · simp at h

theorem classRest?_length {s rest : List Char} {t : Token}
    (h : classRest? s = .ok (some (t, rest))) : rest.length < s.length :=
  Nat.lt_of_lt_of_le (classBody?_length h) (negation_length s)

/-- A group being read: the branch it stands in and its finished branches, each in
reverse. -/
structure Frame where
  outer : List Token
  done : List (List Token)

/-- What has been read of a pattern: the current branch in reverse, the groups around it
from the inside out, the character before the place, and whether classes are still
recognised. -/
structure Reader where
  branch : List Token
  groups : List Frame
  previous : Option Char
  classes : Bool

/-- Adds tokens to the current branch. -/
def Reader.push (r : Reader) (ts : List Token) (previous : Char) : Reader :=
  { r with branch := ts.reverse ++ r.branch, previous := some previous }

/-- Whether two stars after this character may stand for directories. -/
def Reader.startsSegment (r : Reader) : Bool :=
  match r.previous with
  | some '/' => true
  | some ',' => !r.groups.isEmpty
  | some '\x7b' => !r.groups.isEmpty
  | _ => false

/-- Whether two stars before this text end a pattern or a branch. -/
def Reader.endsBranch (r : Reader) : List Char → Bool
  | [] => true
  | c :: _ => (c == ',' || c == '\x7d') && !r.groups.isEmpty

/-- Replaces the slash before two stars by what the three of them mean. -/
def Reader.replaceLast (r : Reader) (t : Token) (previous : Char) : Reader :=
  match r.branch with
  | .leading :: rest => { r with branch := .leading :: rest, previous := some previous }
  | .trailing :: rest => { r with branch := .trailing :: rest, previous := some previous }
  | _ :: rest => { r with branch := t :: rest, previous := some previous }
  | [] => { r with branch := [t], previous := some previous }

/-- Reads two stars, and the slash after them if they take it in. -/
def Reader.stars (r : Reader) (rest : List Char) : Reader × List Char :=
  let single := (r.push [.star, .star] '*', rest)
  if r.branch.isEmpty then
    match rest with
    | [] => (r.push [.leading] '*', [])
    | '/' :: rest => (r.push [.leading] '/', rest)
    | _ => single
  else if !r.startsSegment then single
  else if r.endsBranch rest then (r.replaceLast .trailing '*', rest)
  else
    match rest with
    | '/' :: rest => (r.replaceLast .between '/', rest)
    | _ => single

theorem Reader.stars_length (r : Reader) (s : List Char) : (r.stars s).2.length ≤ s.length := by
  unfold Reader.stars
  dsimp only
  repeat' split
  all_goals simp

/-- Opens a group. -/
def Reader.openGroup (r : Reader) : Reader :=
  { r with branch := [], groups := ⟨r.branch, []⟩ :: r.groups, previous := some '\x7b' }

/-- Ends a branch, if a group is open. -/
def Reader.comma (r : Reader) : Reader :=
  match r.groups with
  | [] => r.push [.literal ','] ','
  | g :: rest =>
    { r with branch := [], groups := ⟨g.outer, r.branch :: g.done⟩ :: rest, previous := some ',' }

/-- Closes the innermost group. -/
def Reader.closeGroup (r : Reader) : Except Fault Reader :=
  match r.groups with
  | [] => .error .unopenedGroup
  | g :: rest =>
    let branches := ((r.branch :: g.done).map List.reverse).reverse
    .ok { r with branch := .group branches :: g.outer, groups := rest, previous := some '\x7d' }

/-- Ends the pattern. -/
def Reader.finish (r : Reader) : Except Fault (List Token) :=
  if r.groups.isEmpty then .ok r.branch.reverse else .error .unclosedGroup

/-- Reads a pattern to its end. -/
def readFrom (lenient : Bool) (r : Reader) (s : List Char) : Except Fault (List Token) :=
  match s with
  | [] => r.finish
  | '?' :: rest => readFrom lenient (r.push [.any] '?') rest
  | '*' :: '*' :: rest =>
    let next := r.stars rest
    readFrom lenient next.1 next.2
  | '*' :: rest => readFrom lenient (r.push [.star] '*') rest
  | '\x7b' :: rest => readFrom lenient r.openGroup rest
  | '\x7d' :: rest =>
    match r.closeGroup with
    | .ok r => readFrom lenient r rest
    | .error fault => .error fault
  | ',' :: rest => readFrom lenient r.comma rest
  | '\\' :: c :: rest => readFrom lenient (r.push [.literal c] c) rest
  | '\\' :: [] => .error .danglingEscape
  | '[' :: rest =>
    if r.classes then
      match _h : classRest? rest with
      | .ok (some (t, rest)) => readFrom lenient (r.push [t] ']') rest
      | .ok none =>
        if lenient then readFrom lenient ({ r with classes := false }.push [.literal '['] '[') rest
        else .error .unclosedClass
      | .error fault => .error fault
    else readFrom lenient (r.push [.literal '['] '[') rest
  | c :: rest => readFrom lenient (r.push [.literal c] c) rest
termination_by s.length
decreasing_by
  all_goals simp only [List.length_cons]
  all_goals try have hs := r.stars_length rest
  all_goals try have hc := classRest?_length _h
  all_goals omega

/-- The pattern of a text. -/
def parse (lenient : Bool) (s : String) : Except GlobError (List Token) :=
  match readFrom lenient ⟨[], [], none, true⟩ s.toList with
  | .ok ts => .ok ts
  | .error fault => .error ⟨s, fault⟩

end IncludeAtlas.Glob
