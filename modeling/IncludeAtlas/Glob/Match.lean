import IncludeAtlas.Glob.Basic
import IncludeAtlas.Path.Basic

/-!
# Matching names against patterns

A pattern is matched part by part.  A part leads from a byte string to what may remain
of it, and a pattern matches if it can leave nothing.

## Main Definitions

* `Glob.remainders`, `Glob.remaindersAll`, `Glob.remaindersAny`: what a part, a row of
  parts or a choice of rows may leave
* `Glob.accepts`: whether a pattern matches a byte string

## Design notes

Patterns see bytes.  A character stands for its bytes, and a class holds single bytes:
the bytes of a character outside ASCII count one by one, and a range goes from the last
byte of its first character to the first byte of its last one.

With `segments` a question mark or a star keeps to one segment of a path; classes do not.
A branch of a group that is empty counts only if all branches are.
-/

namespace IncludeAtlas.Glob

/-- The bytes of a class that a range of characters stands for. -/
def byteRanges (r : Char × Char) : List (UInt8 × UInt8) :=
  let single (b : UInt8) := (b, b)
  let first := Utf8.encodeChar r.1
  let last := Utf8.encodeChar r.2
  if r.1 = r.2 then first.map single
  else
    first.dropLast.map single ++ (first.getLastD 0, last.headD 0) :: last.tail.map single

/-- Whether a class holds a byte. -/
def classHolds (negated : Bool) (ranges : List (Char × Char)) (b : UInt8) : Bool :=
  (ranges.flatMap byteRanges).any (fun r => r.1 ≤ b && b ≤ r.2) != negated

/-- What remains after taking away a given start. -/
def afterPrefix? : Bytes → Bytes → Option Bytes
  | [], s => some s
  | _ :: _, [] => none
  | b :: bs, c :: cs => if b = c then afterPrefix? bs cs else none

/-- What remains after any number of bytes that all satisfy a condition. -/
def afterSome (p : UInt8 → Bool) : Bytes → List Bytes
  | [] => [[]]
  | b :: bs => (b :: bs) :: if p b then afterSome p bs else []

/-- What remains after a slash, wherever it stands. -/
def afterSlash : Bytes → List Bytes
  | [] => []
  | b :: bs => if b = slash then bs :: afterSlash bs else afterSlash bs

mutual

/-- Whether a part can only stand for nothing: a group of such branches. -/
def Token.isVoid : Token → Bool
  | .group branches => allVoid branches
  | _ => false

/-- Whether all parts of a row can only stand for nothing. -/
def rowVoid : List Token → Bool
  | [] => true
  | t :: ts => t.isVoid && rowVoid ts

/-- Whether all branches can only stand for nothing. -/
def allVoid : List (List Token) → Bool
  | [] => true
  | b :: bs => rowVoid b && allVoid bs

end

mutual

/-- What a part may leave of a byte string. -/
def remainders (segments : Bool) : Token → Bytes → List Bytes
  | .literal c, s => (afterPrefix? (Utf8.encodeChar c) s).toList
  | .any, s =>
    match s with
    | [] => []
    | b :: bs => if segments && b = slash then [] else [bs]
  | .star, s => afterSome (fun b => !(segments && b = slash)) s
  | .leading, s => s :: afterSlash s
  | .trailing, s =>
    match s with
    | [] => []
    | b :: bs => if b = slash then afterSome (fun _ => true) bs else []
  | .between, s =>
    match s with
    | [] => []
    | b :: bs => if b = slash then bs :: afterSlash bs else []
  | .oneOf negated ranges, s =>
    match s with
    | [] => []
    | b :: bs => if classHolds negated ranges b then [bs] else []
  | .group branches, s => if allVoid branches then [s] else remaindersAny segments branches s

/-- What a row of parts may leave of some byte strings. -/
def remaindersAll (segments : Bool) : List Token → List Bytes → List Bytes
  | [], ss => ss
  | t :: ts, ss => remaindersAll segments ts (ss.flatMap (remainders segments t)).eraseDups

/-- What the branches of a choice may leave of a byte string. -/
def remaindersAny (segments : Bool) : List (List Token) → Bytes → List Bytes
  | [], _ => []
  | b :: bs, s =>
    (if rowVoid b then [] else remaindersAll segments b [s]) ++ remaindersAny segments bs s

end

/-- Whether a pattern matches a byte string as a whole.  Directories alone match
everything. -/
def accepts (segments : Bool) (pattern : List Token) (s : Bytes) : Bool :=
  match pattern with
  | [.leading] => true
  | _ => (remaindersAll segments pattern [s]).contains []

end IncludeAtlas.Glob
