import IncludeAtlas.Json.Token

/-!
# JSON values from tokens

The grammar of JSON as a machine that takes one token at a time.  What is open
around the current place is a stack of frames, so that no depth of nesting is too
deep for it.

## Main Definitions

* `Frame`: an open array or object
* `Expect`: what the next token has to be
* `ofTokens?`: the value that a row of tokens spells
* `Json.parse?`: the value of a text

## Design notes

Each step consumes a token and the machine is defined by recursion on the row of
tokens.  Elements and members are gathered in reverse.
-/

namespace IncludeAtlas.Json

/-- An array or object that is not closed yet. -/
inductive Frame where
  | array (done : List Json)
  | object (done : List (List Unit × Json))
  | member (done : List (List Unit × Json)) (key : List Unit)
  deriving Repr

/-- What comes next.  `done v` stands after a complete value. -/
inductive Expect where
  | value
  | valueOrEnd
  | key
  | keyOrEnd
  | colon
  | done (v : Json)
  deriving Repr

/-- The effect of a token that has to start a value. -/
def startValue? (stack : List Frame) : Token → Option (Expect × List Frame)
  | .null => some (.done .null, stack)
  | .bool b => some (.done (.bool b), stack)
  | .number n => some (.done (.number n), stack)
  | .string units => some (.done (.string units), stack)
  | .openArray => some (.valueOrEnd, .array [] :: stack)
  | .openObject => some (.keyOrEnd, .object [] :: stack)
  | _ => none

/-- The effect of a token that has to be a key. -/
def startMember? : List Frame → Token → Option (Expect × List Frame)
  | .object done :: stack, .string units => some (.colon, .member done units :: stack)
  | _, _ => none

/-- The effect of a token after a complete value. -/
def finishValue? (v : Json) : List Frame → Token → Option (Expect × List Frame)
  | .array done :: stack, .comma => some (.value, .array (v :: done) :: stack)
  | .array done :: stack, .closeArray => some (.done (.array (v :: done).reverse), stack)
  | .member done k :: stack, .comma => some (.key, .object ((k, v) :: done) :: stack)
  | .member done k :: stack, .closeObject =>
    some (.done (.object ((k, v) :: done).reverse), stack)
  | _, _ => none

/-- The effect of a token. -/
def step? : Expect → List Frame → Token → Option (Expect × List Frame)
  | .value, stack, t => startValue? stack t
  | .valueOrEnd, .array [] :: stack, .closeArray => some (.done (.array []), stack)
  | .valueOrEnd, stack, t => startValue? stack t
  | .key, stack, t => startMember? stack t
  | .keyOrEnd, .object [] :: stack, .closeObject => some (.done (.object []), stack)
  | .keyOrEnd, stack, t => startMember? stack t
  | .colon, stack, .colon => some (.value, stack)
  | .colon, _, _ => none
  | .done v, stack, t => finishValue? v stack t

/-- Runs the machine to the end of the tokens, where a complete value has to stand and
nothing may be open. -/
def run? : Expect → List Frame → List Token → Option Json
  | .done v, [], [] => some v
  | _, _, [] => none
  | expect, stack, t :: ts =>
    match step? expect stack t with
    | some (expect, stack) => run? expect stack ts
    | none => none

/-- The value that a row of tokens spells. -/
def ofTokens? (ts : List Token) : Option Json :=
  run? .value [] ts

/-- The value of a text. -/
def parse? (s : List Char) : Option Json :=
  (tokens? s).bind ofTokens?

end IncludeAtlas.Json
