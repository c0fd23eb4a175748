import IncludeAtlas.Command.Switch

/-!
# Words of the command line

A command line is cut into switches, switches with a value, and operands.

## Main Definitions

* `Word`: a piece of a command line
* `Word.ofArgument?`: the pieces of one argument
* `Word.ofArguments?`: the pieces of all arguments after a verb
* `CommandLine`, `CommandLine.cut?`: a whole command line

## Design notes

A value stands behind an equals sign, directly behind a letter, or in the next argument,
which then must not look like a switch itself.  A hyphen alone is an operand.  After two
hyphens alone everything is.  The first operand is the verb; what stands before it belongs
to the program as a whole.
-/

namespace IncludeAtlas

/-- A piece of a command line. -/
inductive Word where
  | switch (s : Switch)
  | valued (s : Switch) (value : String)
  | operand (text : String)
  deriving DecidableEq, Repr

namespace Word

/-- Whether an argument cannot be mistaken for a switch. -/
def isOperand (a : List Char) : Bool :=
  a.head? != some '-' || a == ['-']

/-- The pieces of an argument with two hyphens, and the switch that still needs a
value. -/
def ofLong? (verb : Option Verb) (a : List Char) : Option (List Word × Option Switch) := do
  let s ← Switch.ofLong? verb (a.takeWhile (· ≠ '='))
  match a.dropWhile (· ≠ '='), s.takesValue with
  | [], false => return ([.switch s], none)
  | [], true => return ([], some s)
  | _ :: value, true => return ([.valued s (String.ofList value)], none)
  | _ :: _, false => none

/-- The pieces of an argument with one hyphen, and the switch that still needs a value. -/
def ofLetters? (verb : Option Verb) : List Char → Option (List Word × Option Switch)
  | [] => some ([], none)
  | c :: rest => do
    let s ← Switch.ofLetter? verb c
    if s.takesValue then
      match rest with
      | [] => return ([], some s)
      | '=' :: value => return ([.valued s (String.ofList value)], none)
      | value => return ([.valued s (String.ofList value)], none)
    else
      let (ws, pending) ← ofLetters? verb rest
      return (.switch s :: ws, pending)

/-- The pieces of an argument that is no operand. -/
def ofArgument? (verb : Option Verb) : List Char → Option (List Word × Option Switch)
  | '-' :: '-' :: a => ofLong? verb a
  | '-' :: a => ofLetters? verb a
  | _ => none

/-- The pieces of the arguments after a verb.  An open switch takes the first argument as
its value. -/
def ofArguments? (verb : Verb) : Option Switch → List String → Option (List Word)
  | none, [] => some []
  | some _, [] => none
  | some s, a :: rest =>
    if isOperand a.toList then (ofArguments? verb none rest).map (.valued s a :: ·) else none
  | none, a :: rest =>
    if a = "--" then some (rest.map .operand)
    else if isOperand a.toList then (ofArguments? verb none rest).map (.operand a :: ·)
    else
      match ofArgument? verb a.toList with
      | some (ws, pending) => (ofArguments? verb pending rest).map (ws ++ ·)
      | none => none

end Word

/-- A command line in pieces: what stands before the verb, the verb, and what stands after
it. -/
structure CommandLine where
  before : List Word
  verb : Verb
  after : List Word
  deriving DecidableEq, Repr

namespace CommandLine

/-- Cuts a command line.  An open switch takes the first argument as its value. -/
def cutFrom? : Option Switch → List String → Option CommandLine
  | _, [] => none
  | some s, a :: rest =>
    if Word.isOperand a.toList then
      (cutFrom? none rest).map fun l => { l with before := .valued s a :: l.before }
    else none
  | none, a :: rest =>
    if Word.isOperand a.toList then do
      let verb ← Verb.ofString? a
      return ⟨[], verb, ← Word.ofArguments? verb none rest⟩
    else
      match Word.ofArgument? none a.toList with
      | some (ws, pending) =>
        (cutFrom? pending rest).map fun l => { l with before := ws ++ l.before }
      | none => none

/-- Cuts a command line. -/
def cut? (arguments : List String) : Option CommandLine :=
  cutFrom? none arguments

end CommandLine

end IncludeAtlas
