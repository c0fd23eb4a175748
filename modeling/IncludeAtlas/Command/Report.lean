import IncludeAtlas.Document.Write
import IncludeAtlas.Scan.Options
import IncludeAtlas.Page.Address

/-!
# Reports of failures

How a command that fails says so: what failed, and the chain of causes below it.

## Main Definitions

* `RunError`: why a command failed
* `RunError.causes`: what failed and why, from the outside in
* `report`: the text of a chain of causes

## Design notes

An error that wraps another one says what the other says, and the other follows as a cause
of its own.  A single cause is indented by four places, several are numbered from zero; the
further lines of a cause are indented as deep as its first.
-/

namespace IncludeAtlas

/-- Why a command failed. -/
inductive RunError where
  | settings (path : Path) (error : ScanError)
  | invalid (error : ScanError)
  | scan (error : ScanError)
  | write (error : WriteError)
  | bind (address : Address) (fault : BindFault)

/-- What a scan error says, and the error that it wraps. -/
def ScanError.causes (e : ScanError) : List String :=
  e.message :: match e with
    | .unreadable _ fault => [fault.message]
    | .badPattern e => [e.message]
    | _ => []

/-- What a write error says, and the fault that it wraps. -/
def WriteError.causes (e : WriteError) : List String :=
  [e.message, e.fault.message]

/-- What failed and why, from the outside in. -/
def RunError.causes : RunError → List String
  | .settings p e => ("cannot load settings from " ++ p.display) :: e.causes
  | .invalid e => "invalid configuration" :: e.causes
  | .scan e => e.causes
  | .write e => e.causes
  | .bind a fault => ["cannot bind " ++ a.authority, fault.message]

namespace Report

/-- A text whose further lines are indented. -/
def indented (indent : Nat) (s : String) : List Char :=
  s.toList.flatMap fun c => if c = '\n' then '\n' :: List.replicate indent ' ' else [c]

/-- The causes with their numbers, each on a line of its own. -/
def numbered (n : Nat) : List String → List Char
  | [] => []
  | c :: rest =>
    let number := Nat.toDigits 10 n
    '\n' :: List.replicate (5 - number.length) ' ' ++ number ++ ": ".toList ++ indented 7 c
      ++ numbered (n + 1) rest

/-- The causes below the outermost one. -/
def below : List String → List Char
  | [] => []
  | [c] => "\n\nCaused by:\n    ".toList ++ indented 4 c
  | cs => "\n\nCaused by:".toList ++ numbered 0 cs

end Report

/-- The text of a chain of causes. -/
def report : List String → String
  | [] => ""
  | c :: rest => String.ofList ("Error: ".toList ++ c.toList ++ Report.below rest ++ ['\n'])

end IncludeAtlas
