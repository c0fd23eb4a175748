import IncludeAtlas.Decimal.Natural
import IncludeAtlas.Text.Cut

/-!
# The address of the page

Where the page that shows a graph is served, and whether a machine can serve it there.

## Main Definitions

* `Address`: a host and a port
* `Address.url`: the address as a link
* `Address.authority`: the address in a message
* `Address.fault?`: why nothing can be served at the address

## Design notes

The machine is taken to have its own loopback addresses and no name service: a host is an
address of four numbers, or one of the names the machine gives itself.
-/

namespace IncludeAtlas

/-- A host and a port to listen on. -/
structure Address where
  host : String
  port : Nat
  deriving DecidableEq, Repr

/-- Why nothing can be served at an address. -/
inductive BindFault where
  | notLocal
  | unknownName
  | noNameService
  deriving DecidableEq, Repr

/-- The wording of a fault. -/
def BindFault.message : BindFault → String
  | .notLocal => "Cannot assign requested address (os error 99)"
  | .unknownName => "failed to lookup address information: Name or service not known"
  | .noNameService =>
    "failed to lookup address information: Temporary failure in name resolution"

namespace Address

/-- The address used where nothing else is asked for: the machine itself. -/
def default : Address :=
  ⟨"127.0.0.1", 8080⟩

/-- Host and port with a colon between them. -/
def authority (a : Address) : String :=
  a.host ++ ":" ++ Natural.text a.port

/-- The link to the page. -/
def url (a : Address) : String :=
  "http://" ++ a.authority ++ "/"

/-- One of the four numbers of an address. -/
def octet? (s : List Char) : Option Nat :=
  if s.length ≤ 3 ∧ s ≠ [] ∧ (s.head? ≠ some '0' ∨ s.length = 1) then
    (Natural.ofDigits? s).filter (· ≤ 255)
  else none

/-- The four numbers of a host that is an address. -/
def octets? (host : String) : Option (List Nat) :=
  match (Cut.pieces '.' host.toList).mapM octet? with
  | some [a, b, c, d] => some [a, b, c, d]
  | _ => none

/-- Whether a character may stand in the name of a host. -/
def isNameChar (c : Char) : Bool :=
  c.isAlphanum || c == '-' || c == '.' || c == '_'

/-- The names that a machine gives itself. -/
def ownNames : List String := ["localhost", "::1", "::"]

/-- Why nothing can be served at the address. -/
def fault? (a : Address) : Option BindFault :=
  match octets? a.host with
  | some ns => if ns.head? = some 127 ∨ ns.all (· = 0) then none else some .notLocal
  | none =>
    if a.host ∈ ownNames then none
    else if a.host ≠ "" ∧ a.host.toList.all isNameChar then some .noNameService
    else some .unknownName

end Address

end IncludeAtlas
