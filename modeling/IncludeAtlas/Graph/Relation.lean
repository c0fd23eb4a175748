/-!
# Edge directions

An edge joins a file and a file it includes.  A relation says which of the two the
edge starts from.

## Main Definitions

* `Relation`: the two directions
* `Relation.orient`: the ends of an edge
* `Relation.name`, `Relation.parse`: a direction as text, and back
-/

namespace IncludeAtlas

/-- Which way edges point. -/
inductive Relation where
  /-- From the file that includes. -/
  | includes
  /-- From the file that is included. -/
  | includedBy
  deriving DecidableEq, Repr

/-- A text that names no relation. -/
structure UnknownRelation where
  name : String
  deriving DecidableEq, Repr

/-- The wording of the error. -/
def UnknownRelation.message (e : UnknownRelation) : String :=
  "unknown relation '" ++ e.name ++ "', expected 'includes' or 'included-by'"

namespace Relation

/-- The direction used where nothing else is asked for. -/
def default : Relation := .includedBy

/-- The source and the target of an edge. -/
def orient {α : Type} (r : Relation) (includer included : α) : α × α :=
  match r with
  | .includes => (includer, included)
  | .includedBy => (included, includer)

/-- The ends of an edge, turned once more, are the file and what it includes. -/
@[simp] theorem orient_orient {α : Type} (r : Relation) (includer included : α) :
    r.orient (r.orient includer included).1 (r.orient includer included).2 =
      (includer, included) := by
  cases r <;> rfl

/-- A direction as text. -/
def name : Relation → String
  | .includes => "includes"
  | .includedBy => "included-by"

/-- The direction that a text names. -/
def parse (s : String) : Except UnknownRelation Relation :=
  if s = "includes" then .ok .includes
  else if s = "included-by" then .ok .includedBy
  else .error ⟨s⟩

/-- Reading undoes writing. -/
theorem parse_name (r : Relation) : parse r.name = .ok r := by
  cases r <;> rfl

end Relation

end IncludeAtlas
