/-!
# TOML values

What a TOML text says once its tables are put together.

## Main Definitions

* `Toml`: a value
* `Toml.find?`: the value of a key in a table

## Design notes

Dates and times are kept as they are spelled: that they are neither texts nor numbers is
all that a reader of settings asks about them.
-/

namespace IncludeAtlas

/-- A TOML value. -/
inductive Toml where
  | text (s : String)
  | integer (n : Int)
  | float (x : Float)
  | boolean (b : Bool)
  | moment (spelling : List Char)
  | array (elements : List Toml)
  | table (entries : List (String × Toml))
  deriving Repr

namespace Toml

/-- The value of a key among some entries. -/
def find? (key : String) (entries : List (String × Toml)) : Option Toml :=
  (entries.find? fun e => e.1 = key).map Prod.snd

end Toml

end IncludeAtlas
