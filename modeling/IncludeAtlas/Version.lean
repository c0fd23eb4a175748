/-!
# The version

## Main Definitions

* `versionNumber`: the version of the program
-/

namespace IncludeAtlas

/-- The version of the program. -/
def versionNumber : String := "0.1.0"

end IncludeAtlas
